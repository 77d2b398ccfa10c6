import StackVm.Proofs.World
/-!
# Inline caches hold what a look-up would find

A slot counts only under the serial that its constant was looked up under. So a slot that counts was
filled from a look-up that no definition has followed, neither before the slot was filled nor since,
and the same look-up made now finds the same value. `World.Pending` and `World.Filled` say where in
a history the constant of a machine, or of one of its slots, was looked up; the serial kept with it
is that of the look-up (`pending_eq`, `slot_eq`).
-/

namespace StackVm

namespace ConstantCache

variable {cache : ConstantCache} {token other : UInt32} {value : Value} {serial : UInt64}

/-- A slot that was filled holds what it was filled with. -/
theorem slot?_store_self : (cache.store token value serial).slot? token =
    some ⟨some value, serial⟩ := by
  simp [slot?, store]

/-- The filling of a slot leaves the others as they are. -/
theorem slot?_store_of_ne (h : other ≠ token) :
    (cache.store other value serial).slot? token = cache.slot? token := by
  simp [slot?, store, Std.HashMap.getElem?_insert, h]

/-- Fillings counted from none on are as many, up to a multiple of the number of words. -/
theorem fills_of_fillCount {count : Nat} (h : cache.fillCount = 0 + .ofNat count) :
    cache.fills = count % UInt64.size := by
  rw [fills, h, UInt64.zero_add]
  exact UInt64.toNat_ofNat'

end ConstantCache

/-! ## What an instruction does to the cache -/

namespace Machine

variable {m : Machine} {env : Environment} {i : Instruction} {o : Outcome}

/-- What an instruction can do to the constant that a machine has pending and to its cache. -/
inductive CacheChange (m : Machine) (env : Environment) : Instruction → Outcome → Prop
  /-- A look-up succeeds, and its constant is pending. -/
  | found {name : String} {o : Outcome} {below : List Value} {scope flag value : Value}
      (hok : o.result = .ok ()) (hstack : m.stack.toList = below ++ [scope, flag])
      (hresolve : env.resolve scope name = .ok value)
      (hpending : o.machine.pending = some ⟨name, value, env.serial⟩)
      (hcache : o.machine.cache = m.cache) : CacheChange m env (.getConstant name) o
  /-- The pending constant is kept in a slot. -/
  | kept {token : UInt32} {o : Outcome} {c : FoundConstant} (hbefore : m.pending = some c)
      (hcache : o.machine.cache = m.cache.store token c.value c.serial)
      (hpending : o.machine.pending = none) : CacheChange m env (.setInlineCache token) o
  /-- Both stay as they are. -/
  | none {i : Instruction} {o : Outcome}
      (hfails : ∀ name, i = .getConstant name → o.result ≠ .ok ())
      (hpending : o.machine.pending = m.pending) (hcache : o.machine.cache = m.cache) :
      CacheChange m env i o

/-- A look-up that succeeds has asked the environment. -/
theorem resolve_of_lookup {name : String} {scope flag value : Value}
    (h : lookup env name scope flag = .ok value) : env.resolve scope name = .ok value := by
  unfold lookup at h
  split at h
  · cases h
  · split at h
    · rename_i found hresolve
      obtain rfl : found = value := by simpa using h
      exact hresolve
    · cases h

/-- Nothing but a look-up that succeeds and the filling of a slot touches them. -/
theorem Performs.cacheChange (h : m.Performs env i o) (hfits : m.Fits) : m.CacheChange env i o := by
  cases h with
  | found hstack hlookup _ => exact .found rfl hstack (resolve_of_lookup hlookup) rfl rfl
  | kept _ hpending => exact .kept hpending rfl rfl
  | foundFull hstack _ hfull =>
    have hlen := depth_of_pair hstack
    unfold Fits at hfits
    omega
  | push hi _ => exact .none (by rintro name rfl; simp [Instruction.literal?] at hi) rfl rfl
  | pushFull hi _ => exact .none (by rintro name rfl; simp [Instruction.literal?] at hi) rfl rfl
  | missing | operandsMissing => exact .none (by simp [fail]) rfl rfl
  | hash | hashFull | hashShort | hashOdd | copied | copyShort | copyEmpty | nop | notKept =>
    exact .none (by simp) rfl rfl

/-- The same for an instruction that pays its step. -/
theorem Executes.cacheChange (h : m.Executes env i o) (hfits : m.Fits) :
    m.CacheChange env i o := by
  cases h with
  | granted _ hrun =>
    cases hrun.cacheChange hfits with
    | found hok hstack hresolve hpending hcache => exact .found hok hstack hresolve hpending hcache
    | kept hbefore hcache hpending => exact .kept hbefore hcache hpending
    | none hfails hpending hcache => exact .none hfails hpending hcache
  | refused _ _ => exact .none (by simp [fail]) rfl rfl

end Machine

/-! ## Where a constant was looked up -/

namespace World

/-- At a moment a machine looks a name up in a scope, and succeeds. -/
def Moment.Resolves (x : Moment) (machine : Nat) (scope : Value) (name : String) : Prop :=
  x.action = .execute machine (.getConstant name) ∧
    (x.world.outcome machine (.getConstant name)).result = .ok () ∧
    ∃ below flag, (x.world.machines machine).stack.toList = below ++ [scope, flag]

/-- At a moment a machine fills the slot of a token. -/
def Moment.Fills (x : Moment) (machine : Nat) (token : UInt32) : Prop :=
  x.action = .execute machine (.setInlineCache token) ∧
    (x.world.outcome machine (.setInlineCache token)).machine.cache.fillCount =
      (x.world.machines machine).cache.fillCount + 1

/-- At a moment the constant that a machine has pending is replaced by another or kept in a slot. -/
def Moment.Settles (x : Moment) (machine : Nat) : Prop :=
  (∃ scope name, x.Resolves machine scope name) ∨ ∃ token, x.Fills machine token

/-- In a history, the last look-up of a machine that succeeded and has not filled a slot since is
that of a name in a scope; `since` has happened after it. -/
def Pending (w : World) (history : List Action) (machine : Nat) (scope : Value) (name : String)
    (since : List Action) : Prop :=
  ∃ before, history = before ++ .execute machine (.getConstant name) :: since ∧
    Moment.Resolves ⟨w.after before, .execute machine (.getConstant name)⟩ machine scope name ∧
    ∀ x ∈ ((w.after before).step (.execute machine (.getConstant name))).moments since,
      ¬ x.Settles machine

/-- In a history, the last time that a machine filled the slot of a token, it filled it from the
look-up of a name in a scope; `since` has happened after the look-up. -/
def Filled (w : World) (history : List Action) (machine : Nat) (token : UInt32) (scope : Value)
    (name : String) (since : List Action) : Prop :=
  ∃ before between after, history = before ++ .execute machine (.setInlineCache token) :: after ∧
    w.Pending before machine scope name between ∧
    Moment.Fills ⟨w.after before, .execute machine (.setInlineCache token)⟩ machine token ∧
    (∀ x ∈ ((w.after before).step (.execute machine (.setInlineCache token))).moments after,
      ¬ x.Fills machine token) ∧
    since = between ++ .execute machine (.setInlineCache token) :: after

/-- What an action can do to the constant that a machine has pending and to its cache. -/
inductive Turn (w : World) (machine : Nat) (a : Action) : Prop
  /-- A look-up succeeds, and its constant is pending. -/
  | found {scope value : Value} {name : String}
      (hresolves : Moment.Resolves ⟨w, a⟩ machine scope name)
      (hresolve : w.table.resolve scope name = .ok value)
      (hpending : ((w.step a).machines machine).pending = some ⟨name, value, w.table.serial⟩)
      (hcache : ((w.step a).machines machine).cache = (w.machines machine).cache)
  /-- The pending constant is kept in a slot. -/
  | kept {token : UInt32} {c : FoundConstant} (hfills : Moment.Fills ⟨w, a⟩ machine token)
      (hbefore : (w.machines machine).pending = some c)
      (hcache : ((w.step a).machines machine).cache =
        (w.machines machine).cache.store token c.value c.serial)
      (hpending : ((w.step a).machines machine).pending = none)
  /-- Both stay as they are. -/
  | none (hsettles : ¬ Moment.Settles ⟨w, a⟩ machine)
      (hpending : ((w.step a).machines machine).pending = (w.machines machine).pending)
      (hcache : ((w.step a).machines machine).cache = (w.machines machine).cache)

variable {w : World} {machine : Nat} {a : Action} {history since : List Action}
variable {scope : Value} {name : String} {token : UInt32}

/-- An action of another machine, or of none, settles nothing. -/
theorem not_settles_of_ne {x : Moment} (h : ∀ i, x.action ≠ .execute machine i) :
    ¬ x.Settles machine := by
  rintro (⟨scope, name, hx, -⟩ | ⟨token, hx, -⟩)
  · exact h _ hx
  · exact h _ hx

/-- **Every action is a turn of one of the three kinds for each machine.** -/
theorem turn (hfits : (w.machines machine).Fits) (a : Action) : w.Turn machine a := by
  cases a with
  | define d => exact .none (not_settles_of_ne (by simp)) rfl rfl
  | execute k i =>
    by_cases hk : k = machine
    · subst hk
      have hself := machines_step_self w k i
      cases (Machine.executes_execute (w.machines k) w.table.environment i).cacheChange hfits with
      | found hok hstack hresolve hpending hcache =>
        exact .found ⟨rfl, hok, _, _, hstack⟩ hresolve (hself ▸ hpending) (hself ▸ hcache)
      | @kept token _ c hbefore hcache hpending =>
        refine .kept ⟨rfl, ?_⟩ hbefore (hself ▸ hcache) (hself ▸ hpending)
        exact congrArg ConstantCache.fillCount hcache
      | none hfails hpending hcache =>
        refine .none ?_ (hself ▸ hpending) (hself ▸ hcache)
        rintro (⟨scope, name, hx, hok, -⟩ | ⟨token, hx, hfills⟩)
        · obtain rfl : i = .getConstant name := by simpa using hx
          exact hfails name rfl hok
        · -- A filling counts one more, and this cache is the same.
          obtain rfl : i = .setInlineCache token := by simpa using hx
          have hsame := congrArg ConstantCache.fillCount hcache
          exact absurd (UInt64.left_eq_add.1 (hsame.symm.trans hfills)) (by decide)
    · have hother := machines_step_of_ne (w := w) (i := i) (Ne.symm hk)
      refine .none (not_settles_of_ne ?_) (by rw [hother]) (by rw [hother])
      rintro j hj
      simp [hk] at hj

/-! ## From a history to what is kept -/

/-- While nothing settles it, the pending constant stays. -/
theorem pending_after (hfits : ∀ k, (w.machines k).Fits)
    (hquiet : ∀ x ∈ w.moments since, ¬ x.Settles machine) :
    ((w.after since).machines machine).pending = (w.machines machine).pending := by
  induction since generalizing w with
  | nil => rfl
  | cons a since ih =>
    have hfirst : ¬ Moment.Settles ⟨w, a⟩ machine := hquiet _ (by simp [moments])
    rw [after_cons, ih (fits_step hfits a) fun x hx => hquiet x (by simp [moments, hx])]
    cases turn (hfits machine) a with
    | found hresolves => exact absurd (.inl ⟨_, _, hresolves⟩) hfirst
    | kept hfills => exact absurd (.inr ⟨_, hfills⟩) hfirst
    | none _ hpending _ => exact hpending

/-- While nothing fills it, the slot of a token stays. -/
theorem slot_after (hfits : ∀ k, (w.machines k).Fits)
    (hquiet : ∀ x ∈ w.moments since, ¬ x.Fills machine token) :
    ((w.after since).machines machine).cache.slot? token =
      (w.machines machine).cache.slot? token := by
  induction since generalizing w with
  | nil => rfl
  | cons a since ih =>
    have hfirst : ¬ Moment.Fills ⟨w, a⟩ machine token := hquiet _ (by simp [moments])
    rw [after_cons, ih (fits_step hfits a) fun x hx => hquiet x (by simp [moments, hx])]
    cases turn (hfits machine) a with
    | found _ _ _ hcache => rw [hcache]
    | none _ _ hcache => rw [hcache]
    | @kept other c hfills _ hcache _ =>
      have hne : other ≠ token := by
        rintro rfl
        exact hfirst hfills
      rw [hcache, ConstantCache.slot?_store_of_ne hne]

/-- A scope that a look-up is made in is the one that the stack holds. -/
theorem Moment.Resolves.unique {x : Moment} {scope' : Value} {name' : String}
    (h : x.Resolves machine scope name) (h' : x.Resolves machine scope' name') :
    scope = scope' ∧ name = name' := by
  obtain ⟨hx, -, below, flag, hstack⟩ := h
  obtain ⟨hx', -, below', flag', hstack'⟩ := h'
  refine ⟨?_, by simpa [hx] using hx'⟩
  have hsplit := List.append_inj' (hstack.symm.trans hstack') rfl
  simpa using And.left (List.cons.inj hsplit.2)

/-- **The constant pending is the one looked up**, with the serial of the look-up. -/
theorem pending_eq (hfits : ∀ k, (w.machines k).Fits)
    (h : w.Pending history machine scope name since) :
    ∃ before value, history = before ++ .execute machine (.getConstant name) :: since ∧
      (w.after before).table.resolve scope name = .ok value ∧
      ((w.after history).machines machine).pending =
        some ⟨name, value, (w.after before).table.serial⟩ := by
  obtain ⟨before, rfl, hresolves, hquiet⟩ := h
  have hfits' := fits_after hfits before
  cases turn (hfits' machine) (.execute machine (.getConstant name)) with
  | found hfound hresolve hpending _ =>
    obtain ⟨rfl, rfl⟩ := hresolves.unique hfound
    refine ⟨before, _, rfl, hresolve, ?_⟩
    rw [after_append, after_cons, pending_after (fits_step hfits' _) hquiet, hpending]
  | kept hfills => simp [Moment.Fills] at hfills
  | none hsettles => exact absurd (.inl ⟨_, _, hresolves⟩) hsettles

/-- **The slot holds the constant looked up**, with the serial of the look-up and not of the
filling. -/
theorem slot_eq (hfits : ∀ k, (w.machines k).Fits)
    (h : w.Filled history machine token scope name since) :
    ∃ before value, history = before ++ .execute machine (.getConstant name) :: since ∧
      (w.after before).table.resolve scope name = .ok value ∧
      ((w.after history).machines machine).cache.slot? token =
        some ⟨some value, (w.after before).table.serial⟩ := by
  obtain ⟨before, between, after, rfl, hpending, hfills, hquiet, rfl⟩ := h
  have hfits' := fits_after hfits before
  obtain ⟨earlier, value, hbefore, hresolve, hfound⟩ := pending_eq hfits hpending
  refine ⟨earlier, value, by simp [hbefore], hresolve, ?_⟩
  rw [after_append, after_cons, slot_after (fits_step hfits' _) hquiet]
  cases turn (hfits' machine) (.execute machine (.setInlineCache token)) with
  | found hresolves => simp [Moment.Resolves] at hresolves
  | @kept other c hkept hc hcache _ =>
    obtain rfl : token = other := by simpa using hkept.1
    rw [hfound] at hc
    obtain rfl := Option.some.inj hc
    rw [hcache, ConstantCache.slot?_store_self]
  | none hsettles => exact absurd (.inr ⟨_, hfills⟩) hsettles

/-! ## From what is kept to a history -/

/-- What is pending stays so over an action that does not settle it. -/
theorem Pending.extend (h : w.Pending history machine scope name since)
    (ha : ¬ Moment.Settles ⟨w.after history, a⟩ machine) :
    w.Pending (history ++ [a]) machine scope name (since ++ [a]) := by
  obtain ⟨before, rfl, hresolves, hquiet⟩ := h
  refine ⟨before, by simp, hresolves, fun x hx => ?_⟩
  rw [moments_append, List.mem_append] at hx
  rcases hx with hx | hx
  · exact hquiet x hx
  · rw [after_append, after_cons] at ha
    obtain rfl : x = _ := by simpa [moments] using hx
    exact ha

/-- A slot stays filled over an action that does not fill it again. -/
theorem Filled.extend (h : w.Filled history machine token scope name since)
    (ha : ¬ Moment.Fills ⟨w.after history, a⟩ machine token) :
    w.Filled (history ++ [a]) machine token scope name (since ++ [a]) := by
  obtain ⟨before, between, after, rfl, hpending, hfills, hquiet, rfl⟩ := h
  refine ⟨before, between, after ++ [a], by simp, hpending, hfills, fun x hx => ?_, by simp⟩
  rw [moments_append, List.mem_append] at hx
  rcases hx with hx | hx
  · exact hquiet x hx
  · rw [after_append, after_cons] at ha
    obtain rfl : x = _ := by simpa [moments] using hx
    exact ha

/-- The machines of a world are as they were created, whoever observes them. -/
def Fresh (w : World) : Prop :=
  ∀ k, ∃ id options observer, w.machines k = { Machine.create id options with observer }

/-- Machines as they were created hold no values. -/
theorem Fresh.fits (h : w.Fresh) : ∀ k, (w.machines k).Fits := by
  intro k
  obtain ⟨id, options, observer, hk⟩ := h k
  simp [hk, Machine.Fits, Machine.create, Stack.empty, Stack.depth]

/-- **A constant that is pending was looked up.** -/
theorem exists_pending (hfresh : w.Fresh) {c : FoundConstant}
    (h : ((w.after history).machines machine).pending = some c) :
    ∃ scope since, w.Pending history machine scope c.name since := by
  -- From the end of the history: the last action that settled anything decides.
  induction history using List.reverseRecOn with
  | nil =>
    obtain ⟨id, options, observer, hk⟩ := hfresh machine
    simp [hk, Machine.create] at h
  | append_singleton history a ih =>
    rw [after_append, after_cons, after_nil] at h
    cases turn (fits_after hfresh.fits history machine) a with
    | @found scope value name hresolves _ hpending _ =>
      obtain rfl : c = ⟨name, value, (w.after history).table.serial⟩ := by
        simpa [hpending] using h.symm
      obtain rfl : a = _ := hresolves.1
      exact ⟨scope, [], history, by simp, hresolves, by simp [moments]⟩
    | kept _ _ _ hpending => simp [hpending] at h
    | none hsettles hpending _ =>
      obtain ⟨scope, since, hfound⟩ := ih (hpending ▸ h)
      exact ⟨scope, since ++ [a], hfound.extend hsettles⟩

/-- **A slot that holds something was filled from a look-up.** -/
theorem exists_filled (hfresh : w.Fresh) {slot : CacheSlot}
    (h : ((w.after history).machines machine).cache.slot? token = some slot) :
    ∃ scope name since, w.Filled history machine token scope name since := by
  induction history using List.reverseRecOn with
  | nil =>
    obtain ⟨id, options, observer, hk⟩ := hfresh machine
    simp [hk, Machine.create, ConstantCache.slot?] at h
  | append_singleton history a ih =>
    rw [after_append, after_cons, after_nil] at h
    -- An action that does not touch the slot leaves it with the filling that it had.
    have hextend : ((w.after history).machines machine).cache.slot? token = some slot →
        ¬ Moment.Fills ⟨w.after history, a⟩ machine token →
        ∃ scope name since, w.Filled (history ++ [a]) machine token scope name since := by
      intro hbefore hquiet
      obtain ⟨scope, name, since, hfilled⟩ := ih hbefore
      exact ⟨scope, name, since ++ [a], hfilled.extend hquiet⟩
    cases turn (fits_after hfresh.fits history machine) a with
    | found hresolves _ _ hcache =>
      refine hextend (hcache ▸ h) fun hfills => ?_
      simpa using hresolves.1.symm.trans hfills.1
    | none hsettles _ hcache =>
      exact hextend (hcache ▸ h) fun hfills => hsettles (.inr ⟨token, hfills⟩)
    | @kept other c hfills hbefore hcache _ =>
      obtain rfl : a = _ := hfills.1
      by_cases hother : other = token
      · subst hother
        obtain ⟨scope, between, hpending⟩ := exists_pending hfresh hbefore
        exact ⟨scope, c.name, _, history, between, [], by simp, hpending, hfills,
          by simp [moments], rfl⟩
      · rw [hcache, ConstantCache.slot?_store_of_ne hother] at h
        refine hextend h fun hfills' => hother ?_
        simpa using hfills'.1

/-! ## Soundness -/

/-- **A serial that still counts has been followed by no definition.** -/
theorem no_definition_since {before : List Action}
    (hfew : history.countP Action.isDefinition < UInt64.size)
    (hhistory : history = before ++ .execute machine (.getConstant name) :: since)
    (hserial : (w.after before).table.serial = (w.after history).table.serial) :
    since.countP Action.isDefinition = 0 ∧
      (w.after history).table = (w.after before).table := by
  have hcount : (Action.execute machine (.getConstant name) :: since).countP Action.isDefinition
      = since.countP Action.isDefinition := List.countP_cons_of_neg (by simp [Action.isDefinition])
  subst hhistory
  rw [after_append] at hserial ⊢
  rw [List.countP_append] at hfew
  have hzero := count_eq_zero_of_serial (by omega) hserial.symm
  exact ⟨hcount ▸ hzero, table_after hzero⟩

/-- A constant that was looked up before a definition has a serial that no longer counts. -/
theorem stale_of_definition {before : List Action}
    (hfew : history.countP Action.isDefinition < UInt64.size)
    (hhistory : history = before ++ .execute machine (.getConstant name) :: since)
    (hdefined : ∃ a ∈ since, a.isDefinition = true) :
    (w.after before).table.serial ≠ (w.after history).table.serial := by
  intro hserial
  obtain ⟨a, ha, hdefines⟩ := hdefined
  exact List.countP_eq_zero.1 (no_definition_since hfew hhistory hserial).1 a ha hdefines

/-- **A cache slot that counts holds what a look-up finds now.** In a world whose machines start as
they were created, and over a history of fewer definitions than there are words: if the cache of a
machine answers for a token under the present serial, then the last time that the slot was filled it
was filled from a look-up of some name in some scope, and the class table resolves that name in that
scope to the answer. And a constant that was looked up before a definition, be it kept in a slot or
still pending, does not count after it. -/
theorem cache_sound (hfresh : w.Fresh) (hfew : history.countP Action.isDefinition < UInt64.size)
    (machine : Nat) (token : UInt32) :
    (∀ v, ((w.after history).machines machine).cache.lookup? token
        (w.after history).table.serial = some v →
      ∃ scope name since, w.Filled history machine token scope name since ∧
        (w.after history).table.resolve scope name = .ok v) ∧
    (∀ scope name since, w.Filled history machine token scope name since →
      (∃ a ∈ since, a.isDefinition = true) →
      ((w.after history).machines machine).cache.lookup? token
        (w.after history).table.serial = none) ∧
    ∀ scope name since, w.Pending history machine scope name since →
      (∃ a ∈ since, a.isDefinition = true) →
      ∀ c, ((w.after history).machines machine).pending = some c →
        c.serial ≠ (w.after history).table.serial := by
  refine ⟨fun v hhit => ?_, fun scope name since hfilled hdefined => ?_,
    fun scope name since hpending hdefined c hc hserial => ?_⟩
  · unfold ConstantCache.lookup? at hhit
    split at hhit
    · rename_i slot hslot
      split at hhit
      · rename_i hvalid
        obtain ⟨scope, name, since, hfilled⟩ := exists_filled hfresh hslot
        obtain ⟨before, value, hhistory, hresolve, hslot'⟩ := slot_eq hfresh.fits hfilled
        obtain rfl := Option.some.inj (hslot.symm.trans hslot')
        obtain rfl : value = v := by simpa using hhit
        have hserial : (w.after before).table.serial = (w.after history).table.serial := by
          simpa [CacheSlot.isValid] using hvalid
        rw [(no_definition_since hfew hhistory hserial).2]
        exact ⟨scope, name, since, hfilled, hresolve⟩
      · cases hhit
    · cases hhit
  · obtain ⟨before, value, hhistory, -, hslot⟩ := slot_eq hfresh.fits hfilled
    have hstale : (w.after before).table.serial ≠ (w.after history).table.serial :=
      stale_of_definition hfew hhistory hdefined
    simp [ConstantCache.lookup?, hslot, CacheSlot.isValid, hstale]
  · obtain ⟨before, value, hhistory, -, hpending'⟩ := pending_eq hfresh.fits hpending
    obtain rfl := Option.some.inj (hc.symm.trans hpending')
    exact stale_of_definition hfew hhistory hdefined hserial

/-! ## A world at work -/

/-- The core classes, and machines with caching. -/
def start : World where
  table := .core
  machines k := .create k { inlineCaching := true }

/-- A constant is defined, and a machine looks it up. -/
def lookingUp : List Action :=
  [.define (.ofGlobal "A" .nil), .execute 0 (.putObject .nil), .execute 0 .putOne,
   .execute 0 (.getConstant "A")]

/-- The machine then fills a slot. -/
def filling : List Action := lookingUp ++ [.execute 0 (.setInlineCache 7)]

theorem start_fresh : start.Fresh := fun k => ⟨k, { inlineCaching := true }, none, rfl⟩

/-- The machine that has looked the constant up. -/
theorem machine_lookingUp :
    (start.after lookingUp).machines 0 =
      { Machine.create 0 { inlineCaching := true } with
        stack := ⟨#[.nil], 65536⟩, pending := some ⟨"A", .nil, 1⟩, stepCount := 3 } := by
  have hresolve : (ClassTable.core.define (.ofGlobal "A" .nil)).environment.resolve .nil "A" =
      .ok .nil := by
    simp [ClassTable.define, ClassTable.defineGlobal, ClassTable.defineConstant, ClassTable.resolve,
      ClassTable.environment, ClassTable.searchPath?, ClassTable.own?]
  have hlookup : Machine.lookup (ClassTable.core.define (.ofGlobal "A" .nil)).environment "A" .nil
      (.integer 1) = .ok .nil := by
    rw [Machine.lookup, if_neg (by decide), hresolve]
  -- Only the look-up in the table does not compute.
  change Outcome.machine (Machine.resolveConstant _
    (ClassTable.core.define (.ofGlobal "A" .nil)).environment "A" .nil (.integer 1)) = _
  rw [Machine.resolveConstant_eq, hlookup]
  rfl

/-- The slot that it has filled answers. -/
theorem lookup_filling :
    ((start.after filling).machines 0).cache.lookup? 7 (start.after filling).table.serial =
      some .nil := by
  have hcache : ((start.after filling).machines 0).cache = ({} : ConstantCache).store 7 .nil 1 := by
    rw [filling, after_append, after_cons, after_nil, machines_step_self, outcome,
      machine_lookingUp]
    rfl
  have hserial : (start.after filling).table.serial = 1 := rfl
  rw [hcache, hserial, ConstantCache.lookup?, ConstantCache.slot?_store_self]
  rfl

/-- The slot holds what a look-up finds, until the next definition; and so it is with a constant
that is still pending then. -/
theorem cache_sound_filling :
    (∃ scope name since, start.Filled filling 0 7 scope name since ∧
      (start.after filling).table.resolve scope name = .ok .nil) ∧
    ((start.after (filling ++ [.define (.ofGlobal "B" .nil)])).machines 0).cache.lookup? 7
      (start.after (filling ++ [.define (.ofGlobal "B" .nil)])).table.serial = none ∧
    (1 : UInt64) ≠ (start.after (lookingUp ++ [.define (.ofGlobal "B" .nil)])).table.serial := by
  have hquiet : ∀ w : World, ¬ Moment.Settles ⟨w, .define (.ofGlobal "B" .nil)⟩ 0 :=
    fun w => not_settles_of_ne (by simp)
  have hnow := (@cache_sound _ filling start_fresh (by decide) 0 7).1 _ lookup_filling
  refine ⟨hnow, ?_, ?_⟩
  · obtain ⟨scope, name, since, hfilled, -⟩ := hnow
    exact (cache_sound start_fresh (by decide) 0 7).2.1 _ _ _
      (hfilled.extend fun hfills => hquiet _ (.inr ⟨7, hfills⟩))
      ⟨.define (.ofGlobal "B" .nil), by simp, rfl⟩
  · have hpending : ((start.after lookingUp).machines 0).pending = some ⟨"A", .nil, 1⟩ := by
      rw [machine_lookingUp]
    obtain ⟨scope, since, hfound⟩ := exists_pending start_fresh hpending
    refine (cache_sound start_fresh (by decide) 0 7).2.2 _ _ _ (hfound.extend (hquiet _))
      ⟨.define (.ofGlobal "B" .nil), by simp, rfl⟩ ⟨"A", .nil, 1⟩ ?_
    rw [after_append, after_cons, after_nil]
    exact hpending

end World

end StackVm
