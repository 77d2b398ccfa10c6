import StackVm.Proofs.CacheSoundness
/-!
# Cache writes are the finalised look-ups

A constant gets into the cache in two steps: a look-up notes it as pending, and the instruction that
finalises the look-up keeps it in a slot. `Machine.cacheLog` lists the look-ups that succeeded and
the finalisations among the calls on a machine, and `CacheLog.stores` reads off it what should have
been stored: a finalisation stores the last look-up since the one before it, if there is one. Each
call moves the cache and the pending constant by what it adds to the log (`cacheStep`), so after any
calls the cache is made by the stores of the log alone (`cache_after`).
-/

namespace StackVm

/-! ## The log -/

/-- What a call on a machine can mean to its cache. -/
inductive CacheEvent where
  /-- A look-up succeeded. -/
  | found (c : FoundConstant)
  /-- A look-up is finalised with the slot of a token. -/
  | finalised (token : UInt32)

/-- Whether a look-up succeeded. -/
def CacheEvent.isFound : CacheEvent → Bool
  | .found _ => true
  | .finalised _ => false

/-- What calls meant to the cache, the oldest first. -/
abbrev CacheLog := List CacheEvent

namespace CacheLog

/-- What a log stores, in order: the token and the constant. The log has nothing but look-ups and
finalisations, so the most recent look-up since the previous finalisation is the event right before
this one, if that is a look-up. -/
def stores : CacheLog → List (UInt32 × FoundConstant)
  | .found c :: .finalised token :: rest => (token, c) :: stores rest
  | _ :: rest => stores rest
  | [] => []

/-- The most recent look-up, if no finalisation has followed it. -/
def latest? (log : CacheLog) : Option FoundConstant :=
  match log.getLast? with
  | some (.found c) => some c
  | _ => none

/-- The cache with a constant kept in the slot of a token. -/
def keep (cache : ConstantCache) (entry : UInt32 × FoundConstant) : ConstantCache :=
  cache.store entry.1 entry.2.value entry.2.serial

variable {log : CacheLog} {c : FoundConstant} {token : UInt32}

/-- A look-up is superseded by the next. -/
theorem stores_append_found (earlier : Option FoundConstant) :
    stores ((earlier.map .found).toList ++ .found c :: log) = stores (.found c :: log) := by
  cases earlier <;> rfl

/-- A finalisation stores what is pending. -/
theorem stores_append_finalised (earlier : Option FoundConstant) :
    stores ((earlier.map .found).toList ++ .finalised token :: log) =
      (earlier.map (token, ·)).toList ++ stores log := by
  cases earlier <;> rfl

/-- What stands before the end of a log does not matter to what is pending. -/
theorem latest?_append {before : CacheLog} (h : log ≠ []) :
    latest? (before ++ log) = latest? log := by
  rw [latest?, latest?, List.getLast?_append_of_ne_nil before h]

/-- A finalisation leaves nothing pending. -/
theorem latest?_finalised : latest? (.finalised token :: log) = latest? log := by
  cases log with
  | nil => rfl
  | cons event rest => rw [latest?, latest?, List.getLast?_cons_cons]

/-- **Every store takes a look-up of its own.** -/
theorem length_stores_le (log : CacheLog) : log.stores.length ≤ log.countP CacheEvent.isFound := by
  fun_induction stores log with
  | case1 c token rest ih =>
    simp only [List.length_cons, List.countP_cons, CacheEvent.isFound, ↓reduceIte]
    omega
  | case2 event rest _ ih =>
    exact Nat.le_trans ih (List.sublist_cons_self event rest).countP_le
  | case3 => exact Nat.zero_le _

/-- Every store counts. -/
theorem fillCount_foldl_keep (cache : ConstantCache) (entries : List (UInt32 × FoundConstant)) :
    (entries.foldl keep cache).fillCount = cache.fillCount + .ofNat entries.length := by
  induction entries generalizing cache with
  | nil => exact (UInt64.add_zero _).symm
  | cons entry entries ih =>
    rw [List.foldl_cons, ih, List.length_cons, UInt64.ofNat_add, UInt64.add_comm (.ofNat _),
      ← UInt64.add_assoc]
    rfl

end CacheLog

/-- An instruction for a machine to execute, and the environment that it finds. -/
structure Call where
  /-- The environment. -/
  env : Environment
  /-- The instruction. -/
  instruction : Instruction

namespace Machine

variable {m n : Machine} {calls : List Call}

instance (m : Machine) : Decidable m.MayStep :=
  match h : m.options.maxSteps with
  | none => .isTrue (by simp [MayStep, h])
  | some limit => decidable_of_iff (m.steps < limit.toNat) (by simp [MayStep, h])

/-- The machine after a call, which may have failed. -/
def next (m : Machine) (call : Call) : Machine := (m.execute call.env call.instruction).machine

/-- The machine after calls, the first call first. -/
def after (m : Machine) (calls : List Call) : Machine := calls.foldl next m

/-- What a call means to the cache. A look-up counts if it succeeds, with the value that it leaves
on top of the stack and the serial that it found; a finalisation counts if its step is granted. -/
def noted? (m : Machine) (call : Call) : Option CacheEvent :=
  match call.instruction with
  | .getConstant name =>
    match (m.execute call.env call.instruction).result with
    | .ok _ => some (.found ⟨name, (m.next call).stack.toList.getLastD .nil, call.env.serial⟩)
    | .error _ => none
  | .setInlineCache token => if m.MayStep then some (.finalised token) else none
  | _ => none

/-- What calls mean to the cache. -/
def cacheLog (m : Machine) : List Call → CacheLog
  | [] => []
  | call :: rest => (m.noted? call).toList ++ (m.next call).cacheLog rest

theorem cacheLog_concat (m : Machine) (calls : List Call) (call : Call) :
    m.cacheLog (calls ++ [call]) = m.cacheLog calls ++ ((m.after calls).noted? call).toList := by
  induction calls generalizing m with
  | nil => simp [cacheLog, after]
  | cons first calls ih =>
    rw [List.cons_append, cacheLog, cacheLog, ih, List.append_assoc]
    rfl

/-- What each call keeps, calls keep. -/
theorem after_keeps {P : Machine → Prop} (hstep : ∀ m env i, P m → P (m.execute env i).machine)
    (hstart : P m) : P (m.after calls) := by
  induction calls generalizing m with
  | nil => exact hstart
  | cons call calls ih => exact ih (hstep m call.env call.instruction hstart)

/-! ## One call -/

/-- How the cache and the pending constant of a machine that fills slots move with an event. -/
inductive CacheStep (m n : Machine) : Option CacheEvent → Prop
  /-- Neither moves without an event. -/
  | quiet (hpending : n.pending = m.pending) (hcache : n.cache = m.cache) : CacheStep m n none
  /-- A look-up that succeeded is pending. -/
  | found {c : FoundConstant} (hpending : n.pending = some c) (hcache : n.cache = m.cache) :
      CacheStep m n (some (.found c))
  /-- A finalisation keeps what is pending, if anything is. -/
  | finalised {token : UInt32} (hpending : n.pending = none)
      (hcache : n.cache = (m.pending.map (token, ·)).toList.foldl CacheLog.keep m.cache) :
      CacheStep m n (some (.finalised token))

/-- A look-up that succeeds is pending, and one that fails moves nothing. Above the limit of the
stack this would be wrong: there a constant can be found without room for its value. -/
theorem cacheStep_lookup (hfits : m.Fits) (env : Environment) (name : String) :
    m.CacheStep (m.next ⟨env, .getConstant name⟩) (m.noted? ⟨env, .getConstant name⟩) := by
  have hrule := executes_execute m env (.getConstant name)
  simp only [noted?, next]
  generalize m.execute env (.getConstant name) = o at hrule ⊢
  cases hrule with
  | refused => exact .quiet rfl rfl
  | granted _ hrun =>
    cases hrun with
    | push hi _ | pushFull hi _ => cases hi
    | found =>
      simp only [Stack.toList_put, List.getLastD_concat]
      exact .found rfl rfl
    | foundFull hstack _ hfull =>
      have hdepth : m.stack.depth = _ := depth_of_pair hstack
      have hroom : m.stack.depth ≤ m.stack.limit.toNat := hfits
      have hlimit : m.stack.limit.toNat ≤ _ := hfull
      omega
    | missing | operandsMissing => exact .quiet rfl rfl

/-- A finalisation that is granted its step keeps what is pending in its slot, and leaves nothing
pending. -/
theorem cacheStep_finalisation (hcaching : m.options.inlineCaching = true) (env : Environment)
    (token : UInt32) :
    m.CacheStep (m.next ⟨env, .setInlineCache token⟩) (m.noted? ⟨env, .setInlineCache token⟩) := by
  have hrule := executes_execute m env (.setInlineCache token)
  simp only [noted?, next]
  generalize m.execute env (.setInlineCache token) = o at hrule ⊢
  cases hrule with
  | refused hlimit hspent =>
    rw [if_neg fun hstep => Nat.not_lt.2 hspent (hstep _ hlimit)]
    exact .quiet rfl rfl
  | granted hstep hrun =>
    rw [if_pos hstep]
    cases hrun with
    | push hi _ | pushFull hi _ => cases hi
    | @kept _ c _ hpending =>
      have hbefore : m.pending = some c := hpending
      refine .finalised rfl ?_
      rw [hbefore]
      rfl
    | notKept h =>
      have hbefore : m.pending = none := h hcaching
      refine .finalised hbefore ?_
      rw [hbefore]
      rfl

/-- **A call moves the cache and the pending constant by what is noted of it.** -/
theorem cacheStep (hfits : m.Fits) (hcaching : m.options.inlineCaching = true) (call : Call) :
    m.CacheStep (m.next call) (m.noted? call) := by
  obtain ⟨env, i⟩ := call
  cases i with
  | getConstant name => exact cacheStep_lookup hfits env name
  | setInlineCache token => exact cacheStep_finalisation hcaching env token
  | newHash | nop | putObject | putOne | setN =>
    cases (executes_execute m env _).cacheChange hfits with
    | none _ hpending hcache => exact .quiet hpending hcache

/-! ## Any calls -/

/-- The look-up that is pending, as the end of a log. -/
def owed (m : Machine) : CacheLog := (m.pending.map .found).toList

theorem latest?_owed (m : Machine) : m.owed.latest? = m.pending := by
  cases h : m.pending <;> simp [owed, h, CacheLog.latest?]

/-- What an event does to the cache and the pending constant, it does as a part of the log. -/
theorem CacheStep.owed_append {event : Option CacheEvent} (h : m.CacheStep n event)
    (rest : CacheLog) :
    (n.owed ++ rest).stores.foldl CacheLog.keep n.cache =
        (m.owed ++ (event.toList ++ rest)).stores.foldl CacheLog.keep m.cache ∧
      (n.owed ++ rest).latest? = (m.owed ++ (event.toList ++ rest)).latest? := by
  cases h with
  | quiet hpending hcache =>
    have howed : n.owed = m.owed := by rw [owed, owed, hpending]
    rw [howed, hcache]
    exact ⟨rfl, rfl⟩
  | @found c hpending hcache =>
    have howed : n.owed = [.found c] := by rw [owed, hpending]; rfl
    rw [howed, hcache]
    constructor
    · exact congrArg (List.foldl _ _) (CacheLog.stores_append_found m.pending).symm
    · exact (CacheLog.latest?_append (List.cons_ne_nil _ rest)).symm
  | @finalised token hpending hcache =>
    have howed : n.owed = [] := by rw [owed, hpending]; rfl
    rw [howed, hcache, List.nil_append]
    constructor
    · rw [← List.foldl_append]
      exact congrArg (List.foldl _ _) (CacheLog.stores_append_finalised m.pending).symm
    · exact ((CacheLog.latest?_append (List.cons_ne_nil _ rest)).trans
        CacheLog.latest?_finalised).symm

/-- **After any calls the cache is made by the stores of the log**, and the constant that is pending
is the one that the log ends in. The look-up that is pending at the start counts as the first. -/
theorem cache_after (hfits : m.Fits) (hcaching : m.options.inlineCaching = true)
    (calls : List Call) :
    (m.after calls).cache = (m.owed ++ m.cacheLog calls).stores.foldl CacheLog.keep m.cache ∧
      (m.after calls).pending = (m.owed ++ m.cacheLog calls).latest? := by
  induction calls generalizing m with
  | nil =>
    rw [cacheLog, List.append_nil, latest?_owed]
    refine ⟨?_, rfl⟩
    cases h : m.pending <;> simp [owed, h, CacheLog.stores, after]
  | cons call calls ih =>
    have hrule := executes_execute m call.env call.instruction
    obtain ⟨hcache, hpending⟩ := ih (m := m.next call) (hrule.fits hfits)
      (hrule.frame.1 ▸ hcaching)
    obtain ⟨hstores, hlatest⟩ := (cacheStep hfits hcaching call).owed_append
      ((m.next call).cacheLog calls)
    exact ⟨hcache.trans hstores, hpending.trans hlatest⟩

/-- Calls keep the stack within its limit, and the options. -/
theorem after_frame (hfits : m.Fits) (calls : List Call) :
    (m.after calls).Fits ∧ (m.after calls).options = m.options :=
  after_keeps (P := fun n => n.Fits ∧ n.options = m.options)
    (fun n env i h =>
      ⟨(executes_execute n env i).fits h.1, (executes_execute n env i).frame.1.trans h.2⟩)
    ⟨hfits, rfl⟩

/-- A look-up that fails is not noted, and moves nothing. -/
theorem quiet_of_error {env : Environment} {name : String} {fault : Fault} (hfits : m.Fits)
    (hfault : (m.execute env (.getConstant name)).result = .error fault) :
    m.noted? ⟨env, .getConstant name⟩ = none ∧
      (m.execute env (.getConstant name)).machine.cache = m.cache ∧
      (m.execute env (.getConstant name)).machine.pending = m.pending := by
  have hnoted : m.noted? ⟨env, .getConstant name⟩ = none := by
    simp only [noted?, hfault]
  have hstep := cacheStep_lookup hfits env name
  rw [hnoted] at hstep
  cases hstep with
  | quiet hpending hcache => exact ⟨hnoted, hcache, hpending⟩

/-- Without caching, a cache that is empty stays so. -/
theorem empty_of_off (m : Machine) (env : Environment) (i : Instruction)
    (h : m.cache = {} ∧ m.options.inlineCaching = false) :
    (m.execute env i).machine.cache = {} ∧
      (m.execute env i).machine.options.inlineCaching = false := by
  have hrule := executes_execute m env i
  refine ⟨?_, hrule.frame.1 ▸ h.2⟩
  generalize m.execute env i = o at hrule ⊢
  cases hrule with
  | refused => exact h.1
  | granted _ hrun =>
    cases hrun with
    | kept hon => exact absurd (h.2.symm.trans hon) Bool.false_ne_true
    | _ => exact h.1

/-- **The cache is written by finalisations alone.** The calls may succeed or fail, each under an
environment of its own. With caching, what they stored is what their log stores, in that order; so
there are as many fills as stores, as far as a word counts, and no more than look-ups that
succeeded, and the pending constant is the last look-up unless a finalisation has followed it. A
look-up that fails then changes none of it. Without caching, the cache stays empty, over calls and
over runs. -/
theorem cache_by_finalisations (id : Nat) (options : Options) (observer : Option String)
    (calls : List Call) :
    let start : Machine := { create id options with observer }
    let m := start.after calls
    let log := start.cacheLog calls
    (options.inlineCaching = true →
      m.cache = log.stores.foldl CacheLog.keep {} ∧
        m.cache.fills = log.stores.length % UInt64.size ∧
        log.stores.length ≤ log.countP CacheEvent.isFound ∧
        m.cache.fills ≤ log.countP CacheEvent.isFound ∧
        m.pending = log.latest? ∧
        ∀ env name fault, (m.execute env (.getConstant name)).result = .error fault →
          (m.execute env (.getConstant name)).machine.cache = m.cache ∧
            (m.execute env (.getConstant name)).machine.pending = m.pending ∧
            start.cacheLog (calls ++ [⟨env, .getConstant name⟩]) = log) ∧
      (options.inlineCaching = false →
        m.cache = {} ∧ ∀ envs code, (m.runUnder envs code).machine.cache = {}) := by
  intro start m log
  have hstart : start.Fits := Nat.zero_le _
  obtain ⟨hfits, hoptions⟩ := after_frame hstart calls
  constructor
  · intro hcaching
    obtain ⟨hcache, hpending⟩ := cache_after hstart hcaching calls
    have hfills : m.cache.fills = log.stores.length % UInt64.size := by
      refine ConstantCache.fills_of_fillCount ?_
      rw [hcache, CacheLog.fillCount_foldl_keep]
      rfl
    have hfew : m.cache.fills ≤ log.countP CacheEvent.isFound := by
      rw [hfills]
      exact Nat.le_trans (Nat.mod_le _ _) log.length_stores_le
    refine ⟨hcache, hfills, log.length_stores_le, hfew, hpending, ?_⟩
    intro env name fault hfault
    obtain ⟨hnoted, hkept, hpending'⟩ := quiet_of_error hfits hfault
    refine ⟨hkept, hpending', ?_⟩
    rw [cacheLog_concat, hnoted]
    exact List.append_nil log
  · intro hcaching
    have hcalls : m.cache = {} ∧ m.options.inlineCaching = false :=
      after_keeps empty_of_off ⟨rfl, hcaching⟩
    exact ⟨hcalls.1, fun envs code => (run_keeps empty_of_off hcalls).1⟩

/-- Calls before and after a definition. A look-up is finalised twice, then two look-ups and one
that fails are finalised once. -/
def keeping : List Call :=
  let early : Environment := { Environment.flat [("A", .integer 10)] with serial := 4 }
  let late : Environment :=
    { Environment.flat [("A", .integer 10), ("B", .integer 20)] with serial := 5 }
  [⟨early, .putObject .nil⟩, ⟨early, .putOne⟩, ⟨early, .getConstant "A"⟩,
   ⟨late, .setInlineCache 7⟩, ⟨late, .setInlineCache 8⟩,
   ⟨late, .putObject .nil⟩, ⟨late, .putOne⟩, ⟨late, .getConstant "A"⟩,
   ⟨late, .putObject .nil⟩, ⟨late, .putOne⟩, ⟨late, .getConstant "B"⟩,
   ⟨late, .getConstant "C"⟩, ⟨late, .setInlineCache 9⟩]

/-- Three look-ups make two stores, and none without caching. -/
theorem cache_by_finalisations_twice :
    ((create 0 { inlineCaching := true }).after keeping).cache =
        (({} : ConstantCache).store 7 (.integer 10) 4).store 9 (.integer 20) 5 ∧
      ((create 0 { inlineCaching := true }).after keeping).cache.fills = 2 ∧
      ((create 0 { inlineCaching := true }).cacheLog keeping).countP CacheEvent.isFound = 3 ∧
      ((create 0 {}).after keeping).cache = {} := by
  obtain ⟨hcache, hfills, -⟩ :=
    (cache_by_finalisations 0 { inlineCaching := true } none keeping).1 rfl
  exact ⟨hcache, hfills, rfl, ((cache_by_finalisations 0 {} none keeping).2 rfl).1⟩

end Machine

end StackVm
