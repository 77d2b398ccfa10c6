import StackVm.Proofs.Sessions
/-!
# The laws of the operand stack

Depths are counted from the top and values are kept from the bottom up. Seen from the top down
(`Stack.fromTop`) a push is a `cons`, taking values drops them from the front and replacing one
replaces it at its depth, so that the laws between operations become facts about lists. They hold of
every stack that operations lead to from an empty one. These are carried out in place
(`InPlace.act`), with checks and changes in their order: an operation that fails keeps whatever it
has changed by then, which is nothing (`run_act`).
-/

namespace StackVm

/-! ## Operations in place -/

/-- Something that is done to a stack in place. A failure does not undo what was done before it. -/
abbrev InPlace := EStateM Fault Stack

namespace InPlace

/-- Asks something of the stack as it is. A fault ends the operation. -/
def ask {α : Type} (question : Stack → Except Fault α) : InPlace α := fun s =>
  match question s with
  | .ok a => .ok a s
  | .error fault => .error fault s

/-- An operation in place. It answers with the values that it takes or reads, the lowest first. The
top is read as the value at depth zero. -/
def act : Stack.Operation → InPlace (List Value)
  | .push v => do
    ask Stack.checkRoom
    modify (·.put v)
    return []
  | .pop => do
    let top := (← get).slots.back?
    modify (·.drop 1)
    match top with
    | some v => return [v]
    | none => throw (.stackUnderflow 1 0)
  | .popMany count => do
    ask (·.checkDepth count)
    let taken := (← get).top count.toNat
    modify (·.drop count.toNat)
    return taken
  | .get depth => do
    let v ← ask (·.get depth)
    return [v]
  | .set depth v => do
    let s ← get
    unless depth.toNat < s.depth do throw (s.missingAt depth)
    set (s.replace depth.toNat v)
    return []
  | .checkRoom => do
    ask Stack.checkRoom
    return []
  | .clear => do
    modify (·.clear)
    return []

/-- What is asked either ends the operation or lets it go on with the same stack. -/
theorem run_ask_bind {α β : Type} (question : Stack → Except Fault α) (rest : α → InPlace β)
    (s : Stack) :
    (ask question >>= rest).run s =
      match question s with
      | .ok a => (rest a).run s
      | .error fault => .error fault s := by
  rw [EStateM.run_bind, EStateM.run, ask]
  cases question s <;> rfl

end InPlace

namespace Stack

open InPlace (act)

variable {s t : Stack} {v : Value} {vs : List Value} {op : Operation}

/-- What an operation answers and the stack that it gives, if it succeeds. -/
def operate (s : Stack) : Operation → Except Fault (List Value × Stack)
  | .push v => (s.push v).map ([], ·)
  | .pop => s.pop.map fun (v, t) => ([v], t)
  | .popMany count => s.popMany count
  | .get depth => (s.get depth).map ([·], s)
  | .set depth v => (s.set depth v).map ([], ·)
  | .checkRoom => s.checkRoom.map fun _ => ([], s)
  | .clear => .ok ([], s.clear)

/-- **An operation in place succeeds and fails as the operation does**, and where it fails the stack
is the one before. -/
theorem run_act (s : Stack) (op : Operation) :
    (act op).run s =
      match s.operate op with
      | .ok (answer, t) => .ok answer t
      | .error fault => .error fault s := by
  cases op with
  | push v =>
    rw [act, InPlace.run_ask_bind, operate, push]
    cases s.checkRoom <;> rfl
  | pop =>
    rw [act, EStateM.run_bind, EStateM.run_get, operate, pop]
    cases htop : s.slots.back? with
    | none =>
      -- The change comes before the fault here, and changes nothing.
      simp only [htop]
      exact congrArg (EStateM.Result.error _) (drop_of_back?_eq_none htop)
    | some v =>
      simp only [htop]
      rfl
  | popMany count =>
    rw [act, InPlace.run_ask_bind, operate, popMany]
    cases s.checkDepth count <;> rfl
  | get depth =>
    rw [act, InPlace.run_ask_bind, operate]
    cases s.get depth <;> rfl
  | set depth v =>
    rw [act, operate, set]
    by_cases hinside : depth.toNat < s.depth
    · rw [if_pos hinside, EStateM.run_bind, EStateM.run_get]
      simp only [hinside]
      rfl
    · rw [if_neg hinside, EStateM.run_bind, EStateM.run_get]
      simp only [hinside]
      rfl
  | checkRoom =>
    rw [act, InPlace.run_ask_bind, operate]
    cases s.checkRoom <;> rfl
  | clear => rfl

/-- So it fails where the operation does, and leaves the stack as it was. -/
theorem run_act_eq_error_iff {fault : Fault} :
    (act op).run s = .error fault t ↔ s.operate op = .error fault ∧ t = s := by
  rw [run_act]
  cases s.operate op with
  | ok => simp
  | error => simp [eq_comm]

/-- The stack that an operation in place leaves behind, whether it succeeds or fails. -/
def step (s : Stack) (op : Operation) : Stack :=
  match (act op).run s with
  | .ok _ t => t
  | .error _ t => t

/-- The stack after operations in place, the first one first. -/
def after (s : Stack) (ops : List Operation) : Stack := ops.foldl step s

theorem step_eq_apply (s : Stack) (op : Operation) : s.step op = s.apply op := by
  rw [step, run_act]
  cases op with
  | push v => rw [operate, apply]; cases s.push v <;> rfl
  | pop => rw [operate, apply]; cases s.pop <;> rfl
  | popMany count => rw [operate, apply]; cases s.popMany count <;> rfl
  | get depth => rw [operate, apply]; cases s.get depth <;> rfl
  | set depth v => rw [operate, apply]; cases s.set depth v <;> rfl
  | checkRoom => rw [operate, apply]; cases s.checkRoom <;> rfl
  | clear => rfl

/-- **Operations keep the limit of a stack, and the stack within it.** -/
theorem after_bounds (hfits : s.depth ≤ s.limit.toNat) (ops : List Operation) :
    (s.after ops).limit = s.limit ∧ (s.after ops).depth ≤ s.limit.toNat := by
  induction ops generalizing s with
  | nil => exact ⟨rfl, hfits⟩
  | cons op ops ih =>
    obtain ⟨hlimit, hdepth⟩ := s.apply_bounds op
    rw [← step_eq_apply] at hlimit hdepth
    have hfits' : (s.step op).depth ≤ (s.step op).limit.toNat := by
      rw [hlimit]
      omega
    rw [← hlimit]
    exact ih hfits'

/-! ## The view from the top -/

/-- The values, top first. -/
def fromTop (s : Stack) : List Value := s.toList.reverse

@[simp]
theorem length_fromTop (s : Stack) : s.fromTop.length = s.depth := by
  rw [fromTop, List.length_reverse, depth_eq_length]

theorem fromTop_put (s : Stack) (v : Value) : (s.put v).fromTop = v :: s.fromTop := by
  rw [fromTop, toList_put, List.reverse_append]
  rfl

theorem fromTop_drop (s : Stack) (count : Nat) :
    (s.drop count).fromTop = s.fromTop.drop count := by
  rw [fromTop, toList_drop, fromTop, List.drop_reverse, depth_eq_length]

theorem top_eq_reverse_take (s : Stack) (count : Nat) :
    s.top count = (s.fromTop.take count).reverse := by
  rw [top_eq_drop, fromTop, List.take_reverse, List.reverse_reverse, depth_eq_length]

theorem getElem?_fromTop {k : Nat} (h : k < s.depth) :
    s.fromTop[k]? = s.toList[s.depth - 1 - k]? := by
  rw [depth_eq_length] at h ⊢
  exact List.getElem?_reverse h

theorem fromTop_replace {depth : Nat} (h : depth < s.depth) :
    (s.replace depth v).fromTop = s.fromTop.set depth v := by
  refine List.ext_getElem? fun k => ?_
  by_cases hk : k < s.depth
  · have hplace : s.depth - 1 - depth = s.depth - 1 - k ↔ depth = k := by omega
    have hinside : s.depth - 1 - depth < s.depth := by omega
    rw [getElem?_fromTop (by rwa [depth_replace]), depth_replace, toList_replace,
      List.getElem?_set, List.getElem?_set, getElem?_fromTop hk, length_fromTop,
      ← depth_eq_length]
    simp only [hplace, hinside, h]
  · rw [List.getElem?_eq_none, List.getElem?_eq_none]
    · rw [List.length_set, length_fromTop]
      exact Nat.not_lt.1 hk
    · rw [length_fromTop, depth_replace]
      exact Nat.not_lt.1 hk

/-- A stack is its values and its limit, whichever way the values are read. -/
theorem ext_fromTop (hvalues : s.fromTop = t.fromTop) (hlimit : s.limit = t.limit) : s = t :=
  ext_toList (List.reverse_injective hvalues) hlimit

/-- Values can be taken in two goes. -/
theorem drop_drop (s : Stack) (first second : Nat) :
    (s.drop first).drop second = s.drop (first + second) :=
  ext_fromTop (by simp only [fromTop_drop, List.drop_drop]) rfl

/-- The value at a depth is found at that place from the top. -/
theorem get_eq (s : Stack) (depth : UInt64) :
    s.get depth = (s.fromTop[depth.toNat]?).elim (.error (s.missingAt depth)) .ok := by
  rw [get]
  split
  · rename_i hinside
    have hplace : s.slots.size - 1 - depth.toNat < s.slots.size := by omega
    have hvalue : s.fromTop[depth.toNat]? = some s.slots[s.slots.size - 1 - depth.toNat] := by
      rw [getElem?_fromTop hinside, toList, Array.getElem?_toList]
      exact Array.getElem?_eq_getElem hplace
    rw [hvalue]
    rfl
  · rename_i houtside
    rw [List.getElem?_eq_none (by rw [length_fromTop]; exact Nat.not_lt.1 houtside)]
    rfl

theorem pop_eq (s : Stack) :
    s.pop = s.fromTop.head?.elim (.error (.stackUnderflow 1 0)) fun v => .ok (v, s.drop 1) := by
  rw [fromTop, List.head?_reverse, toList, Array.getLast?_toList, pop]
  cases s.slots.back? <;> rfl

/-! ## Laws between operations -/

/-- Takes the top value a number of times. The values come in the order in which they are taken. -/
def popTimes (s : Stack) : Nat → Except Fault (List Value × Stack)
  | 0 => .ok ([], s)
  | count + 1 => do
    let (v, below) ← s.pop
    let (vs, rest) ← below.popTimes count
    return (v :: vs, rest)

/-- **Values are taken one by one as long as there are any**, from the top down. -/
theorem popTimes_eq (s : Stack) (count : Nat) :
    s.popTimes count =
      if s.depth < count then .error (.stackUnderflow 1 0)
      else .ok (s.fromTop.take count, s.drop count) := by
  induction count generalizing s with
  | zero => rw [if_neg (Nat.not_lt_zero _), drop_zero, List.take_zero, popTimes]
  | succ count ih =>
    have hlength := s.length_fromTop
    rw [popTimes, pop_eq]
    cases hvalues : s.fromTop with
    | nil =>
      rw [hvalues, List.length_nil] at hlength
      rw [if_pos (by omega)]
      rfl
    | cons v below =>
      have hbelow : (s.drop 1).fromTop = below := by rw [fromTop_drop, hvalues]; rfl
      rw [hvalues, List.length_cons] at hlength
      simp only [List.head?_cons, Option.elim_some, bind, Except.bind]
      rw [ih, depth_drop, hbelow, drop_drop, Nat.add_comm 1 count]
      by_cases hshort : s.depth < count + 1
      · rw [if_pos hshort, if_pos (by omega)]
      · rw [if_neg hshort, if_neg (by omega)]
        rfl

/-- **Taking a number of values is taking the top as often.** One succeeds where the other does and
both leave the same stack; the values come in opposite orders. -/
theorem popMany_eq_ok_iff (s : Stack) (count : UInt64) (vs : List Value) (t : Stack) :
    s.popMany count = .ok (vs, t) ↔ s.popTimes count.toNat = .ok (vs.reverse, t) := by
  rw [popMany_eq, popTimes_eq, top_eq_reverse_take]
  split
  · simp
  · simp [List.reverse_eq_iff]

/-- Values that fit are pushed one by one. -/
theorem foldlM_push (hroom : t.depth + vs.length ≤ t.limit.toNat)
    (hvalues : s.fromTop = vs.reverse ++ t.fromTop) (hlimit : s.limit = t.limit) :
    vs.foldlM push t = .ok s := by
  induction vs generalizing t with
  | nil => exact congrArg _ (ext_fromTop hvalues hlimit).symm
  | cons v vs ih =>
    rw [List.length_cons] at hroom
    rw [List.foldlM_cons, push_eq, if_pos (by omega)]
    refine ih ?_ ?_ hlimit
    · rw [depth_put]
      change _ ≤ t.limit.toNat
      omega
    · rw [hvalues, fromTop_put, List.reverse_cons, List.append_assoc]
      rfl

/-- **What was taken can be put back**, on a stack within its limit. -/
theorem foldlM_push_of_popMany {count : UInt64} (hfits : s.depth ≤ s.limit.toNat)
    (h : s.popMany count = .ok (vs, t)) : vs.foldlM push t = .ok s := by
  rw [popMany_eq] at h
  split at h
  · cases h
  · rename_i henough
    cases h
    refine foldlM_push ?_ ?_ rfl
    · rw [depth_drop, top_eq_reverse_take, List.length_reverse, List.length_take, length_fromTop]
      change _ ≤ s.limit.toNat
      omega
    · rw [top_eq_reverse_take, List.reverse_reverse, fromTop_drop, List.take_append_drop]

/-- **A value that replaces another is found in its place, and all others in theirs.** -/
theorem get_of_set {depth : UInt64} (h : s.set depth v = .ok t) :
    t.get depth = .ok v ∧ ∀ other, other ≠ depth → t.get other = s.get other := by
  rw [set] at h
  split at h
  · rename_i hinside
    cases h
    refine ⟨?_, fun other hother => ?_⟩
    · rw [get_eq, fromTop_replace hinside, List.getElem?_set_self (by rwa [length_fromTop])]
      rfl
    · have hplace : depth.toNat ≠ other.toNat := fun heq => hother (UInt64.toNat_inj.1 heq.symm)
      rw [get_eq, get_eq, fromTop_replace hinside, List.getElem?_set_ne hplace, missingAt,
        missingAt, depth_replace]
  · cases h

/-- The laws that a stack obeys which was made with a limit. -/
structure Lawful (limit : UInt64) (s : Stack) : Prop where
  /-- It holds no more values than it may. -/
  bounded : s.depth ≤ limit.toNat
  /-- An operation in place fails where the operation does, and then leaves it as it is. -/
  unharmed : ∀ op fault t, (act op).run s = .error fault t ↔ s.operate op = .error fault ∧ t = s
  /-- Taking a number of values succeeds where taking the top as often does. Then both leave the
  same stack, and the values come in opposite orders. -/
  popMany_iff : ∀ count vs t,
    s.popMany count = .ok (vs, t) ↔ s.popTimes count.toNat = .ok (vs.reverse, t)
  /-- Pushing what was taken, in the order in which it came, gives the stack back. -/
  restored : ∀ count vs t, s.popMany count = .ok (vs, t) → vs.foldlM push t = .ok s
  /-- A value that replaces another is found at its depth, -/
  replaced : ∀ depth v t, s.set depth v = .ok t → t.get depth = .ok v
  /-- and what was found at any other depth, be it a value or a fault, still is. -/
  others : ∀ depth v t, s.set depth v = .ok t → ∀ other, other ≠ depth → t.get other = s.get other

/-- **Whatever is done to a stack, it stays lawful.** -/
theorem lawful_after (limit : UInt64) (ops : List Operation) :
    Lawful limit ((empty limit).after ops) := by
  obtain ⟨hlimit, hdepth⟩ := @after_bounds (empty limit) (Nat.zero_le _) ops
  refine ⟨hdepth, fun _ _ _ => run_act_eq_error_iff, popMany_eq_ok_iff _, ?_, ?_, ?_⟩
  · intro count vs t htaken
    refine foldlM_push_of_popMany ?_ htaken
    rw [hlimit]
    exact hdepth
  · exact fun depth v t hset => (get_of_set hset).1
  · exact fun depth v t hset => (get_of_set hset).2

end Stack

end StackVm
