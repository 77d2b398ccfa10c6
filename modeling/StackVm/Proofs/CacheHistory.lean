import Mathlib.Data.Finset.Card
import Mathlib.Data.List.Induction
import StackVm.Proofs.CacheSoundness
/-!
# The cache by the history of its operations

A cache is stored to and cleared. A slot is what the latest operation that affected it has made of
it, be it a store to its token or a clearing (`slot?_after`), so that all a cache answers can be
read off its history. A slot that was cleared has the serial zero, which may well be the serial of
an environment; that it has no value keeps it from counting.
-/

namespace StackVm

namespace ConstantCache

/-- An operation that changes a cache. -/
inductive Operation where
  /-- Fills the slot of a token with a value found under a serial. -/
  | store (token : UInt32) (value : Value) (serial : UInt64)
  /-- Empties every slot. -/
  | clear

namespace Operation

/-- Whether the operation affects the slot of a token. -/
def affects (token : UInt32) : Operation → Bool
  | .store other _ _ => other == token
  | .clear => true

/-- The token that is stored to, if one is. -/
def token? : Operation → Option UInt32
  | .store token _ _ => some token
  | .clear => none

end Operation

/-- The cache after an operation. -/
def apply (cache : ConstantCache) : Operation → ConstantCache
  | .store token value serial => cache.store token value serial
  | .clear => cache.clear

/-- The cache after operations, the first one first. -/
def after (cache : ConstantCache) (history : List Operation) : ConstantCache :=
  history.foldl apply cache

variable {cache : ConstantCache} {tokens : List UInt32} {history : List Operation}
variable {token : UInt32} {value : Value} {serial : UInt64}

theorem after_append (cache : ConstantCache) (history more : List Operation) :
    cache.after (history ++ more) = (cache.after history).after more :=
  List.foldl_append

/-! ## What a history says -/

/-- In a history, the slot of a token was filled with a value under a serial, and since then neither
filled again nor emptied. -/
def Stored (history : List Operation) (token : UInt32) (value : Value) (serial : UInt64) : Prop :=
  ∃ before since, history = before ++ .store token value serial :: since ∧
    ∀ op ∈ since, ¬op.affects token

/-- The tokens that have slots: those that the cache was made with and those that were stored to. -/
def known (tokens : List UInt32) (history : List Operation) : List UInt32 :=
  tokens ++ history.filterMap Operation.token?

/-- The latest operation of a history that affected the slot of a token. -/
def latest? (token : UInt32) (history : List Operation) : Option Operation :=
  history.reverse.find? (·.affects token)

/-- What an operation leaves in the slots that it affects, or what is in a slot without any. -/
def content : Option Operation → CacheSlot
  | some (.store _ value serial) => { value := some value, serial }
  | some .clear | none => {}

/-- The latest operation is the one before it, unless it affects the slot itself. -/
theorem latest?_concat (token : UInt32) (history : List Operation) (op : Operation) :
    latest? token (history ++ [op]) =
      if op.affects token then some op else latest? token history := by
  rw [latest?, List.reverse_concat, List.find?_cons]
  cases op.affects token <;> rfl

theorem stored_iff :
    Stored history token value serial ↔
      latest? token history = some (.store token value serial) := by
  rw [latest?, find?_reverse_eq_some_iff]
  exact (and_iff_right (beq_self_eq_true token)).symm

theorem mem_known_iff :
    token ∈ known tokens history ↔
      token ∈ tokens ∨ ∃ value serial, .store token value serial ∈ history := by
  rw [known, List.mem_append, List.mem_filterMap]
  refine or_congr_right ⟨?_, ?_⟩
  · rintro ⟨op, hmem, htoken⟩
    cases op with
    | store other value serial =>
      obtain rfl : other = token := by simpa [Operation.token?] using htoken
      exact ⟨value, serial, hmem⟩
    | clear => cases htoken
  · rintro ⟨value, serial, hmem⟩
    exact ⟨_, hmem, rfl⟩

theorem known_append (tokens : List UInt32) (history more : List Operation) :
    known tokens (history ++ more) = known tokens history ++ more.filterMap Operation.token? := by
  rw [known, List.filterMap_append, ← List.append_assoc, known]

theorem mem_known_concat {op : Operation} :
    token ∈ known tokens (history ++ [op]) ↔
      token ∈ known tokens history ∨ op.token? = some token := by
  simp only [known_append, List.mem_append, List.mem_filterMap, List.mem_singleton, exists_eq_left]

/-- A slot has a value if the latest that happened to it was a store, and then it has what was
stored. -/
theorem content_latest?_eq_iff :
    content (latest? token history) = { value := some value, serial } ↔
      Stored history token value serial := by
  rw [stored_iff]
  constructor
  · intro hcontent
    cases hlatest : latest? token history with
    | none => simp [hlatest, content] at hcontent
    | some op =>
      cases op with
      | clear => simp [hlatest, content] at hcontent
      | store other v s =>
        obtain ⟨rfl, rfl⟩ : v = value ∧ s = serial := by simpa [hlatest, content] using hcontent
        have htoken : other = token := by
          simpa [Operation.affects] using List.find?_some hlatest
        rw [htoken]
  · intro hlatest
    rw [hlatest, content]

/-- Without a store that still stands a slot is empty. -/
theorem content_latest?_of_not_stored (h : ∀ value serial, ¬Stored history token value serial) :
    content (latest? token history) = {} := by
  cases hlatest : latest? token history with
  | none => rfl
  | some op =>
    cases op with
    | clear => rfl
    | store other value serial =>
      have hcontent : content (latest? token history) = { value := some value, serial } := by
        rw [hlatest, content]
      exact absurd (content_latest?_eq_iff.1 hcontent) (h value serial)

/-! ## Slots -/

theorem slot?_ofTokens (tokens : List UInt32) (token : UInt32) :
    (ofTokens tokens).slot? token = if token ∈ tokens then some {} else none := by
  have hslots : ∀ slots : Std.HashMap UInt32 CacheSlot,
      (tokens.foldl (fun slots token => slots.insert token {}) slots)[token]? =
        if token ∈ tokens then some {} else slots[token]? := by
    induction tokens with
    | nil => intro slots; simp
    | cons first tokens ih =>
      intro slots
      rw [List.foldl_cons, ih, Std.HashMap.getElem?_insert]
      by_cases hrest : token ∈ tokens
      · simp [hrest]
      · by_cases hfirst : first = token
        · simp [hfirst]
        · simp [hrest, hfirst, Ne.symm hfirst]
  simpa [slot?, ofTokens] using hslots ∅

theorem slot?_clear (cache : ConstantCache) (token : UInt32) :
    cache.clear.slot? token = (cache.slot? token).map fun _ => {} := by
  simp only [slot?, clear, Std.HashMap.getElem?_map]

/-- **A slot is there if its token is known, and is what its latest operation made of it.** -/
theorem slot?_after (tokens : List UInt32) (history : List Operation) (token : UInt32) :
    ((ofTokens tokens).after history).slot? token =
      if token ∈ known tokens history then some (content (latest? token history)) else none := by
  induction history using List.reverseRecOn with
  | nil =>
    rw [known, List.filterMap_nil, List.append_nil]
    exact slot?_ofTokens tokens token
  | append_singleton history op ih =>
    rw [after_append, latest?_concat, after, List.foldl_cons, List.foldl_nil]
    cases op with
    | store other value serial =>
      by_cases hother : other = token
      · subst hother
        have haffects : (Operation.store other value serial).affects other := beq_self_eq_true other
        rw [if_pos (mem_known_concat.2 (.inr rfl)), if_pos haffects, apply, slot?_store_self,
          content]
      · have hspares : ¬(Operation.store other value serial).affects token := by
          simpa [Operation.affects] using hother
        rw [if_neg hspares, apply, slot?_store_of_ne hother, ih]
        simp only [mem_known_concat, Operation.token?, Option.some.injEq, hother, or_false]
    | clear =>
      have haffects : Operation.clear.affects token := rfl
      rw [if_pos haffects, apply, slot?_clear, ih]
      simp only [mem_known_concat, Operation.token?, reduceCtorEq, or_false]
      split <;> rfl

/-- A value counts if the slot has it together with the serial. -/
theorem lookup?_eq_some_iff :
    cache.lookup? token serial = some value ↔
      cache.slot? token = some { value := some value, serial } := by
  rw [lookup?]
  cases cache.slot? token with
  | none => simp
  | some slot =>
    obtain ⟨kept, under⟩ := slot
    cases kept with
    | none => simp [CacheSlot.isValid]
    | some v =>
      by_cases hserial : under = serial
      · simp [CacheSlot.isValid, hserial]
      · simp [CacheSlot.isValid, hserial]

/-- **A token has a slot if it is known.** -/
theorem isSome_slot?_after :
    (((ofTokens tokens).after history).slot? token).isSome ↔ token ∈ known tokens history := by
  rw [slot?_after]
  by_cases hknown : token ∈ known tokens history
  · rw [if_pos hknown]
    exact iff_of_true rfl hknown
  · rw [if_neg hknown]
    exact iff_of_false Bool.false_ne_true hknown

/-- **A value counts if its store still stands.** -/
theorem lookup?_after :
    ((ofTokens tokens).after history).lookup? token serial = some value ↔
      Stored history token value serial := by
  rw [lookup?_eq_some_iff, slot?_after, ← content_latest?_eq_iff]
  constructor
  · intro hslot
    split at hslot
    · exact Option.some.inj hslot
    · cases hslot
  · intro hcontent
    obtain ⟨before, since, rfl, -⟩ := content_latest?_eq_iff.1 hcontent
    rw [if_pos (mem_known_iff.2 (.inr ⟨value, serial, by simp⟩)), hcontent]

/-! ## Counts -/

/-- **There are as many slots as tokens that have one.** -/
theorem size_eq_card (h : ∀ token, (cache.slot? token).isSome ↔ token ∈ tokens) :
    cache.size = tokens.toFinset.card := by
  have hnodup : cache.slots.keys.Nodup :=
    Std.HashMap.distinct_keys.imp fun hne heq => by simp [heq] at hne
  have hsame : cache.slots.keys.toFinset = tokens.toFinset := by
    ext token
    rw [List.mem_toFinset, List.mem_toFinset, Std.HashMap.mem_keys, ← h, slot?,
      Std.HashMap.isSome_getElem?_eq_contains]
    rfl
  rw [size, ← Std.HashMap.length_keys, ← List.toFinset_card_of_nodup hnodup, hsame]

/-- **Every store counts as a filling, and nothing else does.** -/
theorem fillCount_after (cache : ConstantCache) (history : List Operation) :
    (cache.after history).fillCount =
      cache.fillCount + .ofNat (history.countP (·.token?.isSome)) := by
  induction history generalizing cache with
  | nil => exact (UInt64.add_zero _).symm
  | cons op history ih =>
    rw [after, List.foldl_cons, ← after, ih, List.countP_cons, UInt64.ofNat_add,
      UInt64.add_comm (.ofNat _), ← UInt64.add_assoc]
    cases op with
    | store token value serial => rfl
    | clear => exact congrArg (· + _) (UInt64.add_zero _).symm

/-- A cache that was made with slots for some tokens is what its history says. -/
structure Recorded (tokens : List UInt32) (history : List Operation) (cache : ConstantCache) :
    Prop where
  /-- A value counts for a token under a serial if it was stored for them and nothing has affected
  the slot since. -/
  lookup : ∀ token serial value,
    cache.lookup? token serial = some value ↔ Stored history token value serial
  /-- A token has a slot if the cache was made with one, or if it was ever stored to. -/
  slot : ∀ token, (cache.slot? token).isSome ↔
    token ∈ tokens ∨ ∃ value serial, .store token value serial ∈ history
  /-- There is one slot for each of these tokens, -/
  size : cache.size = (known tokens history).toFinset.card
  /-- and whatever happens there will not be fewer. -/
  grows : ∀ more, cache.size ≤ (cache.after more).size
  /-- All stores are counted, as far as a word counts, -/
  fills : cache.fills = history.countP (·.token?.isSome) % UInt64.size
  /-- and clearing does not change the count. -/
  fills_clear : cache.clear.fills = cache.fills
  /-- A slot without a store since it was made or cleared counts under no serial, be it zero. -/
  void : ∀ token slot, cache.slot? token = some slot →
    (∀ value serial, ¬Stored history token value serial) → ∀ serial, slot.isValid serial = false

/-- **A cache is what its history says**, whether it was made without slots or with some. -/
theorem recorded_after (made : Option (List UInt32)) (history : List Operation) :
    Recorded (made.getD []) history ((made.elim {} ofTokens).after history) := by
  have hmade : made.elim {} ofTokens = ofTokens (made.getD []) := by cases made <;> rfl
  rw [hmade]
  generalize made.getD [] = tokens
  have hsize := fun history => size_eq_card fun token => @isSome_slot?_after tokens history token
  refine ⟨fun _ _ _ => lookup?_after, fun _ => isSome_slot?_after.trans mem_known_iff,
    hsize history, ?_, ?_, rfl, ?_⟩
  · intro more
    rw [← after_append, hsize history, hsize (history ++ more), known_append, List.toFinset_append]
    exact Finset.card_le_card Finset.subset_union_left
  · exact fills_of_fillCount (fillCount_after _ history)
  · intro token slot hslot hnone serial
    rw [slot?_after, content_latest?_of_not_stored hnone] at hslot
    split at hslot
    · cases hslot
      rfl
    · cases hslot

end ConstantCache

end StackVm
