import Mathlib.Data.List.Induction
import StackVm.ClassTable
import StackVm.Proofs.Rules
import StackVm.Proofs.ValueEquality
/-!
# Hashes from pairs

A hash is built by inserting pairs one after another. Which entries that leaves can be said of the
pairs alone: a key stands where it came up first, as it was written there (`Pairs.firsts`), and has
the value that it was given last (`Pairs.last?`). An insertion changes what one key is looked up as
(`Value.get?_insert`) and at most adds a key at the end (`Entries.map_fst_insert`), so a hash agrees
with its pairs after each of them (`Value.get?_ofPairs`, `Value.map_fst_ofPairs`). On the machine
the pairs lie on the stack, keys and values in turn.
-/

namespace StackVm

/-- Keys with values, in order. A key may come up any number of times. -/
abbrev Pairs := List (Value × Value)

/-! ## What pairs say -/

namespace Pairs

variable {pairs : Pairs} {p : Value × Value}

/-- The value of the last pair whose key equals a key. -/
def last? (pairs : Pairs) (key : Value) : Option Value :=
  (pairs.findRev? fun p => key.equals p.1).map Prod.snd

/-- The pairs whose key equals none before it, in order. -/
def firsts (pairs : Pairs) : Pairs :=
  (pairs.zipIdx.filter fun entry =>
    (pairs.take entry.2).all fun earlier => !entry.1.1.equals earlier.1).map Prod.fst

/-- The keys and values in turn. -/
def flat (pairs : Pairs) : List Value := pairs.flatMap fun p => [p.1, p.2]

/-- All keys and values can be built. -/
def AllBuilt (pairs : Pairs) : Prop := ∀ p ∈ pairs, p.1.Built ∧ p.2.Built

theorem AllBuilt.ofPairs (h : pairs.AllBuilt) : (Value.ofPairs pairs).Built :=
  .ofPairs (fun p hp => (h p hp).1) fun p hp => (h p hp).2

theorem allBuilt_concat (h : AllBuilt (pairs ++ [p])) :
    pairs.AllBuilt ∧ p.1.Built ∧ p.2.Built := by
  obtain ⟨hpairs, hp⟩ := List.forall_mem_append.1 h
  exact ⟨hpairs, hp p List.mem_cons_self⟩

/-- Of two runs of pairs the later one counts first. -/
theorem last?_append (before behind : Pairs) (key : Value) :
    last? (before ++ behind) key = (last? behind key).or (last? before key) := by
  simp [last?, Option.map_or]

theorem last?_singleton (p : Value × Value) (key : Value) :
    last? [p] key = if key.eql p.1 then some p.2 else none := by
  cases h : key.eql p.1 <;> simp [last?, h]

/-- A pair is the last for its key, and for no other. -/
theorem last?_concat (pairs : Pairs) (p : Value × Value) (key : Value) :
    last? (pairs ++ [p]) key = if key.eql p.1 then some p.2 else pairs.last? key := by
  rw [last?_append, last?_singleton]
  split <;> simp

/-- There is a last pair for a key if there is one at all. -/
theorem isSome_last? (pairs : Pairs) (key : Value) :
    (pairs.last? key).isSome = pairs.any fun p => key.eql p.1 := by
  simp [last?, List.isSome_find?]

/-- One more pair is a first if its key is new. -/
theorem firsts_concat (pairs : Pairs) (p : Value × Value) :
    firsts (pairs ++ [p]) =
      pairs.firsts ++ if pairs.any fun q => p.1.eql q.1 then [] else [p] := by
  have hbefore : ∀ entry ∈ pairs.zipIdx,
      ((pairs ++ [p]).take entry.2).all (fun earlier => !entry.1.1.equals earlier.1) =
        (pairs.take entry.2).all fun earlier => !entry.1.1.equals earlier.1 := by
    intro entry hentry
    have hlt := List.snd_lt_of_mem_zipIdx hentry
    rw [List.take_append_of_le_length (by omega)]
  have hlast : ([p].zipIdx (0 + pairs.length)).filter (fun entry =>
      ((pairs ++ [p]).take entry.2).all fun earlier => !entry.1.1.equals earlier.1) =
        if pairs.any fun q => p.1.eql q.1 then [] else [(p, pairs.length)] := by
    simp only [List.zipIdx_singleton, Nat.zero_add, List.filter_cons, List.filter_nil,
      List.take_left, Value.equals_eq_eql, ← List.not_any_eq_all_not]
    cases pairs.any fun q => p.1.eql q.1 <;> rfl
  rw [firsts, List.zipIdx_append, List.filter_append, List.map_append, List.filter_congr hbefore,
    hlast]
  rw [firsts]
  split <;> rfl

end Pairs

/-! ## What an insertion does -/

namespace Entries

/-- An insertion keeps the keys, and adds one that is new at the end. -/
theorem map_fst_insert (es : Entries) (key value : Value) :
    (es.insert key value).map Prod.fst =
      es.map Prod.fst ++ if es.any fun e => key.eql e.1 then [] else [key] := by
  fun_induction insert es key value with
  | case1 => rfl
  | case2 stored old rest key value heq =>
    rw [Value.equals_eq_eql] at heq
    simp [heq]
  | case3 stored old rest key value hne ih =>
    rw [Value.equals_eq_eql, Bool.not_eq_true] at hne
    rw [List.map_cons, ih, List.any_cons, hne, Bool.false_or]
    rfl

/-- A key that is new goes to the end with its value. -/
theorem insert_of_new {es : Entries} {key : Value} (value : Value)
    (hnew : ∀ e ∈ es, key.eql e.1 = false) : es.insert key value = es ++ [(key, value)] := by
  induction es with
  | nil => rfl
  | cons e rest ih =>
    obtain ⟨hfirst, hrest⟩ := List.forall_mem_cons.1 hnew
    rw [insert, Value.equals_eq_eql, hfirst, if_neg (by simp), ih hrest]
    rfl

theorem ofPairs_concat (pairs : Pairs) (p : Value × Value) :
    ofPairs (pairs ++ [p]) = (ofPairs pairs).insert p.1 p.2 := by
  simp [ofPairs]

/-- A look-up stops at an equal key. -/
theorem get?_cons (stored old : Value) (rest : Entries) (key : Value) :
    get? ((stored, old) :: rest) key = if key.eql stored then some old else rest.get? key := by
  cases h : key.eql stored <;> simp [get?, h]

/-- There is a value for a key if an equal key is there. -/
theorem isSome_get? (es : Entries) (key : Value) :
    (es.get? key).isSome = es.any fun e => key.eql e.1 := by
  simp [get?, List.isSome_find?]

end Entries

namespace Value

variable {es : Entries} {pairs : Pairs} {k key value : Value}

/-- **An insertion changes what equal keys are looked up as**, and no others. -/
theorem get?_insert (hes : ∀ e ∈ es, e.1.WellFormed) (hkey : key.WellFormed) (hk : k.WellFormed) :
    (es.insert key value).get? k = if k.eql key then some value else es.get? k := by
  fun_induction Entries.insert es key value with
  | case1 key value =>
    rw [Entries.get?_cons]
  | case2 stored old rest key value heq =>
    obtain ⟨hstored, -⟩ := List.forall_mem_cons.1 hes
    rw [equals_eq_eql] at heq
    have hsame : k.eql stored = k.eql key :=
      hk.eql_congr hstored hk hkey k.eql_refl (hkey.eql_symm hstored heq)
    rw [Entries.get?_cons, Entries.get?_cons, hsame]
    split <;> rfl
  | case3 stored old rest key value hne ih =>
    obtain ⟨hstored, hrest⟩ := List.forall_mem_cons.1 hes
    rw [equals_eq_eql] at hne
    rw [Entries.get?_cons, Entries.get?_cons, ih hrest hkey]
    by_cases hk' : k.eql stored = true
    · -- A key that equals the one in front does not equal the new one.
      have hother : ¬ k.eql key = true := by
        intro heq
        exact hne (hkey.eql_trans hk hstored (hk.eql_symm hkey heq) hk')
      rw [if_pos hk', if_pos hk', if_neg hother]
    · rw [if_neg hk', if_neg hk']

/-! ## What pairs leave -/

/-- **A key is looked up as the value that it was given last.** -/
theorem get?_ofPairs (h : pairs.AllBuilt) (hk : k.WellFormed) :
    (Entries.ofPairs pairs).get? k = pairs.last? k := by
  induction pairs using List.reverseRecOn with
  | nil => rfl
  | append_singleton pairs p ih =>
    obtain ⟨hpairs, hp, -⟩ := Pairs.allBuilt_concat h
    have hkeys := (wellFormed_hash_iff.1 hpairs.ofPairs.wellFormed).2.1
    rw [Entries.ofPairs_concat, get?_insert hkeys hp.wellFormed hk, ih hpairs, Pairs.last?_concat]

/-- **The keys are those of the first pairs**, in their order and as they are written there. -/
theorem map_fst_ofPairs (h : pairs.AllBuilt) :
    (Entries.ofPairs pairs).map Prod.fst = pairs.firsts.map Prod.fst := by
  induction pairs using List.reverseRecOn with
  | nil => rfl
  | append_singleton pairs p ih =>
    obtain ⟨hpairs, hp, -⟩ := Pairs.allBuilt_concat h
    -- A key is stored already if it came up already.
    have hsame : ((Entries.ofPairs pairs).any fun e => p.1.eql e.1) =
        pairs.any fun q => p.1.eql q.1 := by
      rw [← Entries.isSome_get?, get?_ofPairs hpairs hp.wellFormed, Pairs.isSome_last?]
    rw [Entries.ofPairs_concat, Entries.map_fst_insert, ih hpairs, hsame, Pairs.firsts_concat,
      List.map_append]
    split <;> rfl

/-- **Every entry has the value that its key was given last.** -/
theorem last?_of_mem_ofPairs (h : pairs.AllBuilt) {e : Value × Value}
    (he : e ∈ Entries.ofPairs pairs) : pairs.last? e.1 = some e.2 := by
  have hhash := h.ofPairs.wellFormed
  have hkey := (wellFormed_hash_iff.1 hhash).2.1 e he
  rw [← get?_ofPairs h hkey]
  exact get?_eq_some_of_mem hkey hhash he e.1.eql_refl

/-- No key of a hash equals another, whichever of the two is asked. -/
theorem WellFormed.pairwise_keys (h : (Value.hash es).WellFormed) :
    es.Pairwise fun e f => e.1.eql f.1 = false ∧ f.1.eql e.1 = false := by
  obtain ⟨hdistinct, hkeys, -⟩ := wellFormed_hash_iff.1 h
  refine List.Pairwise.imp_of_mem ?_ hdistinct
  intro e f he hf hne
  refine ⟨?_, hne⟩
  rw [Bool.eq_false_iff]
  intro heq
  rw [(hkeys e he).eql_symm (hkeys f hf) heq] at hne
  cases hne

end Value

/-! ## Pairs on the stack -/

theorem Pairs.length_flat (pairs : Pairs) : pairs.flat.length = 2 * pairs.length := by
  induction pairs with
  | nil => rfl
  | cons p rest ih =>
    simp only [flat, List.flatMap_cons, List.length_append, List.length_cons,
      List.length_nil] at ih ⊢
    omega

namespace Machine

variable {m : Machine} {below : List Value} {pairs : Pairs} {size : UInt64}

/-- Keys and values in turn are taken up as the pairs that they are of. -/
theorem pairUp_flat (pairs : Pairs) : pairUp pairs.flat = pairs := by
  induction pairs with
  | nil => rfl
  | cons p rest ih => exact congrArg (p :: ·) ih

/-- **Pairs on top of the stack give way to their hash.** -/
theorem execute_newHash (env : Environment) (hsize : size.toNat = 2 * pairs.length)
    (hstack : m.stack.toList = below ++ pairs.flat) (hstep : m.MayStep)
    (hfits : m.stack.depth ≤ m.stack.limit.toNat)
    (hroom : pairs = [] → m.stack.depth < m.stack.limit.toNat) :
    (m.execute env (.newHash size)).result = .ok () ∧
      (m.execute env (.newHash size)).machine.stack.toList = below ++ [env.buildHash pairs] := by
  have hdepth : m.stack.depth = below.length + 2 * pairs.length := by
    rw [Stack.depth_eq_length, hstack, List.length_append, Pairs.length_flat]
  have heven : size % 2 = 0 := by
    rw [← UInt64.toNat_inj, UInt64.toNat_mod, hsize]
    exact Nat.mul_mod_right 2 _
  have hleft : m.stack.depth - size.toNat < m.stack.limit.toNat := by
    cases pairs with
    | nil =>
      have hlt := hroom rfl
      omega
    | cons p rest =>
      rw [List.length_cons] at hdepth hsize
      omega
  obtain ⟨htop, hbelow⟩ := take_top hstack
  rw [Pairs.length_flat, ← hsize] at htop hbelow
  have hpaid : m.paid.stack = m.stack := rfl
  have hrule : m.Executes env (.newHash size) _ :=
    .granted hstep (.hash heven (by rw [hpaid]; omega) hleft)
  rw [hrule.execute_eq]
  refine ⟨rfl, ?_⟩
  rw [Stack.toList_put, hpaid, hbelow, htop, pairUp_flat]

/-- **The hash of pairs has the first places and the last values.** Take a machine with pairs on top
of its stack, which is within its limit, with room for one more value if there are no pairs, and
with a step granted; and an environment that builds hashes by insertion. The instruction for their
number succeeds and leaves a hash in their place. No two keys of the hash are equal; they stand in
the order in which they came up first, as they were written there, each with the value of the last
pair of an equal key; and any value that can be built is looked up as that of the last pair whose
key it equals. -/
theorem newHash_of_pairs (m : Machine) (env : Environment) (below : List Value) (pairs : Pairs)
    (size : UInt64) (hhash : env.buildHash = Value.ofPairs) (hbuilt : pairs.AllBuilt)
    (hsize : size.toNat = 2 * pairs.length) (hstack : m.stack.toList = below ++ pairs.flat)
    (hstep : m.MayStep) (hfits : m.stack.depth ≤ m.stack.limit.toNat)
    (hroom : pairs = [] → m.stack.depth < m.stack.limit.toNat) :
    (m.execute env (.newHash size)).result = .ok () ∧
      ∃ entries : Entries,
        (m.execute env (.newHash size)).machine.stack.toList = below ++ [.hash entries] ∧
        (entries.Pairwise fun e f => e.1.equals f.1 = false ∧ f.1.equals e.1 = false) ∧
        entries.map Prod.fst = pairs.firsts.map Prod.fst ∧
        (∀ e ∈ entries, pairs.last? e.1 = some e.2) ∧
        ∀ key : Value, key.Built → entries.get? key = pairs.last? key := by
  obtain ⟨hok, hleft⟩ := execute_newHash env hsize hstack hstep hfits hroom
  rw [hhash] at hleft
  refine ⟨hok, Entries.ofPairs pairs, hleft, ?_, Value.map_fst_ofPairs hbuilt, ?_, ?_⟩
  · simpa only [Value.equals_eq_eql] using hbuilt.ofPairs.wellFormed.pairwise_keys
  · intro e he
    exact Value.last?_of_mem_ofPairs hbuilt he
  · intro key hkey
    exact Value.get?_ofPairs hbuilt hkey.wellFormed

/-- A hash twice as a key, in two orders, and another key between. -/
def rekeyed : Pairs :=
  [(Value.numbered, .integer 1), (.nil, .integer 2), (Value.renumbered, .integer 3)]

/-- A machine that has just room for what it holds, these pairs on top. -/
def paired : Machine :=
  { create 0 { maxSteps := some 1 } with stack := ⟨(.bool true :: rekeyed.flat).toArray, 7⟩ }

theorem allBuilt_rekeyed : rekeyed.AllBuilt := by
  have hatom : ∀ i, (Value.integer i).Built := fun i => .atom rfl
  simp only [Pairs.AllBuilt, rekeyed, List.forall_mem_cons]
  exact ⟨⟨Value.numbered_built, hatom 1⟩, ⟨.atom rfl, hatom 2⟩,
    ⟨Value.renumbered_built, hatom 3⟩, by simp⟩

/-- The first form of the key stays, where it was, and takes the last value. -/
theorem newHash_of_pairs_rekeyed :
    rekeyed.AllBuilt ∧ paired.MayStep ∧
      (paired.execute ClassTable.core.environment (.newHash 6)).result = .ok () ∧
      ∃ entries : Entries,
        (paired.execute ClassTable.core.environment (.newHash 6)).machine.stack.toList =
          [.bool true, .hash entries] ∧
        entries.map Prod.fst = [Value.numbered, .nil] ∧
        entries.get? Value.numbered = some (.integer 3) ∧
        entries.get? (.integer 1) = none := by
  have hstep : paired.MayStep := by
    rintro limit ⟨⟩
    decide
  obtain ⟨hok, entries, hstack, -, hkeys, -, hget⟩ :=
    newHash_of_pairs paired ClassTable.core.environment [.bool true] rekeyed 6 rfl allBuilt_rekeyed
      rfl rfl hstep (by decide) (by rintro ⟨⟩)
  refine ⟨allBuilt_rekeyed, hstep, hok, entries, hstack, hkeys.trans rfl, ?_, ?_⟩
  · exact (hget _ Value.numbered_built).trans rfl
  · exact (hget _ (.atom rfl)).trans rfl

end Machine

end StackVm
