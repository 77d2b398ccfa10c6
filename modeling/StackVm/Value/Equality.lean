import StackVm.Value.Basic
/-!
# Equality of values and the building of hashes

Two values are equal when they have the same kind and the same content: floats by their bits,
classes by their identifiers, hashes when each has as many entries as the other and every entry of
the first has one in the second with an equal key and an equal value. The order of a hash's entries
does not count. This is the equality that the keys of a hash are told apart by.

`Value.eql` states it and `Value.equals` computes it. A hash may hold one part in many places, and
its entries are then far fewer than its parts counted place by place. `equals` does not enter a pair
of parts that are one object in memory, which `equals_eq_eql` shows to leave the answer as it is.

`Value.fingerprint` is what a hash function may see of a value. Of a hash it sees the number of
entries only, since equal hashes may list theirs in different orders.
-/

namespace StackVm

namespace Value

/-! ## Equality -/

mutual

/-- Equality of values. -/
def eql : Value → Value → Bool
  | .nil, .nil => true
  | .bool a, .bool b => a == b
  | .integer a, .integer b => a == b
  | .float x, .float y => x == y
  | .symbol a, .symbol b => a == b
  | .string a, .string b => a == b
  | .classHandle c, .classHandle d => c.id == d.id
  | .hash es, .hash fs => es.length == fs.length && entriesWithin es fs
  | _, _ => false

/-- Whether every entry of the first hash has one in the second with an equal key and an equal
value. -/
def entriesWithin : Entries → Entries → Bool
  | [], _ => true
  | (key, value) :: rest, fs =>
    (fs.any fun entry => eql key entry.1 && eql value entry.2) && entriesWithin rest fs

end

mutual

/-- Every value equals itself. -/
theorem eql_refl : (v : Value) → v.eql v = true
  | .nil => by simp [eql]
  | .bool _ => by simp [eql]
  | .integer _ => by simp [eql]
  | .float _ => by simp [eql]
  | .symbol _ => by simp [eql]
  | .string _ => by simp [eql]
  | .classHandle _ => by simp [eql]
  | .hash es => by simp [eql, entriesWithin_of_subset es es fun _ h => h]

/-- Entries lie within any that hold each of them. -/
theorem entriesWithin_of_subset : (es fs : Entries) → (∀ entry ∈ es, entry ∈ fs) →
    entriesWithin es fs = true
  | [], _, _ => by simp [entriesWithin]
  | (key, value) :: rest, fs, h => by
    have found : (fs.any fun entry => eql key entry.1 && eql value entry.2) = true :=
      List.any_eq_true.2
        ⟨(key, value), h _ List.mem_cons_self, by simp [eql_refl key, eql_refl value]⟩
    simp [entriesWithin, found,
      entriesWithin_of_subset rest fs fun entry hentry => h entry (List.mem_cons_of_mem _ hentry)]

end

mutual

/-- Equality, computed without entering parts that are one object. -/
def eqlShared : (a b : Value) → { r : Bool // r = a.eql b }
  | .hash es, .hash fs =>
    ⟨es.length == fs.length && (withinShared es fs).val, by rw [(withinShared es fs).property, eql]⟩
  | a, b => ⟨a.eql b, rfl⟩

/-- Whether every entry of the first hash has an equal one in the second, computed without entering
parts that are one object. -/
def withinShared : (es fs : Entries) → { r : Bool // r = entriesWithin es fs }
  | [], _ => ⟨true, by rw [entriesWithin]⟩
  | (key, value) :: rest, fs =>
    ⟨(fs.any fun entry =>
        withPtrEq key entry.1 (fun _ => (eqlShared key entry.1).val)
          (fun h => by rw [(eqlShared key entry.1).property, h, eql_refl]) &&
        withPtrEq value entry.2 (fun _ => (eqlShared value entry.2).val)
          (fun h => by rw [(eqlShared value entry.2).property, h, eql_refl])) &&
      (withinShared rest fs).val, by
      simp only [withPtrEq, (eqlShared key _).property, (eqlShared value _).property,
        (withinShared rest fs).property, entriesWithin]⟩

end

/-- Equality of values, as the machine tests it. -/
def equals (a b : Value) : Bool :=
  withPtrEq a b (fun _ => (eqlShared a b).val)
    (fun h => by rw [(eqlShared a b).property, h, eql_refl])

/-- The test is equality. -/
@[simp] theorem equals_eq_eql (a b : Value) : a.equals b = a.eql b := (eqlShared a b).property

instance : BEq Value := ⟨equals⟩

/-! ## Fingerprints -/

/-- What a hash function may see of a value. -/
inductive Fingerprint where
  /-- The absent value. -/
  | nil
  /-- A truth value. -/
  | bool (b : Bool)
  /-- An integer. -/
  | integer (i : Int64)
  /-- The bits of a float. -/
  | float (x : Binary64)
  /-- A symbol's name. -/
  | symbol (name : String)
  /-- A string's text. -/
  | string (text : String)
  /-- A class's identifier. -/
  | classHandle (id : UInt32)
  /-- The number of a hash's entries. -/
  | hash (size : Nat)
  deriving DecidableEq

/-- The part of a value that equal values share. -/
def fingerprint : Value → Fingerprint
  | .nil => .nil
  | .bool b => .bool b
  | .integer i => .integer i
  | .float x => .float x
  | .symbol name => .symbol name
  | .string text => .string text
  | .classHandle c => .classHandle c.id
  | .hash entries => .hash entries.length

end Value

/-! ## Entries -/

namespace Entries

/-- The entry stored under an equal key, with its place. -/
def find? (entries : Entries) (key : Value) : Option (Nat × Value × Value) :=
  (entries.zipIdx.find? fun entry => key.equals entry.1.1).map fun entry => (entry.2, entry.1)

/-- The value stored under an equal key. -/
def get? (entries : Entries) (key : Value) : Option Value :=
  (List.find? (fun entry => key.equals entry.1) entries).map Prod.snd

/-- Stores a value under a key. An equal key keeps its place and its own form and takes the new
value; a new key goes to the end. -/
def insert : Entries → Value → Value → Entries
  | [], key, value => [(key, value)]
  | (stored, old) :: rest, key, value =>
    if key.equals stored then (stored, value) :: rest else (stored, old) :: insert rest key value

/-- The entries that pairs inserted in order leave. -/
def ofPairs (pairs : List (Value × Value)) : Entries :=
  pairs.foldl (fun entries pair => insert entries pair.1 pair.2) []

end Entries

/-- The hash that pairs inserted in order build: a repeated key keeps its first place and takes its
last value. -/
def Value.ofPairs (pairs : List (Value × Value)) : Value := .hash (Entries.ofPairs pairs)

end StackVm
