import StackVm.Value.Equality
/-!
# Equality of values is lawful

Equality of hashes counts the entries and looks every entry of the first up in the second, under the
very equality that it defines. That it is symmetric is owed to the keys of a hash being told apart:
two entries of the first cannot both be found as one of the second, so as many as there are take up
all of the second (`Partnered.exists_of_length_eq`). Keys are told apart at every depth of a value
that was built by insertion (`Value.Built.wellFormed`), and over these values equality is symmetric
and transitive, proved together by induction on the parts (`Value.WellFormed.lawful`).
-/

namespace StackVm

section Partners

variable {α β : Type} {R : α → β → Prop} {xs : List α} {ys before behind : List β} {y : β}

/-- Each element has a partner, and no two have the same one. -/
def Partnered (R : α → β → Prop) (xs : List α) (ys : List β) : Prop :=
  (∀ x ∈ xs, ∃ y ∈ ys, R x y) ∧ xs.Pairwise fun x x' => ∀ y ∈ ys, R x y → ¬ R x' y

/-- One that is nobody's partner can be left out. -/
theorem Partnered.without (h : Partnered R xs (before ++ y :: behind)) (hnone : ∀ x ∈ xs, ¬ R x y) :
    Partnered R xs (before ++ behind) := by
  have hmem : ∀ y', y' ∈ before ++ y :: behind ↔ y' = y ∨ y' ∈ before ++ behind := by
    intro y'
    simp only [List.mem_append, List.mem_cons]
    exact or_left_comm
  refine ⟨fun x hx => ?_, h.2.imp fun hone y' hy' => hone y' ((hmem y').2 (.inr hy'))⟩
  obtain ⟨y', hy', hR⟩ := h.1 x hx
  rcases (hmem y').1 hy' with rfl | hother
  · exact absurd hR (hnone x hx)
  · exact ⟨y', hother, hR⟩

/-- **Elements with partners of their own are no more than there are partners.** -/
theorem Partnered.length_le (h : Partnered R xs ys) : xs.length ≤ ys.length := by
  induction xs generalizing ys with
  | nil => exact Nat.zero_le _
  | cons x rest ih =>
    -- The partner of the first element is set aside, and the others do not need it.
    obtain ⟨y, hy, hR⟩ := h.1 x List.mem_cons_self
    obtain ⟨before, behind, rfl⟩ := List.append_of_mem hy
    obtain ⟨hfirst, hothers⟩ := List.pairwise_cons.1 h.2
    have hrest : Partnered R rest (before ++ y :: behind) :=
      ⟨fun x' hx' => h.1 x' (List.mem_cons_of_mem x hx'), hothers⟩
    have hle := ih (hrest.without fun x' hx' => hfirst x' hx' y hy hR)
    simp only [List.length_cons, List.length_append] at hle ⊢
    omega

/-- **As many elements as there are partners leave none out.** -/
theorem Partnered.exists_of_length_eq (h : Partnered R xs ys) (hlength : xs.length = ys.length) :
    ∀ y ∈ ys, ∃ x ∈ xs, R x y := by
  intro y hy
  rcases Classical.em (∃ x ∈ xs, R x y) with hsome | hnone
  · exact hsome
  · obtain ⟨before, behind, rfl⟩ := List.append_of_mem hy
    have hle := (h.without fun x hx hR => hnone ⟨x, hx, hR⟩).length_le
    simp only [List.length_cons, List.length_append] at hle hlength
    omega

end Partners

/-! ## What equality compares -/

namespace Value

variable {a b c : Value} {es fs : Entries}

/-- Two entries with equal keys and equal values. -/
def EntryEql (e f : Value × Value) : Prop := e.1.eql f.1 = true ∧ e.2.eql f.2 = true

theorem entriesWithin_iff :
    entriesWithin es fs = true ↔ ∀ e ∈ es, ∃ f ∈ fs, EntryEql e f := by
  induction es with
  | nil => simp [entriesWithin]
  | cons e rest ih =>
    simp [entriesWithin, ih, EntryEql]

/-- Hashes are equal when they have as many entries, and every entry of the first has an equal one
in the second. -/
theorem eql_hash_iff :
    (hash es).eql (hash fs) = true ↔
      es.length = fs.length ∧ ∀ e ∈ es, ∃ f ∈ fs, EntryEql e f := by
  simp [eql, entriesWithin_iff]

/-- **Equal values show a hash function the same.** -/
theorem fingerprint_eq_of_eql (h : a.eql b = true) : a.fingerprint = b.fingerprint := by
  cases a <;> cases b <;> simp_all [eql, fingerprint]

/-- Only hashes keep something from their fingerprint. -/
theorem eql_of_fingerprint_eq (ha : a.entries? = none) (h : a.fingerprint = b.fingerprint) :
    a.eql b = true := by
  cases a <;> cases b <;> simp_all [eql, fingerprint, entries?]

/-- What has the fingerprint of a hash is a hash. -/
theorem exists_hash_of_fingerprint_eq (h : (hash es).fingerprint = b.fingerprint) :
    ∃ fs, b = hash fs := by
  cases b <;> simp_all [fingerprint]

theorem entries?_eq_none_of_fingerprint_eq (ha : a.entries? = none)
    (h : a.fingerprint = b.fingerprint) : b.entries? = none := by
  cases a <;> cases b <;> simp_all [fingerprint, entries?]

end Value

/-! ## Keys told apart -/

/-- No key equals one that stands before it. -/
def Entries.Distinct (es : Entries) : Prop :=
  es.Pairwise fun earlier later => later.1.eql earlier.1 = false

namespace Value

/-- A value in whose hashes, at every depth, the keys are told apart. -/
inductive WellFormed : Value → Prop
  /-- A value that is not a hash. -/
  | atom {v : Value} (h : v.entries? = none) : WellFormed v
  /-- A hash of such keys and values. -/
  | hash {es : Entries} (hdistinct : es.Distinct) (hkeys : ∀ e ∈ es, WellFormed e.1)
      (hvalues : ∀ e ∈ es, WellFormed e.2) : WellFormed (.hash es)

/-- A value that can be built: one that is not a hash, or the hash that pairs of such values leave
when they are inserted in order. -/
inductive Built : Value → Prop
  /-- A value that is not a hash. -/
  | atom {v : Value} (h : v.entries? = none) : Built v
  /-- A hash built from pairs. -/
  | ofPairs {pairs : List (Value × Value)} (hkeys : ∀ p ∈ pairs, Built p.1)
      (hvalues : ∀ p ∈ pairs, Built p.2) : Built (.ofPairs pairs)

end Value

namespace Entries

variable {es : Entries} {key value : Value}

/-- Keys and values after an insertion are those there were and the new ones. -/
theorem of_mem_insert {e : Value × Value} (h : e ∈ es.insert key value) :
    (e.1 = key ∨ ∃ f ∈ es, e.1 = f.1) ∧ (e.2 = value ∨ ∃ f ∈ es, e.2 = f.2) := by
  fun_induction insert es key value with
  | case1 key value =>
    obtain rfl := List.mem_singleton.1 h
    exact ⟨.inl rfl, .inl rfl⟩
  | case2 stored old rest key value heq =>
    rcases List.mem_cons.1 h with rfl | hrest
    · exact ⟨.inr ⟨(stored, old), List.mem_cons_self, rfl⟩, .inl rfl⟩
    · have hmem := List.mem_cons_of_mem (stored, old) hrest
      exact ⟨.inr ⟨e, hmem, rfl⟩, .inr ⟨e, hmem, rfl⟩⟩
  | case3 stored old rest key value hne ih =>
    rcases List.mem_cons.1 h with rfl | hrest
    · exact ⟨.inr ⟨_, List.mem_cons_self, rfl⟩, .inr ⟨_, List.mem_cons_self, rfl⟩⟩
    · obtain ⟨hkey, hvalue⟩ := ih hrest
      refine ⟨hkey.imp_right ?_, hvalue.imp_right ?_⟩ <;>
        exact fun ⟨f, hf, heq⟩ => ⟨f, List.mem_cons_of_mem _ hf, heq⟩

/-- **An insertion keeps the keys told apart.** -/
theorem Distinct.insert (h : es.Distinct) : (es.insert key value).Distinct := by
  fun_induction Entries.insert es key value with
  | case1 => exact List.pairwise_singleton _ _
  | case2 stored old rest key value heq =>
    obtain ⟨hfirst, hrest⟩ := List.pairwise_cons.1 h
    exact List.pairwise_cons.2 ⟨hfirst, hrest⟩
  | case3 stored old rest key value hne ih =>
    obtain ⟨hfirst, hrest⟩ := List.pairwise_cons.1 h
    refine List.pairwise_cons.2 ⟨?_, ih hrest⟩
    intro e he
    rcases (of_mem_insert he).1 with hkey | ⟨f, hf, hkey⟩
    · rw [hkey]
      simpa using hne
    · rw [hkey]
      exact hfirst f hf

end Entries

/-! ## Equality over well-formed values -/

namespace Value

variable {a b c : Value} {es fs : Entries}

theorem wellFormed_hash_iff :
    (Value.hash es).WellFormed ↔
      es.Distinct ∧ (∀ e ∈ es, e.1.WellFormed) ∧ ∀ e ∈ es, e.2.WellFormed := by
  constructor
  · intro h
    cases h with
    | atom h => simp [entries?] at h
    | hash hdistinct hkeys hvalues => exact ⟨hdistinct, hkeys, hvalues⟩
  · rintro ⟨hdistinct, hkeys, hvalues⟩
    exact .hash hdistinct hkeys hvalues

/-- An insertion leaves a well-formed hash so. -/
theorem WellFormed.insert {key value : Value} (h : (Value.hash es).WellFormed)
    (hkey : key.WellFormed) (hvalue : value.WellFormed) :
    (Value.hash (es.insert key value)).WellFormed := by
  obtain ⟨hdistinct, hkeys, hvalues⟩ := wellFormed_hash_iff.1 h
  refine .hash hdistinct.insert ?_ ?_
  · intro e he
    rcases (Entries.of_mem_insert he).1 with heq | ⟨f, hf, heq⟩
    · exact heq ▸ hkey
    · exact heq ▸ hkeys f hf
  · intro e he
    rcases (Entries.of_mem_insert he).2 with heq | ⟨f, hf, heq⟩
    · exact heq ▸ hvalue
    · exact heq ▸ hvalues f hf

/-- So does the insertion of pairs one after another. -/
theorem WellFormed.foldl_insert {pairs : List (Value × Value)} (h : (Value.hash es).WellFormed)
    (hkeys : ∀ p ∈ pairs, p.1.WellFormed) (hvalues : ∀ p ∈ pairs, p.2.WellFormed) :
    (Value.hash (pairs.foldl (fun entries pair => Entries.insert entries pair.1 pair.2)
      es)).WellFormed := by
  induction pairs generalizing es with
  | nil => exact h
  | cons p rest ih =>
    obtain ⟨hkey, hkeys⟩ := List.forall_mem_cons.1 hkeys
    obtain ⟨hvalue, hvalues⟩ := List.forall_mem_cons.1 hvalues
    exact ih (h.insert hkey hvalue) hkeys hvalues

/-- **What can be built tells its keys apart, at every depth.** -/
theorem Built.wellFormed (h : a.Built) : a.WellFormed := by
  induction h with
  | atom h => exact .atom h
  | ofPairs _ _ hkeys hvalues =>
    have hempty : (Value.hash []).WellFormed :=
      wellFormed_hash_iff.2 ⟨List.Pairwise.nil, by simp, by simp⟩
    exact hempty.foldl_insert hkeys hvalues

/-- What a proof by induction on the parts of a value knows of each of them. -/
def Lawful (a : Value) : Prop :=
  (∀ b : Value, b.WellFormed → a.eql b = true → b.eql a = true) ∧
    ∀ b c : Value, b.WellFormed → c.WellFormed → a.eql b = true → b.eql c = true → a.eql c = true

/-- No two entries with keys told apart have a key equal to one and the same. -/
theorem not_entryEql_of_distinct (hdistinct : es.Distinct) (hkeys : ∀ e ∈ es, e.1.WellFormed)
    (hlawful : ∀ e ∈ es, e.1.Lawful) (hfs : ∀ f ∈ fs, f.1.WellFormed) :
    es.Pairwise fun e e' => ∀ f ∈ fs, EntryEql e f → ¬ EntryEql e' f := by
  refine List.Pairwise.imp_of_mem ?_ hdistinct
  intro e e' he he' hne f hf hef he'f
  have hback : f.1.eql e.1 = true := (hlawful e he).1 f.1 (hfs f hf) hef.1
  have hsame : e'.1.eql e.1 = true :=
    (hlawful e' he').2 f.1 e.1 (hfs f hf) (hkeys e he) he'f.1 hback
  rw [hsame] at hne
  cases hne

/-- Equality of well-formed values is symmetric and transitive. The two are proved together, by
induction on the parts: that keys are matched one to one takes both, of the keys. -/
theorem WellFormed.lawful (ha : a.WellFormed) : a.Lawful := by
  induction ha with
  | @atom v h =>
    constructor
    · intro b _ hab
      have heq := fingerprint_eq_of_eql hab
      exact eql_of_fingerprint_eq (entries?_eq_none_of_fingerprint_eq h heq) heq.symm
    · intro b c _ _ hab hbc
      exact eql_of_fingerprint_eq h
        ((fingerprint_eq_of_eql hab).trans (fingerprint_eq_of_eql hbc))
  | @hash es hdistinct hkeys hvalues ihkeys ihvalues =>
    constructor
    · intro b hb hab
      obtain ⟨fs, rfl⟩ := exists_hash_of_fingerprint_eq (fingerprint_eq_of_eql hab)
      obtain ⟨hlength, hall⟩ := eql_hash_iff.1 hab
      obtain ⟨_, hfkeys, hfvalues⟩ := wellFormed_hash_iff.1 hb
      refine eql_hash_iff.2 ⟨hlength.symm, ?_⟩
      intro f hf
      -- The entries of the first hash use up those of the second, so this one is matched too.
      have hpartners : Partnered EntryEql es fs :=
        ⟨hall, not_entryEql_of_distinct hdistinct hkeys ihkeys hfkeys⟩
      obtain ⟨e, he, hkey, hvalue⟩ := hpartners.exists_of_length_eq hlength f hf
      exact ⟨e, he, (ihkeys e he).1 f.1 (hfkeys f hf) hkey,
        (ihvalues e he).1 f.2 (hfvalues f hf) hvalue⟩
    · intro b c hb hc hab hbc
      obtain ⟨fs, rfl⟩ := exists_hash_of_fingerprint_eq (fingerprint_eq_of_eql hab)
      obtain ⟨gs, rfl⟩ := exists_hash_of_fingerprint_eq (fingerprint_eq_of_eql hbc)
      obtain ⟨hlength, hall⟩ := eql_hash_iff.1 hab
      obtain ⟨hlength', hall'⟩ := eql_hash_iff.1 hbc
      obtain ⟨_, hfkeys, hfvalues⟩ := wellFormed_hash_iff.1 hb
      obtain ⟨_, hgkeys, hgvalues⟩ := wellFormed_hash_iff.1 hc
      refine eql_hash_iff.2 ⟨hlength.trans hlength', ?_⟩
      intro e he
      obtain ⟨f, hf, hkey, hvalue⟩ := hall e he
      obtain ⟨g, hg, hkey', hvalue'⟩ := hall' f hf
      exact ⟨g, hg, (ihkeys e he).2 f.1 g.1 (hfkeys f hf) (hgkeys g hg) hkey hkey',
        (ihvalues e he).2 f.2 g.2 (hfvalues f hf) (hgvalues g hg) hvalue hvalue'⟩

theorem WellFormed.eql_symm (ha : a.WellFormed) (hb : b.WellFormed) (h : a.eql b = true) :
    b.eql a = true :=
  ha.lawful.1 b hb h

theorem WellFormed.eql_trans (ha : a.WellFormed) (hb : b.WellFormed) (hc : c.WellFormed)
    (h : a.eql b = true) (h' : b.eql c = true) : a.eql c = true :=
  ha.lawful.2 b c hb hc h h'

/-- Values that equal others are equal when those are. -/
theorem WellFormed.eql_congr {d : Value} (ha : a.WellFormed) (hb : b.WellFormed) (hc : c.WellFormed)
    (hd : d.WellFormed) (hac : a.eql c = true) (hbd : b.eql d = true) : a.eql b = c.eql d := by
  rw [Bool.eq_iff_iff]
  constructor
  · intro hab
    have hcb : c.eql b = true := hc.eql_trans ha hb (ha.eql_symm hc hac) hab
    exact hc.eql_trans hb hd hcb hbd
  · intro hcd
    have had : a.eql d = true := ha.eql_trans hc hd hac hcd
    exact ha.eql_trans hd hb had (hb.eql_symm hd hbd)

/-- **A key told apart is found.** The entry with an equal key that a look-up meets first is the
only one. -/
theorem get?_eq_some_of_mem {key : Value} {f : Value × Value} (hkey : key.WellFormed)
    (hfs : (Value.hash fs).WellFormed) (hf : f ∈ fs) (h : key.eql f.1 = true) :
    fs.get? key = some f.2 := by
  obtain ⟨hdistinct, hkeys, _⟩ := wellFormed_hash_iff.1 hfs
  obtain ⟨before, behind, rfl⟩ := List.append_of_mem hf
  -- An entry before it with an equal key would have a key equal to its own.
  have hothers : ∀ e ∈ before, ¬ key.equals e.1 = true := by
    intro e he hkeye
    rw [equals_eq_eql] at hkeye
    have hwf := hkeys e (List.mem_append_left _ he)
    have hback := hkey.eql_symm (hkeys f hf) h
    have hsame := (hkeys f hf).eql_trans hkey hwf hback hkeye
    have hne := (List.pairwise_append.1 hdistinct).2.2 e he f List.mem_cons_self
    rw [hsame] at hne
    cases hne
  have hfind : List.find? (fun entry => key.equals entry.1) (before ++ f :: behind) = some f := by
    refine List.find?_eq_some_iff_append.2 ⟨by rw [equals_eq_eql]; exact h, before, behind, rfl, ?_⟩
    intro e he
    simpa using hothers e he
  rw [Entries.get?, hfind]
  rfl

/-- A look-up finds the value of the entry with an equal key. -/
theorem get?_eq_some_iff {k v : Value} (hes : (hash es).WellFormed) (hk : k.WellFormed) :
    es.get? k = some v ↔ ∃ e ∈ es, k.eql e.1 = true ∧ e.2 = v := by
  constructor
  · intro h
    obtain ⟨e, hfind, rfl⟩ := Option.map_eq_some_iff.1 h
    have hsame := List.find?_some hfind
    rw [equals_eq_eql] at hsame
    exact ⟨e, List.mem_of_find?_eq_some hfind, hsame, rfl⟩
  · rintro ⟨e, he, hsame, rfl⟩
    exact get?_eq_some_of_mem hk hes he hsame

/-- Between hashes with keys told apart, an entry has an equal one exactly when the look-up of its
key finds an equal value. -/
theorem exists_entryEql_iff {e : Value × Value} (hkey : e.1.WellFormed)
    (hfs : (Value.hash fs).WellFormed) :
    (∃ f ∈ fs, EntryEql e f) ↔ ∃ value, fs.get? e.1 = some value ∧ e.2.eql value = true := by
  simp only [get?_eq_some_iff hfs hkey]
  constructor
  · rintro ⟨f, hf, hkeys, hvalues⟩
    exact ⟨f.2, ⟨f, hf, hkeys, rfl⟩, hvalues⟩
  · rintro ⟨_, ⟨f, hf, hkeys, rfl⟩, hvalue⟩
    exact ⟨f, hf, hkeys, hvalue⟩

/-- **Equality and fingerprints of values are lawful.** Over the values that can be built, the
machine's test is an equivalence; values it finds equal have one fingerprint; and of two hashes it
tests just that they have as many entries and that the second stores an equal value under each key
of the first, whatever parts of theirs are one object. -/
theorem equals_lawful :
    Equivalence (fun a b : { v : Value // v.Built } => a.val.equals b.val = true) ∧
      (∀ a b : Value, a.equals b = true → a.fingerprint = b.fingerprint) ∧
      ∀ es fs : Entries, (hash es).Built → (hash fs).Built →
        ((hash es).equals (hash fs) = true ↔ es.length = fs.length ∧
          ∀ e ∈ es, ∃ value, fs.get? e.1 = some value ∧ e.2.equals value = true) := by
  refine ⟨⟨?_, ?_, ?_⟩, ?_, ?_⟩
  · intro a
    rw [equals_eq_eql]
    exact eql_refl a.val
  · intro a b hab
    rw [equals_eq_eql] at hab ⊢
    exact a.property.wellFormed.eql_symm b.property.wellFormed hab
  · intro a b c hab hbc
    rw [equals_eq_eql] at hab hbc ⊢
    exact a.property.wellFormed.eql_trans b.property.wellFormed c.property.wellFormed hab hbc
  · intro a b hab
    rw [equals_eq_eql] at hab
    exact fingerprint_eq_of_eql hab
  · intro es fs hes hfs
    have hkeys := (wellFormed_hash_iff.1 hes.wellFormed).2.1
    simp only [equals_eq_eql]
    rw [eql_hash_iff]
    refine and_congr_right fun _ => forall₂_congr fun e he => ?_
    exact exists_entryEql_iff (hkeys e he) hfs.wellFormed

/-! ## Hashes as keys of hashes -/

/-- A hash with a pattern that is no number among its values. -/
def numbered : Value := ofPairs [(.integer 1, .float ⟨0x7FF8000000000000⟩), (.symbol "a", .nil)]

/-- The same entries, inserted the other way round. -/
def renumbered : Value := ofPairs [(.symbol "a", .nil), (.integer 1, .float ⟨0x7FF8000000000000⟩)]

theorem numbered_built : numbered.Built := by
  refine .ofPairs ?_ ?_ <;> simp only [List.forall_mem_cons] <;>
    exact ⟨.atom rfl, .atom rfl, by simp⟩

theorem renumbered_built : renumbered.Built := by
  refine .ofPairs ?_ ?_ <;> simp only [List.forall_mem_cons] <;>
    exact ⟨.atom rfl, .atom rfl, by simp⟩

/-- A hash that holds one value as a key and another as a value. -/
def nested (inner outer : Value) : Entries := .ofPairs [(inner, .integer 2), (.nil, outer)]

theorem nested_built {inner outer : Value} (hinner : inner.Built) (houter : outer.Built) :
    (hash (nested inner outer)).Built := by
  refine .ofPairs ?_ ?_ <;> simp only [List.forall_mem_cons]
  · exact ⟨hinner, .atom rfl, by simp⟩
  · exact ⟨.atom rfl, houter, by simp⟩

/-- The order in which the inner hashes were built does not count. -/
theorem equals_lawful_nested :
    (hash (nested numbered renumbered)).equals (hash (nested renumbered numbered)) = true ∧
      (hash (nested renumbered numbered)).equals (hash (nested numbered renumbered)) = true ∧
      (hash (nested numbered renumbered)).fingerprint =
        (hash (nested renumbered numbered)).fingerprint ∧
      ∀ e ∈ nested numbered renumbered,
        ∃ value, (nested renumbered numbered).get? e.1 = some value ∧
          e.2.equals value = true := by
  have hthis := nested_built numbered_built renumbered_built
  have hthat := nested_built renumbered_built numbered_built
  have h : (hash (nested numbered renumbered)).equals (hash (nested renumbered numbered)) =
      true := by decide
  refine ⟨h, ?_, equals_lawful.2.1 _ _ h, ((equals_lawful.2.2 _ _ hthis hthat).1 h).2⟩
  exact equals_lawful.1.symm (x := ⟨_, hthis⟩) (y := ⟨_, hthat⟩) h

end Value

end StackVm
