import StackVm.Proofs.HashPairs
/-!
# Equal hashes are equal mappings

Equality of hashes counts the entries and then only looks from the first into the second. Where keys
are told apart this comes to the same as answering every look-up alike: entries that are all found
in the other hash are no more than the other has, so if both hashes answer for each other they have
as many (`Value.eql_iff_covered`). What a hash answers is said by the pairs that it was built from,
and so is whether two hashes are equal: not by the order of pairs with different keys, nor by pairs
that a later one overwrites.
-/

namespace StackVm

namespace Value

variable {es fs : Entries} {pairs pairs' behind : Pairs} {k v : Value}

/-! ## Entries and pairs with keys told apart -/

/-- **Entries with keys told apart are left as they are when they are inserted again.** -/
theorem ofPairs_of_distinct (h : es.Distinct) : Entries.ofPairs es = es := by
  induction es using List.reverseRecOn with
  | nil => rfl
  | append_singleton es e ih =>
    obtain ⟨hes, -, hlast⟩ := List.pairwise_append.1 h
    rw [Entries.ofPairs_concat, ih hes, Entries.insert_of_new]
    intro f hf
    exact hlast f hf e List.mem_cons_self

/-- So every well-formed value can be built. -/
theorem WellFormed.built (h : v.WellFormed) : v.Built := by
  induction h with
  | atom h => exact .atom h
  | hash hdistinct _ _ hkeys hvalues =>
    have hbuilt := Built.ofPairs hkeys hvalues
    rwa [ofPairs, ofPairs_of_distinct hdistinct] at hbuilt

/-- The order of entries with keys told apart does not count for look-ups. -/
theorem get?_perm (hes : (hash es).WellFormed) (hperm : es.Perm fs) (hk : k.WellFormed) :
    es.get? k = fs.get? k := by
  obtain ⟨-, hkeys, hvalues⟩ := wellFormed_hash_iff.1 hes
  have hfs : (hash fs).WellFormed := by
    refine .hash ?_ (fun f hf => hkeys f (hperm.mem_iff.2 hf)) fun f hf =>
      hvalues f (hperm.mem_iff.2 hf)
    exact (hperm.pairwise hes.pairwise_keys fun h => ⟨h.2, h.1⟩).imp And.right
  ext v
  rw [get?_eq_some_iff hes hk, get?_eq_some_iff hfs hk]
  exact exists_congr fun e => and_congr_left fun _ => hperm.mem_iff

/-! ## Hashes that answer for each other -/

/-- Every look-up that the first answers, the second answers with an equal value. -/
def Covered (es fs : Entries) : Prop :=
  ∀ k v : Value, k.Built → es.get? k = some v → ∃ w, fs.get? k = some w ∧ v.eql w = true

/-- A hash answers for one that equals it. -/
theorem covered_of_eql (hes : (hash es).WellFormed) (hfs : (hash fs).WellFormed)
    (h : (hash es).eql (hash fs) = true) : Covered es fs := by
  intro k v hk hv
  obtain ⟨e, he, hsame, rfl⟩ := (get?_eq_some_iff hes hk.wellFormed).1 hv
  obtain ⟨f, hf, hkey, hvalue⟩ := (eql_hash_iff.1 h).2 e he
  have hkf : k.eql f.1 = true :=
    hk.wellFormed.eql_trans ((wellFormed_hash_iff.1 hes).2.1 e he)
      ((wellFormed_hash_iff.1 hfs).2.1 f hf) hsame hkey
  exact ⟨f.2, get?_eq_some_of_mem hk.wellFormed hfs hf hkf, hvalue⟩

/-- Entries that another hash answers for have partners of their own there. -/
theorem Covered.partnered (h : Covered es fs) (hes : (hash es).WellFormed)
    (hfs : (hash fs).WellFormed) : Partnered EntryEql es fs := by
  obtain ⟨hdistinct, hkeys, -⟩ := wellFormed_hash_iff.1 hes
  obtain ⟨-, hfkeys, -⟩ := wellFormed_hash_iff.1 hfs
  refine ⟨fun e he => ?_,
    not_entryEql_of_distinct hdistinct hkeys (fun e he => (hkeys e he).lawful) hfkeys⟩
  have hkey := hkeys e he
  exact (exists_entryEql_iff hkey hfs).2
    (h e.1 e.2 hkey.built (get?_eq_some_of_mem hkey hes he e.1.eql_refl))

/-- **Hashes are equal just when each answers for the other.** -/
theorem eql_iff_covered (hes : (hash es).WellFormed) (hfs : (hash fs).WellFormed) :
    (hash es).eql (hash fs) = true ↔ Covered es fs ∧ Covered fs es := by
  constructor
  · intro h
    exact ⟨covered_of_eql hes hfs h, covered_of_eql hfs hes (hes.eql_symm hfs h)⟩
  · rintro ⟨hthere, hback⟩
    have hpartners := hthere.partnered hes hfs
    have hle := hpartners.length_le
    have hge := (hback.partnered hfs hes).length_le
    exact eql_hash_iff.2 ⟨by omega, hpartners.1⟩

theorem WellFormed.of_get? (hes : (Value.hash es).WellFormed) (hk : k.Built)
    (hv : es.get? k = some v) : v.WellFormed := by
  obtain ⟨e, he, -, rfl⟩ := (get?_eq_some_iff hes hk.wellFormed).1 hv
  exact (wellFormed_hash_iff.1 hes).2.2 e he

/-- Two answers agree if each has a partner in the other. -/
theorem optionRel_iff {R : Value → Value → Prop} {a b : Option Value} :
    Option.Rel R a b ↔
      (∀ v, a = some v → ∃ w, b = some w ∧ R v w) ∧ ∀ w, b = some w → ∃ v, a = some v ∧ R v w := by
  cases a <;> cases b <;> simp

/-- Both answer for each other if every look-up is answered alike or by neither. -/
theorem covered_iff_rel (hes : (hash es).WellFormed) (hfs : (hash fs).WellFormed) :
    Covered es fs ∧ Covered fs es ↔
      ∀ k : Value, k.Built → Option.Rel (fun v w => v.eql w = true) (es.get? k) (fs.get? k) := by
  constructor
  · rintro ⟨hthere, hback⟩ k hk
    refine optionRel_iff.2 ⟨fun v hv => hthere k v hk hv, fun w hw => ?_⟩
    obtain ⟨v, hv, hwv⟩ := hback k w hk hw
    exact ⟨v, hv, (hfs.of_get? hk hw).eql_symm (hes.of_get? hk hv) hwv⟩
  · intro h
    refine ⟨fun k v hk hv => (optionRel_iff.1 (h k hk)).1 v hv, fun k w hk hw => ?_⟩
    obtain ⟨v, hv, hvw⟩ := (optionRel_iff.1 (h k hk)).2 w hw
    exact ⟨v, hv, (hes.of_get? hk hv).eql_symm (hfs.of_get? hk hw) hvw⟩

/-! ## Hashes of pairs -/

/-- **Hashes are equal just when every key was last given equal values, or none.** -/
theorem eql_ofPairs_iff (h : pairs.AllBuilt) (h' : pairs'.AllBuilt) :
    (ofPairs pairs).eql (ofPairs pairs') = true ↔
      ∀ k : Value, k.Built →
        Option.Rel (fun v w => v.eql w = true) (pairs.last? k) (pairs'.last? k) := by
  have hes := h.ofPairs.wellFormed
  have hfs := h'.ofPairs.wellFormed
  rw [ofPairs, ofPairs, eql_iff_covered hes hfs, covered_iff_rel hes hfs]
  refine forall₂_congr fun k hk => ?_
  rw [get?_ofPairs h hk.wellFormed, get?_ofPairs h' hk.wellFormed]

/-- Pairs that give every key the same value last build equal hashes. -/
theorem eql_ofPairs_of_last? (h : pairs.AllBuilt) (h' : pairs'.AllBuilt)
    (hlast : ∀ k : Value, k.Built → pairs.last? k = pairs'.last? k) :
    (ofPairs pairs).eql (ofPairs pairs') = true := by
  refine (eql_ofPairs_iff h h').2 fun k hk => ?_
  rw [hlast k hk]
  cases pairs'.last? k with
  | none => exact .none
  | some v => exact .some v.eql_refl

/-- **The order of pairs with different keys does not count.** -/
theorem last?_perm (h : pairs.AllBuilt) (hapart : pairs.Pairwise fun p q => p.1.eql q.1 = false)
    (hperm : pairs.Perm pairs') (hk : k.WellFormed) : pairs.last? k = pairs'.last? k := by
  -- From the end, the pairs are the entries of a hash.
  have hreverse : (hash pairs.reverse).WellFormed := by
    refine .hash (List.pairwise_reverse.2 hapart) ?_ ?_
    · exact fun p hp => (h p (List.mem_reverse.1 hp)).1.wellFormed
    · exact fun p hp => (h p (List.mem_reverse.1 hp)).2.wellFormed
  have hperm' : pairs.reverse.Perm pairs'.reverse :=
    (List.reverse_perm pairs).trans (hperm.trans (List.reverse_perm pairs').symm)
  have hsame := get?_perm hreverse hperm' hk
  simpa only [Pairs.last?, Entries.get?, List.findRev?_eq_find?_reverse] using hsame

/-- **A pair does not count that a later one overwrites.** -/
theorem last?_overwritten {p q : Value × Value} (h : Pairs.AllBuilt (p :: behind))
    (hq : q ∈ behind) (hsame : p.1.eql q.1 = true) (hk : k.WellFormed) :
    Pairs.last? (p :: behind) k = Pairs.last? behind k := by
  obtain ⟨hp, hbehind⟩ := List.forall_mem_cons.1 h
  have hsplit : p :: behind = [p] ++ behind := rfl
  rw [hsplit, Pairs.last?_append, Pairs.last?_singleton]
  split
  · rename_i hkp
    have hkq : k.eql q.1 = true :=
      hk.eql_trans hp.1.wellFormed (hbehind q hq).1.wellFormed hkp hsame
    refine Option.or_of_isSome ?_
    rw [Pairs.isSome_last?]
    exact List.any_eq_true.2 ⟨q, hq, hkq⟩
  · exact Option.or_none

/-- **Equality of hashes is equality of mappings.** Hashes built from pairs are equal just when
every value that can be built is, as a key, last given equal values by both lists of pairs, or no
value by either. So pairs with keys that all differ can be put in any order, wherever they stand,
and a pair that a later one overwrites can be left out; and a hash built from its own entries has
the same entries in the same order. -/
theorem ofPairs_extensional :
    (∀ pairs pairs' : Pairs, pairs.AllBuilt → pairs'.AllBuilt →
      ((ofPairs pairs).equals (ofPairs pairs') = true ↔
        ∀ key : Value, key.Built →
          Option.Rel (fun v w => v.equals w = true) (pairs.last? key) (pairs'.last? key))) ∧
      (∀ before pairs pairs' behind : Pairs, Pairs.AllBuilt (before ++ pairs ++ behind) →
        (pairs.Pairwise fun p q => p.1.equals q.1 = false) → pairs.Perm pairs' →
        (ofPairs (before ++ pairs ++ behind)).equals (ofPairs (before ++ pairs' ++ behind)) =
          true) ∧
      (∀ (before behind : Pairs) (p : Value × Value), Pairs.AllBuilt (before ++ p :: behind) →
        (∃ q ∈ behind, p.1.equals q.1 = true) →
        (ofPairs (before ++ p :: behind)).equals (ofPairs (before ++ behind)) = true) ∧
      ∀ es : Entries, (hash es).Built → ofPairs es = hash es := by
  simp only [equals_eq_eql]
  refine ⟨fun pairs pairs' => eql_ofPairs_iff, ?_, ?_, ?_⟩
  · intro before pairs pairs' behind hbuilt hapart hperm
    have hperm' : (before ++ pairs ++ behind).Perm (before ++ pairs' ++ behind) :=
      (hperm.append_left before).append_right behind
    have hmiddle : pairs.AllBuilt := fun p hp => hbuilt p (by simp [hp])
    refine eql_ofPairs_of_last? hbuilt (fun p hp => hbuilt p (hperm'.mem_iff.2 hp)) fun k hk => ?_
    simp only [Pairs.last?_append, last?_perm hmiddle hapart hperm hk.wellFormed]
  · rintro before behind p hbuilt ⟨q, hq, hsame⟩
    have hend : Pairs.AllBuilt (p :: behind) := fun r hr => hbuilt r (List.mem_append_right _ hr)
    have hless : Pairs.AllBuilt (before ++ behind) := by
      intro r hr
      refine hbuilt r ?_
      rcases List.mem_append.1 hr with hr | hr
      · exact List.mem_append_left _ hr
      · exact List.mem_append_right _ (List.mem_cons_of_mem p hr)
    refine eql_ofPairs_of_last? hbuilt hless fun k hk => ?_
    rw [Pairs.last?_append, last?_overwritten hend hq hsame hk.wellFormed, Pairs.last?_append]
  · intro es hbuilt
    rw [ofPairs, ofPairs_of_distinct (wellFormed_hash_iff.1 hbuilt.wellFormed).1]

/-- A hash as a key, and as a value under another. -/
def keyed : Pairs := [(numbered, .integer 1), (.nil, numbered)]

theorem allBuilt_keyed : keyed.AllBuilt := by
  simp only [Pairs.AllBuilt, keyed, List.forall_mem_cons]
  exact ⟨⟨numbered_built, .atom rfl⟩, ⟨.atom rfl, numbered_built⟩, by simp⟩

/-- The pairs can be turned round, and one in front of them that has the first key in another order
is overwritten; without the first pair it is another hash. -/
theorem ofPairs_extensional_keyed :
    Pairs.AllBuilt ((renumbered, .nil) :: keyed) ∧
      (keyed.Pairwise fun p q => p.1.equals q.1 = false) ∧
      (ofPairs keyed).equals (ofPairs keyed.reverse) = true ∧
      (ofPairs ((renumbered, .nil) :: keyed)).equals (ofPairs keyed) = true ∧
      (ofPairs keyed).equals (ofPairs [(.nil, numbered)]) = false ∧
      ofPairs (Entries.ofPairs keyed) = ofPairs keyed := by
  obtain ⟨hiff, hreorder, hdrop, hrebuild⟩ := ofPairs_extensional
  have hmore : Pairs.AllBuilt ((renumbered, .nil) :: keyed) :=
    List.forall_mem_cons.2 ⟨⟨renumbered_built, .atom rfl⟩, allBuilt_keyed⟩
  have hless : Pairs.AllBuilt [(.nil, numbered)] := fun p hp => allBuilt_keyed p (by
    rw [List.mem_singleton.1 hp]
    exact List.mem_cons_of_mem _ List.mem_cons_self)
  have hapart : keyed.Pairwise fun p q => p.1.equals q.1 = false := by decide +kernel
  refine ⟨hmore, hapart, ?_, ?_, ?_, hrebuild _ allBuilt_keyed.ofPairs⟩
  · exact hreorder [] keyed keyed.reverse [] allBuilt_keyed hapart (List.reverse_perm keyed).symm
  · exact hdrop [] keyed (renumbered, .nil) hmore
      ⟨(numbered, .integer 1), List.mem_cons_self, by decide +kernel⟩
  · rw [Bool.eq_false_iff]
    intro heq
    have hrel := (hiff keyed [(.nil, numbered)] allBuilt_keyed hless).1 heq numbered numbered_built
    cases hrel

end Value

end StackVm
