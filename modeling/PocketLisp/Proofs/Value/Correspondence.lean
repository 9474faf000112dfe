import PocketLisp.Proofs.Value.Dictionary

/-!
# Equal maps correspond entry by entry

Maps are compared by looking up the keys of one in the other.  Because no two keys of a map are
equal, this succeeds exactly if there is a one-to-one correspondence of their entries under which
keys and values are equal.  So the order of the entries is of no account, nor is the order of the
pairs that a map comes from, if their keys are all different.
-/

namespace PocketLisp.Value

/-- Equal maps are those whose entries correspond one to one. -/
theorem equal_map_iff_exists_equiv {x y : Entries} (hx : Built (map x)) (hy : Built (map y)) :
  equal (map x) (map y) ↔
    ∃ f : Fin x.length ≃ Fin y.length, ∀ i, EqualEntries x[i] y[f i]
  := by
  rw [equal_map_iff hx hy]
  constructor
  · rintro ⟨hlength, hentries⟩
    apply exists_equiv_of_matching hlength hentries
    have hbound := equivalenceBelow (sizeOf (map x) + sizeOf (map y))
    apply hbound.pairwise_partners ⟨hx, _⟩ ⟨hy, _⟩ <;> omega
  · rintro ⟨f, hf⟩
    use Fin.equiv_iff_eq.mp ⟨f⟩
    apply (exists_of_equiv hf).1

/-- The order of pairs plays no part in whether a key is equal to one before it. -/
theorem keysUnequal_of_perm {pairs pairs' : List (Value × Value)} (hperm : pairs.Perm pairs')
    (hkeys : ∀ pair ∈ pairs, Built pair.1) (h : Entries.KeysUnequal pairs) :
  Entries.KeysUnequal pairs'
  := by
  have hunequal := hperm.pairwise (pairwise_unequal hkeys h) fun hunequal => hunequal.symm
  apply hunequal.imp And.left

/-- Maps from the same pairs in any order are equal, if the keys are all different and not-a-number
is nowhere. -/
theorem equal_map_of_perm {pairs pairs' : List (Value × Value)} (hperm : pairs.Perm pairs')
    (h : Entries.KeysUnequal pairs) (hkeys : ∀ pair ∈ pairs, Built pair.1 ∧ ¬ HasNaN pair.1)
    (hvalues : ∀ pair ∈ pairs, Built pair.2 ∧ ¬ HasNaN pair.2) :
  equal (map (Entries.ofList pairs)) (map (Entries.ofList pairs'))
  := by
  have hbuilt : Built (map (Entries.ofList pairs)) :=
    .map (fun pair hpair => (hkeys pair hpair).1) fun pair hpair => (hvalues pair hpair).1
  have hbuilt' : Built (map (Entries.ofList pairs')) :=
    .map (fun pair hpair => (hkeys pair (hperm.mem_iff.mpr hpair)).1)
      fun pair hpair => (hvalues pair (hperm.mem_iff.mpr hpair)).1
  have h' := keysUnequal_of_perm hperm (fun pair hpair => (hkeys pair hpair).1) h
  rw [equal_map_iff hbuilt hbuilt', h.ofList_eq_self, h'.ofList_eq_self]
  use hperm.length_eq
  intro pair hpair
  obtain ⟨hbuiltKey, hkey⟩ := hkeys pair hpair
  obtain ⟨hbuiltValue, hvalue⟩ := hvalues pair hpair
  use pair, hperm.mem_iff.mp hpair, (equal_self_iff hbuiltKey).mpr hkey
  apply (equal_self_iff hbuiltValue).mpr hvalue

/-- Maps are compared by their sizes and by looking up the keys of one in the other.  They are equal
exactly if their entries correspond one to one, keys being equal to keys and values to values; so
maps from the same pairs in two orders are, if the keys are all different and not-a-number is
nowhere. -/
theorem equal_map_correspondence {x y : Entries} (hx : Built (map x)) (hy : Built (map y)) :
  equal (map x) (map y)
    = (x.length == y.length && x.all fun entry => (Entries.get? y entry.1).any (equal entry.2)) ∧
  (equal (map x) (map y) ↔
    ∃ f : Fin x.length ≃ Fin y.length, ∀ i, EqualEntries x[i] y[f i]) ∧
  ∀ pairs pairs' : List (Value × Value), pairs.Perm pairs' → Entries.KeysUnequal pairs →
    (∀ pair ∈ pairs, Built pair.1 ∧ ¬ HasNaN pair.1) →
    (∀ pair ∈ pairs, Built pair.2 ∧ ¬ HasNaN pair.2) →
    equal (map (Entries.ofList pairs)) (map (Entries.ofList pairs'))
  := by
  use equal_map_eq_all_get? hx hy, equal_map_iff_exists_equiv hx hy
  intro pairs pairs'
  apply equal_map_of_perm

/-- Maps may have keys that are maps, equal and not the same. -/
theorem equal_map_correspondence_keyedByMap :
  ∃ p q q' : Value × Value,
    p = (keyword "k", nil) ∧
    q = (keyedByMap (float 0) (integer 1), boolean true) ∧
    q' = (keyedByMap (integer 1) (float 0), boolean true) ∧
    equal (map (Entries.ofList [p, q])) (map (Entries.ofList [q', p])) ∧
    (∃ f : Fin (Entries.ofList [p, q]).length ≃ Fin (Entries.ofList [q', p]).length,
      ∀ i, EqualEntries (Entries.ofList [p, q])[i] (Entries.ofList [q', p])[f i]) ∧
    equal (map (Entries.ofList [p, q])) (map (Entries.ofList [q, p]))
  := by
  obtain ⟨p, hp⟩ : ∃ p : Value × Value, p = (keyword "k", nil) := ⟨_, rfl⟩
  obtain ⟨q, hq⟩ : ∃ q : Value × Value, q = (keyedByMap (float 0) (integer 1), boolean true) :=
    ⟨_, rfl⟩
  obtain ⟨q', hq'⟩ : ∃ q : Value × Value, q = (keyedByMap (integer 1) (float 0), boolean true) :=
    ⟨_, rfl⟩
  have hbuiltP : Built p.1 ∧ Built p.2 := hp ▸ ⟨.other rfl, .other rfl⟩
  have hbuiltQ : Built q.1 ∧ Built q.2 :=
    hq ▸ ⟨built_keyedByMap (.other rfl) (.other rfl), .other rfl⟩
  have hbuiltQ' : Built q'.1 ∧ Built q'.2 :=
    hq' ▸ ⟨built_keyedByMap (.other rfl) (.other rfl), .other rfl⟩
  have hbuilt {a b : Value × Value} (ha : Built a.1 ∧ Built a.2) (hb : Built b.1 ∧ Built b.2) :
      Built (map (Entries.ofList [a, b])) := by
    apply Built.map <;> simp [ha, hb]
  have hequal : equal (map (Entries.ofList [p, q])) (map (Entries.ofList [q', p])) := by
    rw [hp, hq, hq']
    decide +kernel
  have hkeys : Entries.KeysUnequal [p, q] := by
    apply List.pairwise_pair.mpr
    rw [hp, hq]
    decide +kernel
  have hself : ∀ pair ∈ [p, q], equal pair.1 pair.1 ∧ equal pair.2 pair.2 := by
    rw [hp, hq]
    decide +kernel
  have hbuilts : ∀ pair ∈ [p, q], Built pair.1 ∧ Built pair.2 := by
    simp [hbuiltP, hbuiltQ]
  obtain ⟨-, hiff, hperm⟩ :=
    equal_map_correspondence (hbuilt hbuiltP hbuiltQ) (hbuilt hbuiltQ' hbuiltP)
  refine ⟨p, q, q', hp, hq, hq', hequal, hiff.mp hequal,
    hperm [p, q] [q, p] (.swap q p []) hkeys (fun pair hpair => ?_) fun pair hpair => ?_⟩
  · obtain ⟨hbuilt, -⟩ := hbuilts pair hpair
    use hbuilt, (equal_self_iff hbuilt).mp (hself pair hpair).1
  · obtain ⟨-, hbuilt⟩ := hbuilts pair hpair
    use hbuilt, (equal_self_iff hbuilt).mp (hself pair hpair).2

end PocketLisp.Value
