import JourneyPlanner.Proofs.Search.Fronts

/-!
# What the filter keeps

Of the journeys that no journey dominates, the filter keeps the first one of each key, in the order
of the keys, and nothing else. So a front is left as it is, and which keys are kept does not depend
on the order in which the journeys are given.
-/

namespace JourneyPlanner

namespace Journey

variable {a b j : Journey} {js js' : List Journey}

lemma sameKey_iff_key : sameKey a b = true ↔ a.key = b.key := by
  unfold sameKey key
  simp only [Bool.and_eq_true, beq_iff_eq, Prod.mk.injEq, and_assoc]

/-- Where the journeys of one key are left out, those of another key are found as before. -/
lemma find?_filter_not_sameKey {first : Journey} (rest : List Journey) :
    (rest.filter fun other => !first.sameKey other).find? j.sameKey =
      if j.sameKey first then none else rest.find? j.sameKey := by
  cases hsame : j.sameKey first with
  | true =>
    rw [if_pos rfl]
    refine List.find?_eq_none.2 fun other hother hj => ?_
    have hne := (List.mem_filter.1 hother).2
    have hkey := (sameKey_iff_key.1 hsame).symm.trans (sameKey_iff_key.1 hj)
    rw [sameKey_iff_key.2 hkey] at hne
    cases hne
  | false =>
    rw [if_neg Bool.false_ne_true, List.find?_filter]
    refine List.find?_congr fun other _ => ?_
    cases hj : j.sameKey other with
    | false => simp
    | true =>
      have hne : first.sameKey other = false := by
        rw [← Bool.not_eq_true, sameKey_iff_key]
        intro hfirst
        rw [sameKey_iff_key.2 ((sameKey_iff_key.1 hj).trans hfirst.symm)] at hsame
        cases hsame
      simp [hne]

/-- Of journeys in order, those that are left are the first ones of their keys. -/
lemma mem_dropRepeats_iff (hsorted : js.Pairwise fun a b => keyLe a b = true) :
    j ∈ dropRepeats js ↔ js.find? j.sameKey = some j := by
  fun_induction dropRepeats js with
  | case1 => simp
  | case2 first rest ih =>
    have hrest := ih ((List.pairwise_cons.1 hsorted).2.sublist (List.dropWhile_sublist _))
    rw [dropWhile_sameKey hsorted, find?_filter_not_sameKey] at hrest
    rw [List.mem_cons, dropWhile_sameKey hsorted, hrest]
    cases hsame : j.sameKey first with
    | true =>
      rw [List.find?_cons_of_pos hsame, if_pos rfl, Option.some.injEq, eq_comm]
      simp
    | false =>
      have hne : j ≠ first := by
        rintro rfl
        rw [sameKey_refl] at hsame
        cases hsame
      rw [List.find?_cons_of_neg (by rw [hsame]; exact Bool.false_ne_true),
        if_neg Bool.false_ne_true]
      simp [hne]

/-- Sorting leaves the first journey of each key before the others. -/
lemma find?_sortByKey (js : List Journey) (j : Journey) :
    (sortByKey js).find? j.sameKey = js.find? j.sameKey := by
  -- sorting is stable, so journeys of one key stay in their order
  have hone : (js.filter j.sameKey).Pairwise fun a b => keyLe a b = true := by
    refine List.pairwise_of_forall_mem_list fun a ha b hb => ?_
    have hja := sameKey_iff.1 (List.mem_filter.1 ha).2
    have hjb := sameKey_iff.1 (List.mem_filter.1 hb).2
    rw [keyLe_iff]
    omega
  rw [← List.head?_filter, ← List.head?_filter]
  exact congrArg List.head? (filter_mergeSort_of_pairwise journeyLe_trans journeyLe_total _ hone)

/-- What is dominated at all is dominated by the first journey of some key. -/
lemma dominated_by_first {other : Journey} (hother : other ∈ js) (hdominates : other.dominates j = true) :
    ∃ first ∈ dropRepeats (sortByKey js), first.dominates j = true := by
  obtain ⟨first, hfirst, hkey⟩ :=
    exists_mem_dropRepeats ((List.mergeSort_perm js keyLe).mem_iff.2 hother)
  refine ⟨first, hfirst, ?_⟩
  rw [sameKey_iff] at hkey
  rw [dominates_iff] at *
  omega

/-- The journeys that are kept: the first ones of their keys, unless some journey dominates them. -/
lemma mem_paretoFilter : j ∈ paretoFilter js ↔
    js.find? j.sameKey = some j ∧ ∀ other ∈ js, other.dominates j = false := by
  unfold paretoFilter
  rw [List.mem_filter, mem_dropRepeats_iff (pairwise_sortByKey js), find?_sortByKey,
    Bool.not_eq_true', List.any_eq_false]
  refine and_congr_right fun _ => ⟨fun hnone other hother => ?_, fun hnone first hfirst => ?_⟩
  · rw [← Bool.not_eq_true]
    intro hdominates
    obtain ⟨first, hfirst, hfirst'⟩ := dominated_by_first hother hdominates
    exact hnone first hfirst hfirst'
  · rw [hnone first (mem_sortByKey.1 (mem_of_mem_dropRepeats hfirst))]
    exact Bool.false_ne_true

lemma precedes_irrefl (a : Journey) : ¬Precedes a a := by
  rw [precedes_iff, sameKey_refl]
  exact fun h => Bool.false_ne_true h.2.symm

lemma precedes_asymm (hab : Precedes a b) : ¬Precedes b a := by
  rw [precedes_iff] at *
  rw [← Bool.not_eq_true, sameKey_iff, keyLe_iff] at *
  omega

instance : Std.Irrefl Precedes := ⟨precedes_irrefl⟩

instance : Std.Asymm Precedes := ⟨fun _ _ => precedes_asymm⟩

instance : Std.Symm fun a b : Journey => a.sameKey b = false where
  symm a b hab := by
    rw [← Bool.not_eq_true, sameKey_iff_key] at *
    exact fun hba => hab hba.symm

/-- A journey that no other one shares its key with is the first one of its key. -/
lemma find?_sameKey_of_unique (hj : j ∈ js) (h : ∀ other ∈ js, j.sameKey other = true → other = j) :
    js.find? j.sameKey = some j := by
  obtain ⟨first, hfirst⟩ := Option.isSome_iff_exists.1
    (List.find?_isSome.2 ⟨j, hj, sameKey_refl j⟩)
  rw [hfirst, h first (List.mem_of_find?_eq_some hfirst) (List.find?_some hfirst)]

lemma paretoFilter_of_isFront (h : IsFront js) : paretoFilter js = js := by
  have hunique : js.Pairwise fun a b => a.sameKey b = false :=
    h.increasing.imp fun hab => (precedes_iff.1 hab).2
  -- a strictly ordered list is known by its members
  refine List.Pairwise.eq_of_mem_iff (isFront_paretoFilter js).increasing h.increasing fun j => ?_
  rw [mem_paretoFilter]
  refine ⟨fun hkept => List.mem_of_find?_eq_some hkept.1, fun hj => ⟨?_, fun other hother =>
    h.antichain other hother j hj⟩⟩
  refine find?_sameKey_of_unique hj fun other hother hsame => ?_
  by_contra hne
  rw [hunique.forall hj hother (Ne.symm hne)] at hsame
  cases hsame

/-- Without their legs, the journeys that are kept are those that no journey dominates. -/
lemma mem_paretoFilter_withoutLegs : j ∈ paretoFilter (js.map withoutLegs) ↔
    j ∈ js.map withoutLegs ∧ ∀ other ∈ js.map withoutLegs, other.dominates j = false := by
  rw [mem_paretoFilter]
  refine and_congr_left fun _ => ⟨List.mem_of_find?_eq_some, fun hj => ?_⟩
  refine find?_sameKey_of_unique hj fun other hother hsame => ?_
  obtain ⟨a, _, rfl⟩ := List.mem_map.1 hj
  obtain ⟨b, _, rfl⟩ := List.mem_map.1 hother
  obtain ⟨hdeparture, harrival, htransfers⟩ :
      a.departure = b.departure ∧ a.arrival = b.arrival ∧ a.nbOfTransfers = b.nbOfTransfers := by
    simpa [key, withoutLegs] using sameKey_iff_key.1 hsame
  unfold withoutLegs
  rw [hdeparture, harrival, htransfers]

/-- Which keys are kept does not depend on the order of the journeys. -/
lemma map_key_paretoFilter_perm (h : js.Perm js') :
    (paretoFilter js).map key = (paretoFilter js').map key := by
  have hmem : ∀ j, j ∈ js.map withoutLegs ↔ j ∈ js'.map withoutLegs :=
    fun j => (h.map withoutLegs).mem_iff
  have hkept : (paretoFilter js).map withoutLegs = (paretoFilter js').map withoutLegs := by
    rw [map_withoutLegs_paretoFilter, map_withoutLegs_paretoFilter]
    refine List.Pairwise.eq_of_mem_iff (isFront_paretoFilter _).increasing
      (isFront_paretoFilter _).increasing fun j => ?_
    rw [mem_paretoFilter_withoutLegs, mem_paretoFilter_withoutLegs, hmem]
    simp only [hmem]
  have hkeys : ∀ js : List Journey, js.map key = (js.map withoutLegs).map key := by
    intro js
    rw [List.map_map]
    rfl
  rw [hkeys, hkept, ← hkeys]

/-- Of any journeys, the filter keeps the first one of each key that no journey dominates, in strict
order, and nothing else. So what it leaves out is dominated by a journey that it keeps, or has the
key of one; filtering again changes nothing; and in another order the journeys leave the same keys,
so that only which journey of a key is kept can change. -/
theorem paretoFilter_exact (js : List Journey) :
    (paretoFilter js).Pairwise Precedes ∧
      (∀ j, j ∈ paretoFilter js ↔
        js.find? j.sameKey = some j ∧ ∀ other ∈ js, other.dominates j = false) ∧
      (∀ j ∈ js, j ∉ paretoFilter js → ∃ kept ∈ paretoFilter js,
        kept.dominates j = true ∨ kept.sameKey j = true) ∧
      paretoFilter (paretoFilter js) = paretoFilter js ∧
      ∀ js', js.Perm js' → (paretoFilter js).map key = (paretoFilter js').map key := by
  have hfront := isFront_paretoFilter js
  refine ⟨hfront.increasing, fun _ => mem_paretoFilter, fun j hj _ => ?_,
    paretoFilter_of_isFront hfront, fun _ => map_key_paretoFilter_perm⟩
  exact exists_mem_paretoFilter hj

end Journey

end JourneyPlanner
