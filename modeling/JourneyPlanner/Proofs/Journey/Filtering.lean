import Mathlib.Data.Finset.Max
import Mathlib.Data.List.TakeWhile
import Mathlib.Tactic.Common
import JourneyPlanner.Journey.Basic
import JourneyPlanner.Proofs.Data.Sorting
import JourneyPlanner.Proofs.Time.Midnights

/-!
# Sorting and filtering journeys

What `paretoFilter` leaves out is dominated by a journey that it keeps, or has the key of one. A
restriction that goes with keys and with domination can be made before the journeys are sorted and
filtered, or after.
-/

namespace JourneyPlanner

namespace Journey

variable {a b j : Journey} {js : List Journey} {keep : Journey → Bool}

lemma keyLe_iff : keyLe a b = true ↔ a.departure.minutes < b.departure.minutes ∨
    (a.departure.minutes = b.departure.minutes ∧ (a.arrival.minutes < b.arrival.minutes ∨
      (a.arrival.minutes = b.arrival.minutes ∧ a.nbOfTransfers ≤ b.nbOfTransfers))) := by
  have heq : ∀ t u : Instant, t = u ↔ t.minutes = u.minutes :=
    fun t u => ⟨congrArg Instant.minutes, Instant.ext⟩
  unfold keyLe
  simp only [Bool.or_eq_true, Bool.and_eq_true, decide_eq_true_eq, beq_iff_eq, heq]
  exact Iff.rfl

lemma sameKey_iff : sameKey a b = true ↔ a.departure.minutes = b.departure.minutes ∧
    a.arrival.minutes = b.arrival.minutes ∧ a.nbOfTransfers = b.nbOfTransfers := by
  have heq : ∀ t u : Instant, t = u ↔ t.minutes = u.minutes :=
    fun t u => ⟨congrArg Instant.minutes, Instant.ext⟩
  unfold sameKey
  simp only [Bool.and_eq_true, beq_iff_eq, heq, and_assoc]

lemma dominates_iff : dominates a b = true ↔
    (b.departure.minutes ≤ a.departure.minutes ∧ a.arrival.minutes ≤ b.arrival.minutes ∧
      a.nbOfTransfers ≤ b.nbOfTransfers) ∧
    (b.departure.minutes < a.departure.minutes ∨ a.arrival.minutes < b.arrival.minutes ∨
      a.nbOfTransfers < b.nbOfTransfers) := by
  unfold dominates
  simp only [Bool.or_eq_true, Bool.and_eq_true, decide_eq_true_eq, and_assoc, or_assoc]
  exact Iff.rfl

lemma journeyLe_trans (a b c : Journey) (hab : keyLe a b = true) (hbc : keyLe b c = true) :
    keyLe a c = true := by
  rw [keyLe_iff] at *
  omega

lemma journeyLe_total (a b : Journey) : (keyLe a b || keyLe b a) = true := by
  rw [Bool.or_eq_true, keyLe_iff, keyLe_iff]
  omega

lemma sameKey_refl (a : Journey) : sameKey a a = true := sameKey_iff.2 ⟨rfl, rfl, rfl⟩

/-- Between two journeys of one key, in order, there are only journeys of this key. -/
lemma sameKey_of_keyLe (hab : keyLe a b = true) (hbc : keyLe b c = true)
    (hac : sameKey a c = true) : sameKey a b = true := by
  rw [keyLe_iff] at *
  rw [sameKey_iff] at *
  omega

/-- In order, those of the first key are those at the beginning. -/
lemma dropWhile_sameKey (hsorted : (j :: js).Pairwise fun a b => keyLe a b = true) :
    js.dropWhile j.sameKey = js.filter fun other => !j.sameKey other := by
  induction js with
  | nil => rfl
  | cons a rest ih =>
    obtain ⟨hfirst, hrest⟩ := List.pairwise_cons.1 hsorted
    obtain ⟨hnext, _⟩ := List.pairwise_cons.1 hrest
    cases hsame : j.sameKey a with
    | true =>
      rw [List.dropWhile_cons_of_pos hsame, List.filter_cons_of_neg (by rw [hsame]; decide)]
      exact ih (hsorted.sublist ((List.sublist_cons_self a rest).cons_cons j))
    | false =>
      rw [List.dropWhile_cons_of_neg (by rw [hsame]; exact Bool.false_ne_true)]
      refine (List.filter_eq_self.2 fun b hb => ?_).symm
      rcases List.mem_cons.1 hb with rfl | hb
      · rw [hsame]
        rfl
      · rw [Bool.not_eq_true', Bool.eq_false_iff]
        intro hother
        rw [sameKey_of_keyLe (hfirst a List.mem_cons_self) (hnext b hb) hother] at hsame
        cases hsame

/-- Sorted journeys can be restricted before or after only one of each key is left, when a
restriction goes with keys. -/
lemma filter_dropRepeats (hkeys : ∀ a b, sameKey a b = true → keep a = keep b)
    (hsorted : js.Pairwise fun a b => keyLe a b = true) :
    (dropRepeats js).filter keep = dropRepeats (js.filter keep) := by
  fun_induction dropRepeats js with
  | case1 => rw [List.filter_nil, dropRepeats]
  | case2 j rest ih =>
    have hih := ih ((List.pairwise_cons.1 hsorted).2.sublist (List.dropWhile_sublist _))
    have hdrop := dropWhile_sameKey hsorted
    cases hkeep : keep j with
    | true =>
      have hsorted' : (j :: rest.filter keep).Pairwise fun a b => keyLe a b = true :=
        hsorted.sublist (List.filter_sublist.cons_cons j)
      rw [List.filter_cons_of_pos hkeep, List.filter_cons_of_pos hkeep, hih, dropRepeats, hdrop,
        dropWhile_sameKey hsorted', List.filter_comm]
    | false =>
      have hneg : ¬keep j = true := by
        rw [hkeep]
        exact Bool.false_ne_true
      rw [List.filter_cons_of_neg hneg, List.filter_cons_of_neg hneg, hih, hdrop,
        List.filter_filter]
      congr 1
      refine List.filter_congr fun b _ => ?_
      cases hsame : j.sameKey b with
      | true =>
        rw [← hkeys j b hsame, hkeep]
        rfl
      | false => rw [Bool.not_false, Bool.and_true]

lemma exists_mem_dropRepeats (h : j ∈ js) : ∃ j' ∈ dropRepeats js, j'.sameKey j = true := by
  fun_induction dropRepeats js with
  | case1 => cases h
  | case2 first rest ih =>
    rcases List.mem_cons.1 h with rfl | h
    · exact ⟨_, List.mem_cons_self, sameKey_refl _⟩
    · cases hsame : first.sameKey j with
      | true => exact ⟨first, List.mem_cons_self, hsame⟩
      | false =>
        have hmem : j ∈ rest.dropWhile first.sameKey := by
          rw [← List.takeWhile_append_dropWhile (p := first.sameKey) (l := rest)] at h
          rcases List.mem_append.1 h with htake | hdrop
          · rw [List.mem_takeWhile_imp htake] at hsame
            cases hsame
          · exact hdrop
        obtain ⟨j', hj', hkey⟩ := ih hmem
        exact ⟨j', List.mem_cons_of_mem _ hj', hkey⟩

/-- What journeys are compared by. -/
def key (j : Journey) : Instant × Instant × Nat := (j.departure, j.arrival, j.nbOfTransfers)

/-- The journey with its key and nothing else. -/
def withoutLegs (j : Journey) : Journey := { j with legs := [] }

lemma map_withoutLegs_sortByKey (js : List Journey) :
    (sortByKey js).map withoutLegs = sortByKey (js.map withoutLegs) :=
  List.map_mergeSort fun _ _ _ _ => rfl

lemma map_withoutLegs_dropRepeats (js : List Journey) :
    (dropRepeats js).map withoutLegs = dropRepeats (js.map withoutLegs) := by
  fun_induction dropRepeats js with
  | case1 => rw [List.map_nil, dropRepeats]
  | case2 j rest ih =>
    rw [List.map_cons, ih, List.map_cons, dropRepeats, List.dropWhile_map]
    rfl

/-- Which journeys are kept, and in which order, can be told from their keys. -/
lemma map_withoutLegs_paretoFilter (js : List Journey) :
    (paretoFilter js).map withoutLegs = paretoFilter (js.map withoutLegs) := by
  unfold paretoFilter
  rw [← map_withoutLegs_sortByKey, ← map_withoutLegs_dropRepeats, List.filter_map]
  congr 1
  refine List.filter_congr fun j _ => ?_
  rw [Function.comp_apply, List.any_map]
  rfl

lemma filter_sortByKey (keep : Journey → Bool) (js : List Journey) :
    (sortByKey js).filter keep = sortByKey (js.filter keep) :=
  filter_mergeSort journeyLe_trans journeyLe_total keep js

/-- Journeys can be restricted before or after they are filtered, when a restriction goes with keys
and keeps what dominates what it keeps. -/
lemma filter_paretoFilter (hkeys : ∀ a b, sameKey a b = true → keep a = keep b)
    (hdominates : ∀ a b, dominates a b = true → keep b = true → keep a = true)
    (js : List Journey) : (paretoFilter js).filter keep = paretoFilter (js.filter keep) := by
  have hsorted : (sortByKey js).Pairwise fun a b => keyLe a b = true :=
    List.pairwise_mergeSort journeyLe_trans journeyLe_total js
  have hdistinct : dropRepeats (sortByKey (js.filter keep)) =
      (dropRepeats (sortByKey js)).filter keep := by
    rw [filter_dropRepeats hkeys hsorted, filter_sortByKey]
  unfold paretoFilter
  dsimp only
  rw [hdistinct]
  generalize dropRepeats (sortByKey js) = distinct
  rw [List.filter_comm]
  refine List.filter_congr fun b hb => ?_
  have hall : ∀ a, (keep a && a.dominates b) = a.dominates b := by
    intro a
    cases hdominated : a.dominates b with
    | false => rw [Bool.and_false]
    | true => rw [hdominates a b hdominated (List.mem_filter.1 hb).2, Bool.and_true]
  rw [List.any_filter]
  simp only [hall]

/-- What is left out is dominated by a journey that is kept, or has the key of one. -/
lemma exists_mem_paretoFilter (h : j ∈ js) : ∃ j' ∈ paretoFilter js,
    j'.dominates j = true ∨ j'.sameKey j = true := by
  obtain ⟨first, hfirst, hkey⟩ := exists_mem_dropRepeats
    ((List.mergeSort_perm js keyLe).mem_iff.2 h)
  -- Among the journeys as good as `j`, the one with the least sum is dominated by none.
  have hmin := Finset.exists_min_image
    ((dropRepeats (sortByKey js)).filter fun a => a.dominates j || a.sameKey j).toFinset
    (fun a => a.arrival.minutes - a.departure.minutes + a.nbOfTransfers)
    ⟨first, List.mem_toFinset.2 (List.mem_filter.2 ⟨hfirst, by rw [hkey, Bool.or_true]⟩)⟩
  obtain ⟨least, hleast, hle⟩ := hmin
  obtain ⟨hmem, hgood⟩ := List.mem_filter.1 (List.mem_toFinset.1 hleast)
  rw [Bool.or_eq_true] at hgood
  refine ⟨least, List.mem_filter.2 ⟨hmem, ?_⟩, hgood⟩
  rw [Bool.not_eq_true', Bool.eq_false_iff]
  intro hany
  obtain ⟨a, ha, hdominates⟩ := List.any_eq_true.1 hany
  have hbetter : a.dominates j = true := by
    rw [dominates_iff] at *
    rw [sameKey_iff] at hgood
    omega
  have hless := hle a (List.mem_toFinset.2 (List.mem_filter.2 ⟨ha, by rw [hbetter]; rfl⟩))
  rw [dominates_iff] at hdominates
  omega

end Journey

end JourneyPlanner
