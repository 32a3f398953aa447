import Mathlib.Tactic.Common
import JourneyPlanner.Search.Assignment

/-!
# Giving via stops to visits

Via stops are given to visits in order. Whoever gives each visit as many of them as it is long
enough for never falls behind: if the via stops can be given at all, they are given that way.
-/

namespace JourneyPlanner

namespace ViaStop

variable {vias others served left : List ViaStop} {visits later : List Visit} {visit : Visit}
  {via : ViaStop}

/-- A via stop that may be stayed at for any time. -/
def unbounded (via : ViaStop) : ViaStop := { via with maxStay := none }

/-- A visit is at the location of several via stops, and long enough for all of them. -/
structure SuitedTo (visit : Visit) (vias : List ViaStop) : Prop where
  at_location : ∀ via ∈ vias, via.location = visit.location
  long_enough : totalStay vias ≤ visit.stay.minutes

@[simp] lemma totalStay_nil : totalStay [] = 0 := rfl

@[simp] lemma totalStay_cons (via : ViaStop) (vias : List ViaStop) :
    totalStay (via :: vias) = via.stay.minutes + totalStay vias := rfl

lemma totalStay_append (vias others : List ViaStop) :
    totalStay (vias ++ others) = totalStay vias + totalStay others := by
  induction vias with
  | nil => exact (Nat.zero_add _).symm
  | cons via vias ih => rw [List.cons_append, totalStay_cons, totalStay_cons, ih, Nat.add_assoc]

lemma totalStay_reverse (vias : List ViaStop) : totalStay vias.reverse = totalStay vias := by
  induction vias with
  | nil => rfl
  | cons via vias ih =>
    rw [List.reverse_cons, totalStay_append, ih, totalStay_cons, totalStay_cons, totalStay_nil]
    omega

lemma totalStay_map_unbounded (vias : List ViaStop) :
    totalStay (vias.map unbounded) = totalStay vias := by
  induction vias with
  | nil => rfl
  | cons via vias ih => rw [List.map_cons, totalStay_cons, totalStay_cons, ih]; rfl

lemma servedBy_nil (visit : Visit) : ServedBy [] visit :=
  ⟨fun _ hvia => absurd hvia List.not_mem_nil, Nat.zero_le _,
    fun _ hvia => absurd hvia List.not_mem_nil⟩

lemma servedBy_unbounded_iff : ServedBy (vias.map unbounded) visit ↔ SuitedTo visit vias := by
  constructor
  · intro h
    refine ⟨fun via hvia => h.at_location via.unbounded (List.mem_map_of_mem hvia), ?_⟩
    rw [← totalStay_map_unbounded]
    exact h.long_enough
  · intro h
    refine ⟨fun via hvia => ?_, ?_, fun via hvia longest hlongest => ?_⟩
    · obtain ⟨bounded, hbounded, rfl⟩ := List.mem_map.1 hvia
      exact h.at_location bounded hbounded
    · rw [totalStay_map_unbounded]
      exact h.long_enough
    · obtain ⟨bounded, _, rfl⟩ := List.mem_map.1 hvia
      cases hlongest

lemma ServedBy.reverse (h : ServedBy vias visit) : ServedBy vias.reverse visit := by
  refine ⟨fun via hvia => h.at_location via (List.mem_reverse.1 hvia), ?_,
    fun via hvia => h.permitted via (List.mem_reverse.1 hvia)⟩
  rw [totalStay_reverse]
  exact h.long_enough

/-- Via stops are checked for visits that they do not allow. -/
lemma not_permits_iff : ¬via.Permits visit ↔
    (via.maxStay.map fun longest => decide (longest < visit.stay)).getD false = true := by
  unfold Permits
  cases via.maxStay with
  | none => exact iff_of_false (fun h => h fun _ hlongest => nomatch hlongest) Bool.false_ne_true
  | some longest =>
    rw [Option.map_some, Option.getD_some, decide_eq_true_eq]
    constructor
    · intro h
      apply Nat.lt_of_not_le
      intro hle
      apply h
      rintro _ ⟨⟩
      exact hle
    · intro hlonger hpermits
      exact Nat.not_le_of_lt hlonger (hpermits longest rfl)

lemma ServedBy.suffix (h : ServedBy (others ++ vias) visit) : ServedBy vias visit := by
  have hlong := h.long_enough
  rw [totalStay_append] at hlong
  exact ⟨fun via hvia => h.at_location via (List.mem_append_right _ hvia), by omega,
    fun via hvia => h.permitted via (List.mem_append_right _ hvia)⟩

/-- The first visit serves the first via stops, possibly none of them. -/
lemma assigned_cons_iff : Assigned vias (visit :: visits) ↔ ∃ served left, vias = served ++ left ∧
    ServedBy served visit ∧ Assigned left visits := by
  constructor
  · intro h
    cases h with
    | done _ => exact ⟨[], [], rfl, servedBy_nil visit, .done visits⟩
    | pass _ h => exact ⟨[], vias, rfl, servedBy_nil visit, h⟩
    | give _ hserved h => exact ⟨_, _, rfl, hserved, h⟩
  · rintro ⟨served, left, rfl, hserved, h⟩
    exact .give visit hserved h

lemma assigned_of_servedBy (h : ServedBy vias visit) : Assigned vias [visit] := by
  have hgiven := Assigned.give visit h (.done [])
  rw [List.append_nil] at hgiven
  exact hgiven

lemma eq_nil_of_assigned (h : Assigned vias []) : vias = [] := by
  cases h
  rfl

lemma Assigned.append_left (h : Assigned vias visits) (earlier : List Visit) :
    Assigned vias (earlier ++ visits) := by
  induction earlier with
  | nil => exact h
  | cons visit earlier ih => exact .pass visit ih

/-- Some via stops are served first, and others later. -/
lemma Assigned.append (h : Assigned vias visits) (hlater : Assigned others later) :
    Assigned (vias ++ others) (visits ++ later) := by
  induction h with
  | done visits => exact hlater.append_left visits
  | pass visit _ ih => exact .pass visit ih
  | give visit hserved _ ih =>
    rw [List.append_assoc]
    exact .give visit hserved ih

lemma Assigned.reverse (h : Assigned vias visits) : Assigned vias.reverse visits.reverse := by
  induction h with
  | done visits => exact .done _
  | pass visit _ ih =>
    have happend := ih.append (.done [visit])
    rw [List.append_nil] at happend
    rw [List.reverse_cons]
    exact happend
  | give visit hserved _ ih =>
    rw [List.reverse_append, List.reverse_cons]
    exact ih.append (assigned_of_servedBy hserved.reverse)

lemma Assigned.suffix (h : Assigned (others ++ vias) visits) : Assigned vias visits := by
  induction visits generalizing others with
  | nil =>
    rw [(List.append_eq_nil_iff.1 (eq_nil_of_assigned h)).2]
    exact .done []
  | cons visit visits ih =>
    obtain ⟨served, left, happend, hserved, hleft⟩ := assigned_cons_iff.1 h
    rcases List.append_eq_append_iff.1 happend with ⟨middle, rfl, rfl⟩ | ⟨middle, rfl, rfl⟩
    · exact .give visit hserved.suffix hleft
    · exact .pass visit (ih hleft)

/-- What a visit leaves over are the last via stops. -/
lemma suffix_of_serve {required : Duration} (h : serve visit required vias = some left) :
    left <:+ vias := by
  induction vias generalizing required with
  | nil =>
    cases h
    exact List.suffix_rfl
  | cons via vias ih =>
    rw [serve] at h
    split at h
    · cases h
      exact List.suffix_rfl
    · split at h
      · cases h
      · exact (ih h).trans (List.suffix_cons via vias)

/-- A visit is given at least the via stops that it is long enough for. -/
lemma suffix_of_serve_append {required : Duration}
    (h : serve visit required (served ++ others) = some left)
    (hlocation : ∀ via ∈ served, via.location = visit.location)
    (hlong : required.minutes + totalStay served ≤ visit.stay.minutes) : left <:+ others := by
  induction served generalizing required with
  | nil => exact suffix_of_serve h
  | cons via served ih =>
    have hadd := Duration.minutes_add required via.stay
    rw [totalStay_cons] at hlong
    have hfits : ¬(via.location ≠ visit.location ∨ visit.stay < required.add via.stay) := by
      refine not_or.2 ⟨not_not.2 (hlocation via List.mem_cons_self), Nat.not_lt.2 ?_⟩
      show (required.add via.stay).minutes ≤ visit.stay.minutes
      omega
    rw [List.cons_append, serve, if_neg hfits] at h
    split at h
    · cases h
    · exact ih h (fun other hother => hlocation other (List.mem_cons_of_mem _ hother)) (by omega)

/-- A visit serves the via stops that it is given. -/
lemma serve_sound {required : Duration} (hstay : visit.stay.isFeasible = true)
    (hrequired : required ≤ visit.stay) (h : serve visit required vias = some left) :
    ∃ served, vias = served ++ left ∧ (∀ via ∈ served, via.location = visit.location) ∧
      (∀ via ∈ served, via.Permits visit) ∧
      required.minutes + totalStay served ≤ visit.stay.minutes := by
  have hlt := Duration.isFeasible_iff.1 hstay
  have hnone : ∀ {p : ViaStop → Prop}, ∀ via ∈ [], p via := fun _ hvia => absurd hvia List.not_mem_nil
  induction vias generalizing required with
  | nil =>
    cases h
    exact ⟨[], rfl, hnone, hnone, hrequired⟩
  | cons via rest ih =>
    have hadd := Duration.minutes_add required via.stay
    rw [serve] at h
    split at h
    · cases h
      exact ⟨[], rfl, hnone, hnone, hrequired⟩
    · rename_i hfits
      obtain ⟨hlocation, hlong⟩ := not_or.1 hfits
      have hle : (required.add via.stay).minutes ≤ visit.stay.minutes := Nat.le_of_not_lt hlong
      split at h
      · cases h
      · rename_i hpermitted
        obtain ⟨served, rfl, hlocations, hpermits, htotal⟩ := ih hle h
        refine ⟨via :: served, rfl, ?_, ?_, ?_⟩
        · intro other hother
          rcases List.mem_cons.1 hother with rfl | hother
          · exact not_not.1 hlocation
          · exact hlocations other hother
        · intro other hother
          rcases List.mem_cons.1 hother with rfl | hother
          · exact not_not.1 (mt not_permits_iff.1 hpermitted)
          · exact hpermits other hother
        · rw [totalStay_cons]
          omega

/-- Nobody gives more via stops to a visit than the one who gives as many as it is long enough
for. -/
lemma exists_append_of_serve (hstay : visit.stay.isFeasible = true)
    (h : serve visit .zero (served ++ others) = some left) (hsuited : SuitedTo visit served) :
    ∃ more, ServedBy (served ++ more) visit ∧ others = more ++ left := by
  have hlong := hsuited.long_enough
  obtain ⟨more, rfl⟩ := suffix_of_serve_append h hsuited.at_location
    (by rw [Duration.minutes_zero]; omega)
  obtain ⟨given, happend, hlocations, hpermits, htotal⟩ := serve_sound hstay (Nat.zero_le _) h
  rw [← List.append_assoc] at happend
  cases List.append_cancel_right happend
  rw [Duration.minutes_zero] at htotal
  exact ⟨more, ⟨hlocations, by omega, hpermits⟩, rfl⟩

/-- Via stops that can be given to visits are given to visits no longer than they allow, when
no visit is found too long on the way. -/
theorem assigned_of_respected (hstays : ∀ visit ∈ visits, visit.stay.isFeasible = true)
    (h : Assigned (vias.map unbounded) visits) (hrespected : respected vias visits = true) :
    Assigned vias visits := by
  induction visits generalizing vias with
  | nil =>
    rw [List.map_eq_nil_iff.1 (eq_nil_of_assigned h)]
    exact .done []
  | cons visit visits ih =>
    obtain ⟨given, rest, happend, hgiven, hrest⟩ := assigned_cons_iff.1 h
    obtain ⟨served, others, rfl, rfl, rfl⟩ := List.map_eq_append_iff.1 happend
    rw [respected] at hrespected
    cases hserve : serve visit .zero (served ++ others) with
    | none =>
      rw [hserve] at hrespected
      cases hrespected
    | some left =>
      rw [hserve] at hrespected
      obtain ⟨more, hserved, rfl⟩ := exists_append_of_serve (hstays visit List.mem_cons_self) hserve
        (servedBy_unbounded_iff.1 hgiven)
      rw [List.map_append] at hrest
      rw [← List.append_assoc]
      exact .give visit hserved
        (ih (fun other hother => hstays other (List.mem_cons_of_mem _ hother)) hrest.suffix
          hrespected)

end ViaStop

/-- Via stops that can be given to the visits of a journey that stays at none of them longer than it
allows are served by it. -/
theorem Journey.serves_of_allowsStays {tt : Timetable} {q : Query} {j : Journey}
    (hstays : ∀ visit ∈ j.visits tt, visit.stay.isFeasible = true)
    (h : ViaStop.Assigned (q.vias.map ViaStop.unbounded) (j.visits tt))
    (hallowed : q.allowsStays tt j = true) : j.Serves tt q := by
  unfold Query.allowsStays at hallowed
  rcases Bool.or_eq_true_iff.1 hallowed with hnone | hrespected
  · have hsame : q.vias.map ViaStop.unbounded = q.vias := by
      refine (List.map_congr_left fun via hvia => ?_).trans (List.map_id q.vias)
      have hmax := Option.isNone_iff_eq_none.1 (List.all_eq_true.1 hnone via hvia)
      cases via
      cases hmax
      rfl
    rw [hsame] at h
    exact h
  · exact ViaStop.assigned_of_respected hstays h hrespected

end JourneyPlanner
