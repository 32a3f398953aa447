import JourneyPlanner.Proofs.Network.Calls

/-!
# The sections of a route

A route is opened with one class for all of its sections, or with one for each of them. A built
timetable therefore knows the class of every section between two stops of a route.
-/

namespace JourneyPlanner

namespace Sections

variable {α : Type} {n p : Nat} {given : List α} {s : Sections α}

/-- One value for all of `n` sections, or one each. -/
def Fits (s : Sections α) (n : Nat) : Prop := s.others.length = 0 ∨ s.others.length + 1 = n

lemma fits_of_ofList? (h : ofList? n given = some s) : s.Fits n := by
  cases given with
  | nil => cases h
  | cons a as =>
    rw [ofList?] at h
    split at h
    · cases h
      assumption
    · cases h

lemma Fits.exists_at? (h : s.Fits n) (hp : p < n) : ∃ a, s.at? p = some a := by
  unfold at?
  split
  · exact ⟨_, rfl⟩
  · rename_i hothers
    have hlength : s.others.length ≠ 0 := fun hzero =>
      hothers (List.isEmpty_iff_length_eq_zero.2 hzero)
    have hlt : p < s.toList.length := by
      rw [toList, List.length_cons, h.resolve_left hlength]
      exact hp
    exact ⟨_, List.getElem?_eq_getElem hlt⟩

lemma at?_zero (s : Sections α) : s.at? 0 = some s.first := by
  unfold at?
  split <;> rfl

end Sections

namespace Builder

variable {b : Builder}

/-- The routes of a builder, closed or open, have a class for each of their sections. -/
structure Classed (b : Builder) : Prop where
  routes : ∀ r ∈ b.routes, r.classes.Fits (r.stops.size - 1)
  opened : ∀ o ∈ b.openRoute, o.classes.Fits (o.stops.size - 1)

lemma classed_new (c : Calendar) : (new c).Classed :=
  ⟨fun _ hr => absurd hr (Array.not_mem_empty _), fun _ ho => nomatch ho⟩

/-- A route keeps the classes with which it was opened. -/
theorem Classed.step {b' : Builder} (h : b.Classed) (hstep : b.Step b') : b'.Classed := by
  cases hstep with
  | stay => exact h
  | location | days | late | spoiled | footpath | timedFootpath => exact ⟨h.routes, h.opened⟩
  | opened hopens =>
    refine ⟨h.routes, fun o ho => ?_⟩
    cases ho
    obtain ⟨given, hgiven⟩ := hopens.classes_eq
    exact Sections.fits_of_ofList? hgiven
  | extended hadmits _ =>
    have hfits := h.opened _ hadmits.opened
    refine ⟨h.routes, fun o ho => ?_⟩
    cases ho
    exact hfits
  | closed hopen hclose =>
    have hcloses := OpenRoute.closes_of_close hclose
    refine ⟨fun r hr => ?_, fun o ho => nomatch ho⟩
    rcases Array.mem_push.1 hr with hr | rfl
    · exact h.routes r hr
    · rw [hcloses.classes_eq, hcloses.stops_eq]
      exact h.opened _ hopen

lemma exists_sectionClass?_freeze (h : b.Classed) {r : RouteIndex} {position : Nat}
    (hposition : position + 1 < (b.freeze.stops r).size) :
    ∃ c, b.freeze.sectionClass? r position = some c := by
  cases hroute : b.freeze.route? r with
  | none =>
    rw [Timetable.stops, hroute] at hposition
    exact absurd hposition (Nat.not_lt_zero _)
  | some route =>
    have hfits := h.routes route (Array.mem_of_getElem? hroute)
    rw [Timetable.stops, hroute, Option.map_some, Option.getD_some] at hposition
    rw [Timetable.sectionClass?, hroute]
    exact hfits.exists_at? (by omega)

end Builder

namespace Timetable

variable {tt : Timetable}

/-- The class of a route is that of its first section. -/
lemma sectionClass?_zero (tt : Timetable) (r : RouteIndex) :
    tt.sectionClass? r 0 = tt.mainClass? r := by
  unfold sectionClass? mainClass?
  cases tt.route? r with
  | none => rfl
  | some route => exact route.classes.at?_zero

/-- The class of every section from one stop of a route to the next one is known. -/
theorem IsBuilt.exists_sectionClass? (hbuilt : tt.IsBuilt) {r : RouteIndex} {position : Nat}
    (hposition : position + 1 < (tt.stops r).size) :
    ∃ c, tt.sectionClass? r position = some c := by
  obtain ⟨c, calls, hbuild⟩ := hbuilt
  obtain ⟨_, _, _, rfl⟩ := Builder.build_eq_ok_iff.1 hbuild
  have hclassed := Builder.run_keeps (P := Builder.Classed) (fun _ _ hstep h => h.step hstep)
    (Builder.classed_new c) calls
  exact Builder.exists_sectionClass?_freeze hclassed hposition

end Timetable

end JourneyPlanner
