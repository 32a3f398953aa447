import JourneyPlanner.Proofs.Search.Following

/-!
# Ways from one instant to another

The legs of a way are gone one after the other between its ends. When its ends are told without
wrapping around, so are the instants of its legs.
-/

namespace JourneyPlanner

namespace Search

variable {s : Search} {t u : Instant} {finish x y : RelTime} {a : Arrival} {l : LocationIndex}
  {v k : Nat} {leg : SearchLeg}

/-- A leg is gone between two times. -/
structure LiesIn (s : Search) (leg : SearchLeg) (x y : RelTime) : Prop where
  start_ge : s.dir.cost x ≤ s.dir.cost leg.start
  finish_ge : s.dir.cost leg.start ≤ s.dir.cost leg.finish
  finish_le : s.dir.cost leg.finish ≤ s.dir.cost y

lemma LiesIn.mono {x' y' : RelTime} (h : s.LiesIn leg x y) (hx : s.dir.cost x' ≤ s.dir.cost x)
    (hy : s.dir.cost y ≤ s.dir.cost y') : s.LiesIn leg x' y' :=
  ⟨Int.le_trans hx h.start_ge, h.finish_ge, Int.le_trans h.finish_le hy⟩

lemma Stands.liesIn {w : Option Walk} (h : s.Stands a w l v y) :
    ∀ leg ∈ Walk.legs w, s.LiesIn leg a.time y := by
  cases h with
  | here _ => exact fun leg hleg => absurd hleg List.not_mem_nil
  | walked _ hwalk _ =>
    intro leg hleg
    rw [List.mem_singleton.1 hleg]
    have hcost := cost_of_mem_walks hwalk
    exact ⟨Int.le_trans (Direction.cost_le_add _ _) hcost.1, hcost.2, Direction.cost_le_add _ _⟩

lemma Readies.liesIn {approach : Approach} (h : s.Readies approach l v y) :
    ∀ leg ∈ Walk.legs approach.walk, s.LiesIn leg (s.approachTime approach) y := by
  cases h with
  | start _ _ => exact fun leg hleg => absurd hleg List.not_mem_nil
  | startOnFoot _ hwalk _ =>
    intro leg hleg
    rw [List.mem_singleton.1 hleg]
    have hcost := cost_of_mem_walks hwalk
    exact ⟨hcost.1, hcost.2, Direction.cost_le_add _ _⟩
  | transfer _ => exact fun leg hleg => absurd hleg List.not_mem_nil
  | onFoot h => exact h.liesIn

lemma RidesBy.liesIn (hw : s.timetable.WellFormed) {ride : SearchLeg}
    (h : s.RidesBy l v x a ride) : s.LiesIn ride x a.time := by
  obtain ⟨r, trip, i, j, hride, hintime, rfl⟩ := h
  have hcost := cost_boardTime_le_alightTime hw hride.boarded.runs hride.boarded.goes_on
    hride.alight_lt hintime.feasible
  rw [← hride.time_eq] at hcost
  exact ⟨hintime.cost_le, hcost, Int.le_refl _⟩

/-- The legs that lead to an arrival are gone after the search begins. -/
lemma Leads.liesIn (hw : s.timetable.WellFormed) {legs : List SearchLeg} (h : s.Leads k legs a) :
    ∀ leg ∈ legs, s.LiesIn leg s.start a.time := by
  induction h with
  | first happroach hrides =>
    rename_i o w l v t a ride
    have hseed : s.dir.cost s.start ≤ s.dir.cost (s.seedTime o) := Direction.cost_le_add _ _
    have hready : s.dir.cost (s.seedTime o) ≤ s.dir.cost t := happroach.cost_le
    have hride := hrides.cost_le hw
    intro leg hleg
    rcases List.mem_append.1 hleg with hleg | hleg
    · rcases List.mem_cons.1 hleg with rfl | hleg
      · exact (hrides.liesIn hw).mono (Int.le_trans hseed hready) (Int.le_refl _)
      · exact (happroach.liesIn leg hleg).mono hseed hride
    · rw [List.mem_singleton.1 hleg]
      exact ⟨Int.le_refl _, hseed, Int.le_trans hready hride⟩
  | next happroach hrides hleads ih =>
    rename_i k b w l v t a ride legs
    have hstart := hleads.start_le hw
    have hready : s.dir.cost b.time ≤ s.dir.cost t := happroach.cost_le
    have hride := hrides.cost_le hw
    intro leg hleg
    rcases List.mem_append.1 hleg with hleg | hleg
    · rcases List.mem_cons.1 hleg with rfl | hleg
      · exact (hrides.liesIn hw).mono (Int.le_trans hstart hready) (Int.le_refl _)
      · exact (happroach.liesIn leg hleg).mono hstart hride
    · exact (ih leg hleg).mono (Int.le_refl _) (Int.le_trans hready hride)

/-- The walks and rides of a way to the destination are gone before it is reached. -/
lemma Arrives.liesIn {h : Hit} (harrives : s.Arrives h) :
    ∀ leg ∈ Walk.legs h.walk, s.LiesIn leg h.arrival.time h.destinationTime := by
  obtain ⟨level, _, hstands⟩ := harrives.stands
  intro leg hleg
  refine (hstands.liesIn leg hleg).mono (Int.le_refl _) ?_
  rw [harrives.time_eq]
  exact Direction.cost_le_add _ _

/-- A way of a search from one instant to another. -/
structure Spans (s : Search) (finish : RelTime) (t u : Instant) : Prop where
  start_eq : s.start.minutes? = some (t.minutes - s.midnight)
  finish_eq : finish.minutes? = some (u.minutes - s.midnight)

lemma Spans.cost_start (h : s.Spans finish t u) :
    s.dir.cost s.start = s.dir.sign (t.minutes - s.midnight) :=
  Direction.cost_of_minutes? h.start_eq

lemma Spans.cost_finish (h : s.Spans finish t u) :
    s.dir.cost finish = s.dir.sign (u.minutes - s.midnight) :=
  Direction.cost_of_minutes? h.finish_eq

/-- The instants between the ends of a way do not wrap. -/
lemma Spans.sign_instantOf (h : s.Spans finish t u) (hstart : s.dir.cost s.start ≤ s.dir.cost x)
    (hfinish : s.dir.cost x ≤ s.dir.cost finish) :
    s.dir.sign (s.instantOf x).minutes = s.dir.sign s.midnight + s.dir.cost x := by
  have hf : finish.isFeasible = true := by
    rw [RelTime.isFeasible, h.finish_eq]
    rfl
  obtain ⟨n, hn⟩ := Direction.exists_minutes (Direction.isFeasible_of_le hfinish hf)
  rw [Direction.cost_of_minutes? hn, ← Direction.sign_add]
  congr 1
  rw [Direction.cost_of_minutes? hn] at hstart hfinish
  rw [h.cost_start] at hstart
  rw [h.cost_finish] at hfinish
  have ht := t.minutes_ge
  have ht' := t.minutes_lt
  have hu := u.minutes_ge
  have hu' := u.minutes_lt
  cases hdir : s.dir <;> rw [hdir] at hstart hfinish <;>
    simp only [Direction.sign_forward, Direction.sign_backward] at hstart hfinish <;>
    exact minutes_instantOf hn (by omega) (by omega)

lemma Spans.walksOn (h : s.Spans finish t u) (hw : s.timetable.WellFormed)
    (hlies : s.LiesIn leg s.start finish) (hkind : leg.kind = .footpath)
    (hplain : (s.travelLeg leg).IsPlainWalk s.timetable) : ∃ f, s.WalksOn leg f := by
  have hbegins := h.sign_instantOf hlies.start_ge (Int.le_trans hlies.finish_ge hlies.finish_le)
  have hends := h.sign_instantOf (Int.le_trans hlies.start_ge hlies.finish_ge) hlies.finish_le
  obtain ⟨f, hf, htarget, hlasts⟩ := exists_footpath_of_isPlainWalk hw hplain
  exact ⟨f, hkind, hf, htarget, by omega⟩

lemma spans_of_split? {tt : Timetable} {q : Query} {base : Day} {time : ServiceTime}
    (hsearch : Search.at? tt q t = some s) (hf : finish.isFeasible = true)
    (hbase : s.timetable.calendar.split? (s.instantOf finish) = some (base, time)) :
    s.Spans finish t (s.instantOf finish) := by
  obtain ⟨hstart, _, _⟩ := minutes_of_at? hsearch
  obtain ⟨n, hn⟩ := Direction.exists_minutes hf
  refine ⟨hstart, ?_⟩
  rw [instantOf_of_minutes? hn] at hbase ⊢
  have hminutes : (Instant.wrap (s.midnight + n)).minutes = s.midnight + n :=
    Calendar.minutes_wrap_of_split? hbase (RelTime.range_of_minutes? hn)
  rw [hminutes, hn]
  congr 1
  omega

end Search

end JourneyPlanner
