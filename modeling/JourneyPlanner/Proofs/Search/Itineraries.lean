import JourneyPlanner.Proofs.Search.Recovery

/-!
# Journeys are itineraries

The legs of a journey are found again one by one, from the last one in search order. Each of them
is real, and each can be taken after the one before; in travel order, whichever the direction of
the search, they make an itinerary.
-/

namespace JourneyPlanner

namespace Direction

lemma sign_add (dir : Direction) (a b : Int) : dir.sign (a + b) = dir.sign a + dir.sign b := by
  cases dir
  · rfl
  · exact Int.neg_add

end Direction

namespace Search

variable {s : Search} {k : Nat} {a : Arrival} {l : LocationIndex} {t : RelTime} {w : Walk}
  {x y : SearchLeg}

/-- The instants of a search are told without wrapping around. -/
structure Told (s : Search) : Prop where
  fit : s.timetable.calendar.InstantsFit
  known : s.baseDay.number < s.timetable.calendar.nbOfDays

lemma instantOf_of_minutes? {n : Int} (ht : t.minutes? = some n) :
    s.instantOf t = .wrap (s.midnight + n) := by
  unfold instantOf instant? Calendar.absolute? Calendar.dayStart
  rw [ht, Option.map_some, Option.getD_some, Instant.wrap_add]
  rfl

/-- An instant that does not wrap is told in minutes. -/
lemma minutes_instantOf {n : Int} (ht : t.minutes? = some n)
    (hge : -2147483648 ≤ s.midnight + n) (hlt : s.midnight + n < 2147483648) :
    (s.instantOf t).minutes = s.midnight + n := by
  rw [instantOf_of_minutes? ht]
  exact Instant.minutes_wrap hge hlt

lemma Told.minutes_instantOf (htold : s.Told) {n : Int} (ht : t.minutes? = some n) :
    (s.instantOf t).minutes = s.midnight + n := by
  have hrange := RelTime.range_of_minutes? ht
  have hfits := htold.fit s.baseDay n htold.known hrange.1 hrange.2
  exact Search.minutes_instantOf ht hfits.1 hfits.2

lemma Told.sign_instantOf (htold : s.Told) (ht : t.isFeasible = true) :
    s.dir.sign (s.instantOf t).minutes = s.dir.sign s.midnight + s.dir.cost t := by
  obtain ⟨n, hn⟩ := Direction.exists_minutes ht
  rw [htold.minutes_instantOf hn, Direction.sign_add, Direction.cost_of_minutes? hn]

lemma Told.sign_instantOf_add (htold : s.Told) {d : Duration}
    (h : (s.dir.add t d).isFeasible = true) :
    s.dir.sign (s.instantOf (s.dir.add t d)).minutes =
      s.dir.sign (s.instantOf t).minutes + d.minutes := by
  rw [htold.sign_instantOf h, htold.sign_instantOf (Direction.isFeasible_of_add h),
    Direction.cost_add_of_isFeasible h]
  omega

/-- A leg can be taken after another one, in search order. -/
structure Precedes (s : Search) (x y : SearchLeg) : Prop where
  source_eq : y.source = x.target
  cost_le : s.dir.cost x.finish ≤ s.dir.cost y.start
  transfer : x.kind.isRide = true → y.kind.isRide = true →
    s.dir.cost x.finish + (s.timetable.locations.transferTime x.target).minutes ≤
      s.dir.cost y.start
  one_walk : x.kind = .footpath → y.kind ≠ .footpath

/-- Legs, the last one first, that can be taken one after the other. -/
def Chained (s : Search) (legs : List SearchLeg) : Prop := legs.IsChain fun y x => s.Precedes x y

/-- A leg is a ride that ends at an arrival. -/
structure EndsAt (ride : SearchLeg) (a : Arrival) : Prop where
  isRide : ride.kind.isRide = true
  target_eq : ride.target = a.location
  finish_eq : ride.finish = a.time

/-- A leg leads to a way of getting ready. -/
def LeadsTo (s : Search) (x : SearchLeg) : Approach → Prop
  | .fromStart o _ => o ∈ s.query.start ∧ x = s.accessLeg o
  | .fromVehicle a _ => EndsAt x a

lemma ne_footpath_of_isRide (hx : x.kind.isRide = true) : x.kind ≠ .footpath := by
  intro heq
  rw [heq] at hx
  cases hx

lemma chained_pair (h : s.Precedes x y) : s.Chained [y, x] :=
  List.isChain_pair.2 h

lemma chained_walk (hwalk : w ∈ s.walks l t) (hx : x.kind ≠ .footpath) (htarget : x.target = l)
    (hfinish : s.dir.cost x.finish ≤ s.dir.cost t) (hy : y.kind ≠ .footpath)
    (hsource : y.source = w.target) (hstart : s.dir.cost w.finish ≤ s.dir.cost y.start) :
    s.Chained [y, w.leg, x] := by
  have hcost := cost_of_mem_walks hwalk
  refine List.isChain_cons_cons.2 ⟨⟨hsource, hstart, ?_, fun _ => hy⟩, chained_pair ⟨?_, ?_, ?_, ?_⟩⟩
  · intro hride
    cases hride
  · exact (source_of_mem_walks hwalk).trans htarget.symm
  · exact Int.le_trans hfinish hcost.1
  · intro _ hride
    cases hride
  · exact fun heq => absurd heq hx

/-- The legs around a way of getting ready for a ride. -/
lemma Readies.chained {approach : Approach} {level : Nat} (h : s.Readies approach l level t)
    (hx : s.LeadsTo x approach) (hy : y.kind.isRide = true) (hsource : y.source = l)
    (hstart : s.dir.cost t ≤ s.dir.cost y.start) (hf : y.start.isFeasible = true) :
    s.Chained (y :: Walk.legs approach.walk ++ [x]) := by
  have hne := ne_footpath_of_isRide hy
  cases h with
  | start ho hstay =>
    obtain ⟨_, rfl⟩ := hx
    refine chained_pair ⟨hsource, Int.le_trans (Direction.cost_le_add _ _) hstart, ?_, fun _ => hne⟩
    intro hride
    cases hride
  | startOnFoot ho hwalk hstay =>
    obtain ⟨_, rfl⟩ := hx
    exact chained_walk hwalk (fun heq => nomatch heq) rfl (Int.le_refl _) hne hsource
      (Int.le_trans (Direction.cost_le_add _ _) hstart)
  | transfer hstay =>
    rename_i b stay
    have hx : EndsAt x b := hx
    refine chained_pair ⟨hsource.trans hx.target_eq.symm, ?_, fun _ _ => ?_, fun _ => hne⟩
    · rw [hx.finish_eq]
      exact Int.le_trans (Direction.cost_le_add _ _) hstart
    · have hready := Direction.isFeasible_of_le hstart hf
      have hcost := Direction.cost_add_of_isFeasible hready
      have hlonger : (s.timetable.locations.transferTime b.location).minutes ≤
        (stay.longer (s.timetable.locations.transferTime b.location)).minutes :=
          Duration.le_longer_right _ _
      rw [hx.finish_eq, hx.target_eq]
      omega
  | onFoot h =>
    rename_i b w
    have hx : EndsAt x b := hx
    cases h with
    | walked hstay hwalk hstay' =>
      refine chained_walk hwalk (ne_footpath_of_isRide hx.isRide) hx.target_eq ?_ hne hsource
        (Int.le_trans (Direction.cost_le_add _ _) hstart)
      rw [hx.finish_eq]
      exact Direction.cost_le_add _ _

/-- The legs around the way from the last vehicle to the egress. -/
lemma Arrives.chained {h : Hit} (harrives : s.Arrives h) (hx : EndsAt x h.arrival) :
    s.Chained (h.egressLeg :: Walk.legs h.walk ++ [x]) := by
  obtain ⟨level, _, hstands⟩ := harrives.stands
  have hride : ¬h.egressLeg.kind.isRide = true := fun hride => nomatch hride
  have hkind : h.egressLeg.kind ≠ .footpath := fun heq => nomatch heq
  have hsource : h.egressLeg.source = h.location := rfl
  have hstart : h.egressLeg.start = h.time := rfl
  generalize h.egressLeg = y at hride hkind hsource hstart
  generalize h.walk = walk, h.location = l, h.time = t at hstands hsource hstart
  cases hstands with
  | here hstay =>
    refine chained_pair ⟨hsource.trans hx.target_eq.symm, ?_, fun _ hy => absurd hy hride,
      fun _ => hkind⟩
    rw [hx.finish_eq, hstart]
    exact Direction.cost_le_add _ _
  | walked hstay hwalk hstay' =>
    refine chained_walk hwalk (ne_footpath_of_isRide hx.isRide) hx.target_eq ?_ hkind hsource ?_
    · rw [hx.finish_eq]
      exact Direction.cost_le_add _ _
    · rw [hstart]
      exact Direction.cost_le_add _ _

lemma RidesBy.endsAt {level : Nat} {ride : SearchLeg} (h : s.RidesBy l level t a ride) :
    EndsAt ride a := by
  refine ⟨h.isRide, ?_, h.times.2.2⟩
  obtain ⟨r, trip, board, alight, _, _, rfl⟩ := h
  rfl

lemma RidesBy.source_eq {level : Nat} {ride : SearchLeg} (h : s.RidesBy l level t a ride) :
    ride.source = l := by
  obtain ⟨r, trip, board, alight, _, _, rfl⟩ := h
  rfl

/-- The legs that lead to an arrival begin with the ride that ends there, and can be taken one
after the other. -/
lemma Leads.chained {legs : List SearchLeg} (h : s.Leads k legs a) :
    ∃ ride rest, legs = ride :: rest ∧ EndsAt ride a ∧ s.Chained legs := by
  induction h with
  | first hready hrides =>
    obtain ⟨hboard, hcost, _⟩ := hrides.times
    refine ⟨_, _, rfl, hrides.endsAt, ?_⟩
    cases hready with
    | start ho hstay =>
      exact (Readies.start ho hstay).chained ⟨ho, rfl⟩ hrides.isRide hrides.source_eq hcost hboard
    | startOnFoot ho hwalk hstay =>
      exact (Readies.startOnFoot ho hwalk hstay).chained ⟨ho, rfl⟩ hrides.isRide hrides.source_eq
        hcost hboard
  | next hready hrides _ ih =>
    obtain ⟨hboard, hcost, _⟩ := hrides.times
    obtain ⟨before, rest, rfl, hends, hchained⟩ := ih
    refine ⟨_, _, rfl, hrides.endsAt, ?_⟩
    have hfirst := hready.chained (x := before) hends hrides.isRide hrides.source_eq hcost hboard
    exact List.isChain_split.2 ⟨hfirst, hchained⟩

/-- The legs of a way to the destination can be taken one after the other. -/
lemma Arrives.chained_legs {h : Hit} (harrives : s.Arrives h) {before : List SearchLeg}
    (hleads : s.Leads k before h.arrival) : s.Chained (h.legs before) := by
  obtain ⟨ride, rest, rfl, hends, hchained⟩ := hleads.chained
  exact List.isChain_split.2 ⟨harrives.chained hends, hchained⟩

/-- A leg between the offsets of a journey is a ride, or a walk that someone could take. -/
def Between (s : Search) (leg : SearchLeg) : Prop :=
  (∃ l level t a, s.RidesBy l level t a leg) ∨ ∃ l t w, w ∈ s.walks l t ∧ leg = w.leg

lemma Stands.between {walk : Option Walk} {level : Nat} (h : s.Stands a walk l level t) :
    ∀ leg ∈ Walk.legs walk, s.Between leg := by
  cases h with
  | here _ => exact fun leg hleg => absurd hleg List.not_mem_nil
  | walked _ hwalk _ =>
    intro leg hleg
    exact Or.inr ⟨_, _, _, hwalk, List.mem_singleton.1 hleg⟩

lemma Readies.between {approach : Approach} {level : Nat} (h : s.Readies approach l level t) :
    ∀ leg ∈ Walk.legs approach.walk, s.Between leg := by
  cases h with
  | start _ _ => exact fun leg hleg => absurd hleg List.not_mem_nil
  | startOnFoot _ hwalk _ =>
    intro leg hleg
    exact Or.inr ⟨_, _, _, hwalk, List.mem_singleton.1 hleg⟩
  | transfer _ => exact fun leg hleg => absurd hleg List.not_mem_nil
  | onFoot h => exact h.between

/-- Legs that lead to an arrival end with the leg of an offset of the start. -/
lemma Leads.between {legs : List SearchLeg} (h : s.Leads k legs a) :
    ∃ middle o, legs = middle ++ [s.accessLeg o] ∧ o ∈ s.query.start ∧
      ∀ leg ∈ middle, s.Between leg := by
  induction h with
  | first hready hrides =>
    rename_i o walk l level t a ride
    refine ⟨_, o, rfl, ?_, ?_⟩
    · cases hready <;> assumption
    · intro leg hleg
      rcases List.mem_cons.1 hleg with rfl | hleg
      · exact Or.inl ⟨_, _, _, _, hrides⟩
      · exact hready.between leg hleg
  | next hready hrides _ ih =>
    rename_i ride legs _
    obtain ⟨middle, o, rfl, ho, hmiddle⟩ := ih
    refine ⟨_, o, (List.append_assoc _ _ _).symm, ho, ?_⟩
    intro leg hleg
    rcases List.mem_append.1 hleg with hleg | hleg
    · rcases List.mem_cons.1 hleg with rfl | hleg
      · exact Or.inl ⟨_, _, _, _, hrides⟩
      · exact hready.between leg hleg
    · exact hmiddle leg hleg

/-- Legs that follow each other in a search follow each other in travel order. -/
lemma Told.continues (htold : s.Told) (h : s.Precedes x y) (hx : x.Timed) (hy : y.Timed) :
    match s.dir with
    | .forward => Leg.Continues s.timetable (s.travelLeg x) (s.travelLeg y)
    | .backward => Leg.Continues s.timetable (s.travelLeg y) (s.travelLeg x) := by
  have hfinish := htold.sign_instantOf hx.2
  have hstart := htold.sign_instantOf hy.1
  have hcost := h.cost_le
  have htransfer := h.transfer
  unfold travelLeg
  cases hdir : s.dir with
  | forward =>
    simp only [hdir, Direction.sign_forward] at hfinish hstart hcost htransfer
    refine ⟨⟨h.source_eq, ?_⟩, fun hride hride' => ?_, h.one_walk⟩
    · show (s.instantOf x.finish).minutes ≤ (s.instantOf y.start).minutes
      omega
    · have := htransfer hride hride'
      dsimp only
      omega
  | backward =>
    simp only [hdir, Direction.sign_backward] at hfinish hstart hcost htransfer
    refine ⟨⟨h.source_eq.symm, ?_⟩, fun hride hride' => ?_, fun hy hx => h.one_walk hx hy⟩
    · show (s.instantOf y.start).minutes ≤ (s.instantOf x.finish).minutes
      omega
    · have := htransfer hride' hride
      dsimp only
      rw [h.source_eq]
      omega

lemma Told.isChain_travelLegs (htold : s.Told) {legs : List SearchLeg} (h : s.Chained legs)
    (htimed : ∀ leg ∈ legs, leg.Timed) :
    (s.travelLegs legs).IsChain (Leg.Continues s.timetable) := by
  have hchain : legs.IsChain fun y x => match s.dir with
      | .forward => Leg.Continues s.timetable (s.travelLeg x) (s.travelLeg y)
      | .backward => Leg.Continues s.timetable (s.travelLeg y) (s.travelLeg x) :=
    List.IsChain.imp_of_mem_imp
      (fun y x hy hx hprecedes => htold.continues hprecedes (htimed x hx) (htimed y hy)) h
  unfold travelLegs
  cases hdir : s.dir with
  | forward =>
    simp only [hdir] at hchain
    rw [List.isChain_reverse]
    exact (List.isChain_map _).2 hchain
  | backward =>
    simp only [hdir] at hchain
    exact (List.isChain_map _).2 hchain

end Search

end JourneyPlanner
