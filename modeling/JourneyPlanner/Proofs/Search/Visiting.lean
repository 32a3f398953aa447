import JourneyPlanner.Proofs.Search.Answers
import JourneyPlanner.Proofs.Search.Assigning
import JourneyPlanner.Proofs.Search.Reversing

/-!
# Via stops are visited

A via level is a promise: the legs that lead to an arrival visit the via stops below its level, in
search order and for as long as they ask. Riding, staying and walking keep the promise, and at the
destination it is about all via stops of the query.
-/

namespace JourneyPlanner

open ViaStop (Assigned SuitedTo)

namespace Journey

/-- The last leg adds the visit before it and the stops that it passes. -/
lemma visitsOf_concat (tt : Timetable) (legs : List Leg) (leg next : Leg) :
    visitsOf tt (legs ++ [leg, next]) =
      visitsOf tt (legs ++ [leg]) ++ leg.gap next ++ next.passed tt := by
  induction legs with
  | nil => rfl
  | cons first legs ih =>
    cases legs with
    | nil => simp only [List.cons_append, List.nil_append, visitsOf, List.append_assoc]
    | cons second legs =>
      simp only [List.cons_append, visitsOf, List.append_assoc] at ih ⊢
      rw [ih]

end Journey

namespace Search

variable {s : Search} {k : Nat} {a : Arrival} {l : LocationIndex} {t : RelTime} {u v v' : Nat}
  {r : RouteIndex} {trip : Trip} {x y : SearchLeg} {w : Walk}

/-- The stops that a leg passes, in search order. -/
def passedBy (s : Search) (x : SearchLeg) : List Visit :=
  match s.dir with
  | .forward => (s.travelLeg x).passed s.timetable
  | .backward => ((s.travelLeg x).passed s.timetable).reverse

/-- The visit between a leg and the one that comes after it, in search order. -/
def visitBetween (s : Search) (x y : SearchLeg) : List Visit :=
  match s.dir with
  | .forward => (s.travelLeg x).gap (s.travelLeg y)
  | .backward => (s.travelLeg y).gap (s.travelLeg x)

/-- The visits of legs in search order. The last leg comes first. -/
def visitsTo (s : Search) : List SearchLeg → List Visit
  | [] => []
  | [x] => s.passedBy x
  | y :: x :: rest => visitsTo s (x :: rest) ++ s.visitBetween x y ++ s.passedBy y

/-- The visits between two legs with possibly a walk in between, in search order. -/
def visitsAround (s : Search) (walk : Option Walk) (x y : SearchLeg) : List Visit :=
  match walk with
  | none => s.visitBetween x y
  | some w => s.visitBetween x w.leg ++ s.visitBetween w.leg y

lemma passed_of_not_isRide {tt : Timetable} {leg : Leg} (h : leg.kind.isRide = false) :
    leg.passed tt = [] := by
  unfold Leg.passed
  cases hkind : leg.kind with
  | ride =>
    rw [hkind] at h
    cases h
  | offset _ => rfl
  | footpath => rfl

lemma passedBy_of_not_isRide (h : x.kind.isRide = false) : s.passedBy x = [] := by
  have hpassed : (s.travelLeg x).passed s.timetable = [] :=
    passed_of_not_isRide (by rw [kind_travelLeg]; exact h)
  unfold passedBy
  rw [hpassed]
  cases s.dir <;> rfl

lemma reverse_gap (leg next : Leg) : (leg.gap next).reverse = leg.gap next := by
  unfold Leg.gap
  split <;> rfl

/-- The visits of a journey are those of its search, from one end or from the other. -/
lemma visitsOf_travelLegs (s : Search) (legs : List SearchLeg) :
    Journey.visitsOf s.timetable (s.travelLegs legs) =
      match s.dir with
      | .forward => s.visitsTo legs
      | .backward => (s.visitsTo legs).reverse := by
  fun_induction visitsTo s legs with
  | case1 =>
    unfold travelLegs
    cases s.dir <;> rfl
  | case2 x =>
    unfold travelLegs passedBy
    cases s.dir with
    | forward => rfl
    | backward => exact (List.reverse_reverse _).symm
  | case3 y x rest ih =>
    unfold travelLegs visitBetween passedBy at *
    cases hdir : s.dir with
    | forward =>
      simp only [hdir, List.map_cons, List.reverse_cons, List.append_assoc, List.cons_append,
        List.nil_append] at ih ⊢
      rw [Journey.visitsOf_concat, ih, List.append_assoc]
    | backward =>
      simp only [hdir, List.map_cons, List.reverse_append, List.reverse_reverse, reverse_gap,
        Journey.visitsOf] at ih ⊢
      rw [ih, List.append_assoc]

lemma visitsTo_around (walk : Option Walk) (x y : SearchLeg) (rest : List SearchLeg) :
    s.visitsTo (y :: Walk.legs walk ++ x :: rest) =
      s.visitsTo (x :: rest) ++ s.visitsAround walk x y ++ s.passedBy y := by
  cases walk with
  | none => rfl
  | some w =>
    have hwalk : s.passedBy w.leg = [] := passedBy_of_not_isRide rfl
    show s.visitsTo (x :: rest) ++ s.visitBetween x w.leg ++ s.passedBy w.leg ++
      s.visitBetween w.leg y ++ s.passedBy y = _
    rw [hwalk, List.append_nil, visitsAround, List.append_assoc (s.visitsTo (x :: rest))]

/-- Between two legs someone stays as long as the search does. -/
lemma Told.exists_visitBetween_eq (htold : s.Told) (hsource : y.source = x.target)
    (hle : s.dir.cost x.finish ≤ s.dir.cost y.start) (hf : y.start.isFeasible = true) :
    ∃ stay, s.visitBetween x y = [⟨x.target, stay⟩] ∧ stay.isFeasible = true ∧
      s.dir.cost y.start = s.dir.cost x.finish + stay.minutes := by
  have hx := Direction.isFeasible_of_le hle hf
  have hfinish := htold.sign_instantOf hx
  have hstart := htold.sign_instantOf hf
  obtain ⟨m, hm⟩ := Direction.exists_minutes hx
  obtain ⟨n, hn⟩ := Direction.exists_minutes hf
  have hrange := RelTime.range_of_minutes? hm
  have hrange' := RelTime.range_of_minutes? hn
  rw [Direction.cost_of_minutes? hm, Direction.cost_of_minutes? hn] at *
  unfold visitBetween Leg.gap travelLeg Instant.since Duration.ofInt?
  cases hdir : s.dir with
  | forward =>
    simp only [hdir, Direction.sign_forward] at *
    have hlong : 0 ≤ (s.instantOf y.start).minutes - (s.instantOf x.finish).minutes ∧
      (s.instantOf y.start).minutes - (s.instantOf x.finish).minutes ≤ 65535 := by omega
    rw [if_pos hsource, if_pos hlong]
    refine ⟨_, rfl, Duration.isFeasible_iff.2 ?_, ?_⟩ <;>
      rw [Option.getD_some, Duration.minutes_clamp] <;> omega
  | backward =>
    simp only [hdir, Direction.sign_backward] at *
    have hlong : 0 ≤ (s.instantOf x.finish).minutes - (s.instantOf y.start).minutes ∧
      (s.instantOf x.finish).minutes - (s.instantOf y.start).minutes ≤ 65535 := by omega
    rw [if_pos hsource.symm, if_pos hlong, hsource]
    refine ⟨_, rfl, Duration.isFeasible_iff.2 ?_, ?_⟩ <;>
      rw [Option.getD_some, Duration.minutes_clamp] <;> omega

/-- No visit of legs that follow each other lasts longer than a duration can tell. -/
lemma Told.isFeasible_stay (htold : s.Told) {legs : List SearchLeg} (h : s.Chained legs)
    (htimed : ∀ leg ∈ legs, leg.Timed) : ∀ visit ∈ s.visitsTo legs, visit.stay.isFeasible = true := by
  have hpassed : ∀ x, ∀ visit ∈ s.passedBy x, visit.stay.isFeasible = true := by
    intro x visit hvisit
    have hmem : visit ∈ (s.travelLeg x).passed s.timetable := by
      unfold passedBy at hvisit
      cases hdir : s.dir <;> rw [hdir] at hvisit
      · exact hvisit
      · exact List.mem_reverse.1 hvisit
    unfold Leg.passed at hmem
    split at hmem
    · obtain ⟨stop, _, rfl⟩ := List.mem_map.1 hmem
      rfl
    · cases hmem
  fun_induction visitsTo s legs with
  | case1 => exact fun _ hvisit => absurd hvisit List.not_mem_nil
  | case2 x => exact hpassed x
  | case3 y x rest ih =>
    obtain ⟨hprecedes, hrest⟩ := List.isChain_cons_cons.1 h
    obtain ⟨stay, heq, hstay, _⟩ := htold.exists_visitBetween_eq hprecedes.source_eq
      hprecedes.cost_le (htimed y List.mem_cons_self).1
    intro visit hvisit
    rcases List.mem_append.1 hvisit with hvisit | hvisit
    · rcases List.mem_append.1 hvisit with hvisit | hvisit
      · exact ih hrest (fun leg hleg => htimed leg (List.mem_cons_of_mem _ hleg)) visit hvisit
      · rw [heq] at hvisit
        rw [List.mem_singleton.1 hvisit]
        exact hstay
    · exact hpassed y visit hvisit

/-- The via stops from one level to another, in search order, without their longest stays. -/
def viasBetween (s : Search) (v v' : Nat) : List ViaStop :=
  ((s.query.searchVias.drop v).take (v' - v)).map ViaStop.unbounded

lemma viasBetween_append (huv : u ≤ v) (hv : v ≤ v') :
    s.viasBetween u v ++ s.viasBetween v v' = s.viasBetween u v' := by
  have hsum : v' - u = (v - u) + (v' - v) := by omega
  have hdrop : v = u + (v - u) := by omega
  unfold viasBetween
  rw [← List.map_append, hsum, List.take_add, List.drop_drop, ← hdrop]

lemma viasBetween_self (s : Search) (v : Nat) : s.viasBetween v v = [] := by
  unfold viasBetween
  rw [Nat.sub_self, List.take_zero, List.map_nil]

lemma minutes_foldl_stay (vias : List ViaStop) (stay : Duration) :
    (vias.foldl (fun stay via => stay.add via.stay) stay).minutes =
      min (stay.minutes + ViaStop.totalStay vias) 65535 := by
  induction vias generalizing stay with
  | nil =>
    have := stay.minutes_le
    rw [List.foldl_nil, ViaStop.totalStay_nil]
    omega
  | cons via vias ih =>
    rw [List.foldl_cons, ih, Duration.minutes_add, ViaStop.totalStay_cons]
    omega

/-- A visit as long as the stay that it takes to come from one level to another serves the via
stops between them. -/
lemma assigned_of_mem_stays {stay long : Duration} (h : (v', stay) ∈ s.stays l v)
    (hlong : stay ≤ long) (hf : long.isFeasible = true) :
    Assigned (s.viasBetween v v') [⟨l, long⟩] := by
  obtain ⟨n, hn, rfl, hlocations, rfl⟩ := mem_staysAt_iff.1 h
  have hle : Duration.minutes _ ≤ long.minutes := hlong
  have hlt := Duration.isFeasible_iff.1 hf
  have hsub : v + n - v = n := by omega
  rw [minutes_foldl_stay, Duration.minutes_zero] at hle
  refine ViaStop.assigned_of_servedBy (ViaStop.servedBy_unbounded_iff.2 ?_)
  rw [hsub]
  refine ⟨hlocations, ?_⟩
  show ViaStop.totalStay _ ≤ long.minutes
  omega

/-- Someone who stays between two legs serves the via stops of the stay. -/
lemma Told.assigned_visitBetween (htold : s.Told) {stay : Duration}
    (h : (v', stay) ∈ s.stays x.target v) (hsource : y.source = x.target)
    (hle : s.dir.cost (s.dir.add x.finish stay) ≤ s.dir.cost y.start)
    (hf : y.start.isFeasible = true) : Assigned (s.viasBetween v v') (s.visitBetween x y) := by
  have hcost := Direction.cost_add_of_isFeasible (Direction.isFeasible_of_le hle hf)
  obtain ⟨long, heq, hlong, hlasts⟩ := htold.exists_visitBetween_eq hsource
    (Int.le_trans (Direction.cost_le_add _ _) hle) hf
  rw [heq]
  refine assigned_of_mem_stays h ?_ hlong
  show stay.minutes ≤ long.minutes
  omega

/-! ### Between two vehicles -/

lemma Told.assigned_walked (htold : s.Told) {stay stay' : Duration}
    (hstay : (v, stay) ∈ s.stays x.target u) (hwalk : w ∈ s.walks x.target (s.dir.add x.finish stay))
    (hstay' : (v', stay') ∈ s.stays w.target v) (hsource : y.source = w.target)
    (hle : s.dir.cost (s.dir.add w.finish stay') ≤ s.dir.cost y.start)
    (hf : y.start.isFeasible = true) :
    Assigned (s.viasBetween u v') (s.visitsAround (some w) x y) := by
  have hfinish := Direction.isFeasible_of_add (Direction.isFeasible_of_le hle hf)
  have htimed := timed_walk hwalk hfinish
  have hfirst : Assigned (s.viasBetween u v) (s.visitBetween x w.leg) :=
    htold.assigned_visitBetween hstay (source_of_mem_walks hwalk) (cost_of_mem_walks hwalk).1
      htimed.1
  have hsecond : Assigned (s.viasBetween v v') (s.visitBetween w.leg y) :=
    htold.assigned_visitBetween hstay' hsource hle hf
  rw [← viasBetween_append (le_of_mem_stays hstay) (le_of_mem_stays hstay')]
  exact hfirst.append hsecond

lemma Stands.assigned (htold : s.Told) {walk : Option Walk} (h : s.Stands a walk l v t)
    (hx : EndsAt x a) (hsource : y.source = l) (hle : s.dir.cost t ≤ s.dir.cost y.start)
    (hf : y.start.isFeasible = true) :
    Assigned (s.viasBetween a.level v) (s.visitsAround walk x y) := by
  cases h with
  | here hstay =>
    rw [← hx.target_eq] at hstay hsource
    rw [← hx.finish_eq] at hle
    exact htold.assigned_visitBetween hstay hsource hle hf
  | walked hstay hwalk hstay' =>
    rw [← hx.target_eq] at hstay hwalk
    rw [← hx.finish_eq] at hwalk
    exact htold.assigned_walked hstay hwalk hstay' hsource hle hf

/-- The via level of someone who begins to get ready. -/
def approachLevel : Approach → Nat
  | .fromStart _ _ => 0
  | .fromVehicle a _ => a.level

/-- Getting ready for a vehicle serves the via stops from one level to another. -/
lemma Readies.assigned (htold : s.Told) {approach : Approach} (h : s.Readies approach l v t)
    (hx : s.LeadsTo x approach) (hsource : y.source = l)
    (hle : s.dir.cost t ≤ s.dir.cost y.start) (hf : y.start.isFeasible = true) :
    Assigned (s.viasBetween (approachLevel approach) v) (s.visitsAround approach.walk x y) := by
  cases h with
  | start _ hstay =>
    obtain ⟨_, rfl⟩ := hx
    exact htold.assigned_visitBetween hstay hsource hle hf
  | startOnFoot _ hwalk hstay =>
    obtain ⟨_, rfl⟩ := hx
    refine htold.assigned_walked (self_mem_stays _ _) ?_ hstay hsource hle hf
    rw [Direction.add_zero]
    exact hwalk
  | transfer hstay =>
    rename_i b stay
    have hx : EndsAt x b := hx
    refine Stands.assigned htold (.here hstay) hx hsource (Int.le_trans ?_ hle) hf
    exact Direction.cost_add_le_add (Duration.le_longer_left _ _)
  | onFoot h => exact h.assigned htold hx hsource hle hf

lemma Stands.le {walk : Option Walk} (h : s.Stands a walk l v t) : a.level ≤ v := by
  cases h with
  | here hstay => exact le_of_mem_stays hstay
  | walked hstay _ hstay' => exact Nat.le_trans (le_of_mem_stays hstay) (le_of_mem_stays hstay')

lemma Readies.le {approach : Approach} (h : s.Readies approach l v t) :
    approachLevel approach ≤ v := by
  cases h with
  | start _ hstay => exact le_of_mem_stays hstay
  | startOnFoot _ _ hstay => exact le_of_mem_stays hstay
  | transfer hstay => exact le_of_mem_stays hstay
  | onFoot h => exact h.le

/-- The stops of a route from one step on and before another one, as visits without a stay. -/
def passedStops (s : Search) (r : RouteIndex) (first step : Nat) : List Visit :=
  (List.range' first (step - first)).filterMap fun i =>
    (s.stopAt? r i).map fun stop => ⟨stop.location, .zero⟩

lemma passedStops_succ {stop : RouteStop} {first step : Nat} (h : first ≤ step)
    (hstop : s.stopAt? r step = some stop) :
    s.passedStops r first (step + 1) = s.passedStops r first step ++ [⟨stop.location, .zero⟩] := by
  have hlast : first + (step - first) = step := by omega
  unfold passedStops
  rw [Nat.succ_sub h, List.range'_1_concat, List.filterMap_append, hlast]
  simp only [List.filterMap_cons, List.filterMap_nil, hstop, Option.map_some]

lemma totalStay_eq_zero {vias : List ViaStop} (h : ∀ via ∈ vias, via.stay = .zero) :
    ViaStop.totalStay vias = 0 := by
  induction vias with
  | nil => rfl
  | cons via vias ih =>
    rw [ViaStop.totalStay_cons, h via List.mem_cons_self,
      ih fun other hother => h other (List.mem_cons_of_mem _ hother)]
    rfl

/-- Riding through a location serves the via stops there that ask for no stay. -/
lemma PassesAt.assigned (h : s.PassesAt l v v') :
    Assigned (s.viasBetween v v') [⟨l, .zero⟩] := by
  have hvias : ∀ via ∈ (s.query.searchVias.drop v).take (v' - v),
      via.location = l ∧ via.stay = .zero := by
    intro via hvia
    obtain ⟨i, hi⟩ := List.mem_iff_getElem?.1 hvia
    rw [List.getElem?_take, List.getElem?_drop] at hi
    split at hi
    · obtain ⟨passed, hpassed, hstay⟩ := h.2 (v + i) (Nat.le_add_right _ _) (by omega)
      obtain ⟨hget, hlocation⟩ := Option.filter_eq_some_iff.1 hpassed
      cases Option.some.inj (hget.symm.trans hi)
      exact ⟨beq_iff_eq.1 hlocation, hstay⟩
    · cases hi
  refine ViaStop.assigned_of_servedBy (ViaStop.servedBy_unbounded_iff.2
    ⟨fun via hvia => (hvias via hvia).1, ?_⟩)
  rw [totalStay_eq_zero fun via hvia => (hvias via hvia).2]
  exact Nat.zero_le _

/-- Riding through stops serves the via stops there that ask for no stay. -/
lemma PassesVias.assigned {first step : Nat} (h : s.PassesVias r first v step v') :
    Assigned (s.viasBetween v v') (s.passedStops r first step) := by
  induction h with
  | nil =>
    rw [viasBetween_self]
    exact .done _
  | snoc hbefore hstop hat ih =>
    obtain ⟨hstep, hlevel⟩ := hbefore.le
    rw [passedStops_succ hstep hstop, ← viasBetween_append hlevel hat.1]
    exact ih.append hat.assigned

lemma take_drop_eq_filterMap {α : Type} (items : List α) (i n : Nat) (h : i + n ≤ items.length) :
    (items.drop i).take n = (List.range' i n).filterMap (items[·]?) := by
  induction n generalizing i with
  | zero => rfl
  | succ n ih =>
    have hlt : i < items.length := by omega
    rw [List.drop_eq_getElem_cons hlt, List.take_succ_cons, ih (i + 1) (by omega),
      List.range'_succ, List.filterMap_cons, List.getElem?_eq_getElem hlt]

lemma toList_extract_eq {α : Type} (items : Array α) {i j : Nat} (hi : i ≤ j) (hj : j ≤ items.size) :
    (items.extract i j).toList = (List.range' i (j - i)).filterMap (items[·]?) := by
  have hlist := take_drop_eq_filterMap items.toList i (j - i) (by
    rw [Array.length_toList]
    omega)
  rw [Array.toList_extract, List.extract_eq_take_drop, hlist]
  simp only [Array.getElem?_toList]

lemma reverse_range'_eq_map {first n k : Nat} (h : first + k ≤ n) :
    (List.range' (n - (first + k)) k).reverse = (List.range' first k).map (n - 1 - ·) := by
  refine List.ext_getElem ?_ fun i hi hi' => ?_
  · rw [List.length_reverse, List.length_map, List.length_range', List.length_range']
  · rw [List.length_reverse, List.length_range'] at hi
    simp only [List.getElem_reverse, List.getElem_map, List.getElem_range', List.length_range']
    omega

lemma passedBy_rideLeg (hw : s.timetable.WellFormed) {board alight : Nat} (h : s.Runs r trip)
    (hlt : board < alight) (hn : alight < s.nbOfStops r) :
    s.passedBy (s.rideLeg r trip board alight l a) = s.passedStops r (board + 1) alight := by
  have hroute := hw.route_of h.of_route
  unfold passedBy passedStops Leg.passed stopAt?
  rw [kind_travelLeg]
  unfold rideLeg positionAt
  unfold nbOfStops at *
  cases hdir : s.dir with
  | forward =>
    simp only [Direction.position]
    rw [hroute, toList_extract_eq _ (by omega) (by omega), List.map_filterMap]
  | backward =>
    simp only [Direction.position]
    have hfirst : (s.timetable.stops r).size - 1 - alight + 1 =
        (s.timetable.stops r).size - (board + 1 + (alight - (board + 1))) := by omega
    have hcount : (s.timetable.stops r).size - 1 - board -
        ((s.timetable.stops r).size - (board + 1 + (alight - (board + 1)))) =
          alight - (board + 1) := by omega
    rw [hroute, hfirst, toList_extract_eq _ (by omega) (by omega), hcount, ← List.map_reverse,
      ← List.filterMap_reverse, reverse_range'_eq_map (by omega), List.map_filterMap,
      List.filterMap_map]
    rfl

lemma RidesBy.assigned (hw : s.timetable.WellFormed) {ride : SearchLeg}
    (h : s.RidesBy l v t a ride) : Assigned (s.viasBetween v a.level) (s.passedBy ride) := by
  obtain ⟨r, trip, board, alight, hride, _, rfl⟩ := h
  rw [passedBy_rideLeg hw hride.boarded.runs hride.boarded.goes_on hride.alight_lt]
  exact hride.boarded.passes.assigned

lemma RidesBy.le {ride : SearchLeg} (h : s.RidesBy l v t a ride) : v ≤ a.level := by
  obtain ⟨r, trip, board, alight, hride, _, _⟩ := h
  exact hride.boarded.passes.le.2

/-- One more vehicle, and the way to it, serve the via stops up to the level of its arrival. -/
lemma Told.assigned_cons (htold : s.Told) (hw : s.timetable.WellFormed) {approach : Approach}
    {ride : SearchLeg} {rest : List SearchLeg} (hready : s.Readies approach l v t)
    (hrides : s.RidesBy l v t a ride) (hx : s.LeadsTo x approach)
    (hbefore : Assigned (s.viasBetween 0 (approachLevel approach)) (s.visitsTo (x :: rest))) :
    Assigned (s.viasBetween 0 a.level)
      (s.visitsTo (ride :: Walk.legs approach.walk ++ x :: rest)) := by
  obtain ⟨hboard, hcost, _⟩ := hrides.times
  have haround := hready.assigned htold hx hrides.source_eq hcost hboard
  rw [visitsTo_around, ← viasBetween_append (Nat.zero_le v) hrides.le,
    ← viasBetween_append (Nat.zero_le _) hready.le]
  exact (hbefore.append haround).append (hrides.assigned hw)

/-- The legs that lead to an arrival serve the via stops below its level. -/
lemma Leads.assigned (htold : s.Told) (hw : s.timetable.WellFormed) {legs : List SearchLeg}
    (h : s.Leads k legs a) : Assigned (s.viasBetween 0 a.level) (s.visitsTo legs) := by
  induction h with
  | first hready hrides =>
    rename_i o walk l level t a ride
    have ho : o ∈ s.query.start := by cases hready <;> assumption
    refine htold.assigned_cons hw hready hrides ⟨ho, rfl⟩ ?_
    rw [approachLevel, viasBetween_self]
    exact .done _
  | next hready hrides hleads ih =>
    obtain ⟨before, rest, rfl, hends, _⟩ := hleads.chained
    exact htold.assigned_cons hw hready hrides hends ih

lemma viasBetween_zero_last (h : v + 1 = s.levels) :
    s.viasBetween 0 v = s.query.searchVias.map ViaStop.unbounded := by
  have hlength : s.query.searchVias.length = v := by
    rw [length_searchVias]
    exact (Nat.succ.inj h).symm
  unfold viasBetween
  rw [List.drop_zero, Nat.sub_zero, List.take_of_length_le (Nat.le_of_eq hlength)]

/-- The legs of a way to the destination serve all via stops. -/
lemma Arrives.assigned (htold : s.Told) (hw : s.timetable.WellFormed) {h : Hit}
    (harrives : s.Arrives h) {before : List SearchLeg} (hleads : s.Leads k before h.arrival) :
    Assigned (s.query.searchVias.map ViaStop.unbounded) (s.visitsTo (h.legs before)) := by
  obtain ⟨level, hlevel, hstands⟩ := harrives.stands
  have hbefore := hleads.assigned htold hw
  obtain ⟨ride, rest, rfl, hends, _⟩ := hleads.chained
  have haround := hstands.assigned htold (y := h.egressLeg) hends rfl (Int.le_refl _)
    harrives.timed.1.1
  have hegress : s.passedBy h.egressLeg = [] := passedBy_of_not_isRide rfl
  rw [← viasBetween_zero_last hlevel, Hit.legs, visitsTo_around, hegress, List.append_nil,
    ← viasBetween_append (Nat.zero_le _) hstands.le]
  exact hbefore.append haround

/-- The visits of a journey, in travel order, serve all via stops of its query in travel order. -/
lemma Arrives.assigned_journey (htold : s.Told) (hw : s.timetable.WellFormed) {h : Hit}
    (harrives : s.Arrives h) {before : List SearchLeg} (hleads : s.Leads k before h.arrival) :
    Assigned (s.query.vias.map ViaStop.unbounded)
      ((s.journey k h before).visits s.timetable) := by
  have hassigned := harrives.assigned htold hw hleads
  unfold Journey.visits
  rw [legs_journey, visitsOf_travelLegs]
  unfold Query.searchVias at hassigned
  unfold dir
  cases hdir : s.query.direction with
  | forward =>
    rw [hdir] at hassigned
    exact hassigned
  | backward =>
    rw [hdir] at hassigned
    have hreverse := hassigned.reverse
    rw [← List.map_reverse, List.reverse_reverse] at hreverse
    exact hreverse

lemma Told.isFeasible_stay_journey (htold : s.Told) {h : Hit} (harrives : s.Arrives h)
    {before : List SearchLeg} (hleads : s.Leads k before h.arrival)
    (hbefore : ∀ leg ∈ before, leg.Timed) :
    ∀ visit ∈ (s.journey k h before).visits s.timetable, visit.stay.isFeasible = true := by
  intro visit hvisit
  refine htold.isFeasible_stay (harrives.chained_legs hleads) (harrives.timed_legs hbefore) visit ?_
  unfold Journey.visits at hvisit
  rw [legs_journey, visitsOf_travelLegs] at hvisit
  cases hdir : s.dir with
  | forward =>
    rw [hdir] at hvisit
    exact hvisit
  | backward =>
    rw [hdir] at hvisit
    exact List.mem_reverse.1 hvisit

/-- A journey of a search that knows its instants serves the via stops of its query. -/
theorem Told.serves_of_mem (htold : s.Told) (hw : s.timetable.WellFormed) (hanchored : s.Anchored)
    (hmax : s.query.maxTransfers ≤ maxTransfers) {st : SearchState} {j : Journey}
    (h : j ∈ s.journeys (s.explore st).1) : j.Serves s.timetable s.query := by
  obtain ⟨_, _, _, _, _, hallowed⟩ := mem_journeys.1 h
  obtain ⟨k, hit, before, _, harrives, hleads, hbefore, rfl⟩ :=
    exists_way_of_mem_journeys hw hanchored hmax h
  exact Journey.serves_of_allowsStays (htold.isFeasible_stay_journey harrives hleads hbefore)
    (harrives.assigned_journey htold hw hleads) hallowed

end Search

/-- Every journey of an accepted query visits all its via stops in travel order, each for as long
as it asks, together with those served by the same visit, and for no longer than it allows. -/
theorem serves_of_mem_run {tt : Timetable} (hbuilt : tt.IsBuilt) (hfit : tt.calendar.InstantsFit)
    {accepting : SearchState} {q : Query} {planner : Planner}
    (haccept : Planner.accept tt accepting q = .ok planner) {j : Journey}
    (h : j ∈ planner.run.1) : j.Serves tt q := by
  obtain ⟨rfl, hfits, _⟩ := Planner.accept_eq_ok_iff.1 haccept
  obtain ⟨_, _, s, st, hsearch, hj⟩ := Planner.answers_of_mem_run h
  obtain ⟨rfl, rfl, hanchored, _, hbase⟩ := Search.at?_sound hsearch
  exact Search.Told.serves_of_mem ⟨hfit, hbase⟩ hbuilt.wellFormed hanchored hfits.maxTransfers_le hj

namespace TwoVehicles

/-- From the first stop to the last one, staying at the second one for five to ten minutes. -/
def stayingQuery : Query :=
  { query with
    startTime := .instant (clock 470)
    destination := [⟨⟨2⟩, .zero, 0⟩]
    vias := [⟨⟨1⟩, .clamp 5, some (.clamp 10)⟩] }

def stayingPlanner : Planner := ⟨timetable 545, stayingQuery, .sized 2 3 1 0, 0⟩

/-- The journey of the staying query leaves the first vehicle at the second stop, and waits there
for the second one. -/
theorem serves_of_mem_run_staying : ∃ j, stayingPlanner.run.1.head? = some j ∧
    j.Serves (timetable 545) stayingQuery := by
  have hsome : stayingPlanner.run.1.head?.isSome = true := by decide +kernel
  have haccept : Planner.accept (timetable 545) (.sized 2 3 1 0) stayingQuery =
      .ok stayingPlanner := by cbv
  obtain ⟨j, hj⟩ := Option.isSome_iff_exists.1 hsome
  exact ⟨j, hj, serves_of_mem_run (isBuilt (.inr rfl)) (instantsFit (.inr rfl)) haccept
    (List.mem_of_head? hj)⟩

end TwoVehicles

end JourneyPlanner
