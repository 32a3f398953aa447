import JourneyPlanner.Proofs.Search.Commuting

/-!
# The order of offsets

The offsets of the start are taken one after the other, and each of them writes starts of round 0
only: the best of all that are offered does not depend on their order. Which offset of the
destination a journey ends with may depend on it, but how long that offset takes does not. So the
same times are found, and the same journeys as far as they are compared.
-/

namespace JourneyPlanner

namespace Search

variable {s : Search} {start destination : List Offset}

/-- Someone who comes to a location on foot is ready there, and after each stay at a via stop. -/
def onFoot (s : Search) (l : LocationIndex) (t : RelTime) : List Arrival :=
  (s.stays l 0).map fun (v, stay) => ⟨l, v, s.dir.add t stay⟩

/-- Where someone is ready by an offset of the start. -/
def seedStarts (s : Search) (o : Offset) : List Arrival :=
  s.onFoot o.location (s.seedTime o) ++
    (s.walks o.location (s.seedTime o)).flatMap fun w => s.onFoot w.target w.finish

lemma reachOnFoot_zero (s : Search) (a : Arrival) (w : Option Walk) (l : LocationIndex) (t : RelTime)
    (p : Progress) : s.reachOnFoot 0 a w l 0 t p = (s.onFoot l t).foldl (s.offerStart 0) p := by
  unfold onFoot
  rw [reachOnFoot_eq, List.foldl_map]
  refine List.foldl_ext _ _ _ fun q x _ => ?_
  dsimp only
  rw [reachDestination_zero]
  rfl

/-- An offset offers starts, and nothing is a way to the destination yet. -/
lemma seedOffset_eq (s : Search) (p : Progress) (o : Offset) :
    s.seedOffset p o = (s.seedStarts o).foldl (s.offerStart 0) p := by
  unfold seedOffset walkOn seedStarts
  simp only [reachOnFoot_zero, List.foldl_append, List.foldl_flatMap]

lemma seedOffsets_eq (s : Search) (offsets : List Offset) (p : Progress) :
    offsets.foldl s.seedOffset p = (offsets.flatMap s.seedStarts).foldl (s.offerStart 0) p := by
  rw [List.foldl_flatMap]
  exact List.foldl_ext _ _ _ fun q o _ => s.seedOffset_eq q o

lemma seedOffsets_perm {offsets others : List Offset} (s : Search) (h : others.Perm offsets)
    (p : Progress) : others.foldl s.seedOffset p = offsets.foldl s.seedOffset p := by
  rw [seedOffsets_eq, seedOffsets_eq]
  exact (h.flatMap_right _).foldl_eq' (fun a _ b _ q => s.offerStart_comm 0 q a b) p

lemma prepare_perm (s : Search) (start : List Offset) (h : destination.Perm s.query.destination)
    (st : SearchState) : (s.offering start destination).prepare st = s.prepare st := by
  have hcomm : ∀ (o o' : Offset) (st : SearchState),
      (st.addExit o.location).addExit o'.location = (st.addExit o'.location).addExit o.location := by
    intro o o' st
    unfold SearchState.addExit
    rw [BitSet.insert_comm]
  exact congrArg Progress.start (h.foldl_eq' (fun o _ o' _ st => hcomm o o' st) st.reset)

end Search

namespace Offset

/-- The shortest of several offsets may depend on their order, but not how long it takes. -/
lemma exists_shortest?_of_perm {offsets others : List Offset} (h : others.Perm offsets) {e : Offset}
    (he : shortest? offsets = some e) : ∃ e', shortest? others = some e' ∧ e'.duration = e.duration := by
  obtain ⟨e', he', hle⟩ := exists_shortest?_le (h.mem_iff.2 (mem_of_shortest? he))
  obtain ⟨e'', he'', hge⟩ := exists_shortest?_le (h.mem_iff.1 (mem_of_shortest? he'))
  cases he.symm.trans he''
  exact ⟨e', he', Duration.ext (Nat.le_antisymm hle hge)⟩

end Offset

namespace Search

variable {s : Search} {start destination : List Offset}

/-- The egress of another query, where it has one. -/
def otherEgress (s : Search) (start destination : List Offset) (l : LocationIndex) (e : Offset) :
    Offset :=
  ((s.offering start destination).egress? l).getD e

lemma retells_of_perm (start : List Offset) (h : destination.Perm s.query.destination) :
    s.Retells start destination (s.otherEgress start destination) := by
  have hother : ∀ {l e}, s.egress? l = some e → ∃ e',
      (s.offering start destination).egress? l = some e' ∧ e'.duration = e.duration :=
    fun he => Offset.exists_shortest?_of_perm (h.filter _) he
  constructor
  · intro l
    cases hegress : s.egress? l with
    | some e =>
      obtain ⟨e', he', _⟩ := hother hegress
      rw [he', Option.map_some, otherEgress, he', Option.getD_some]
    | none =>
      cases hegress' : (s.offering start destination).egress? l with
      | none => rfl
      | some e' =>
        obtain ⟨e, he, _⟩ := Offset.exists_shortest?_of_perm (h.symm.filter _) hegress'
        cases hegress.symm.trans he
  · intro l e he
    obtain ⟨e', he', hduration⟩ := hother he
    rw [otherEgress, he', Option.getD_some, hduration]

/-- A search goes through the same rounds for its offsets in any order. -/
lemma explore_perm (hstart : start.Perm s.query.start)
    (hdestination : destination.Perm s.query.destination) (st : SearchState) :
    (s.offering start destination).explore st = ((s.explore st).1.retell st.nbOfRealtimeTransports
      (s.otherEgress start destination), (s.explore st).2) :=
  (retells_of_perm start hdestination).explore _ (prepare_perm s start hdestination st)
    (s.seedOffsets_perm hstart _)

/-- The journey of a way to the destination, as far as journeys are compared. -/
def outline (s : Search) (k : Nat) (h : Hit) : Journey :=
  let start := s.instantOf s.start
  let finish := s.instantOf h.destinationTime
  match s.dir with
  | .forward => ⟨start, finish, k - 1, []⟩
  | .backward => ⟨finish, start, k - 1, []⟩

lemma withoutLegs_journey (s : Search) (k : Nat) (h : Hit) (before : List SearchLeg) :
    (s.journey k h before).withoutLegs = s.outline k h := by
  unfold outline journey
  cases s.dir <;> rfl

/-- Without longest stays, each way to the destination gives its journey. -/
lemma map_withoutLegs_journeys (hw : s.timetable.WellFormed) (hanchored : s.Anchored)
    (hmax : s.query.maxTransfers ≤ maxTransfers) (hstays : ∀ via ∈ s.query.vias, via.maxStay = none)
    (st : SearchState) : (s.journeys (s.explore st).1).map Journey.withoutLegs =
      (List.range' 1 (s.query.maxTransfers + 1)).filterMap fun k =>
        ((s.explore st).1.hit? k).map (s.outline k) := by
  obtain ⟨_, _, htraced⟩ := traced_explore hw hmax st
  rw [journeys_eq, List.map_filterMap]
  refine List.filterMap_congr fun k _ => ?_
  unfold journeyIn?
  cases hhit : (s.explore st).1.hit? k with
  | none => rfl
  | some h =>
    obtain ⟨before, _, _, hjourney⟩ := htraced.exists_journeyOf? hw hanchored hhit
    have hallowed := Query.allowsStays_of_maxStay_eq_none hstays s.timetable (s.journey k h before)
    rw [Option.bind_some, hjourney, Option.filter_some, if_pos hallowed, Option.map_some,
      Option.map_some, withoutLegs_journey]

/-- A search finds the same journeys for its offsets in any order, as far as journeys are
compared. -/
lemma map_withoutLegs_journeys_perm (hw : s.timetable.WellFormed) (hanchored : s.Anchored)
    (hmax : s.query.maxTransfers ≤ maxTransfers) (hstays : ∀ via ∈ s.query.vias, via.maxStay = none)
    (hstart : start.Perm s.query.start) (hdestination : destination.Perm s.query.destination)
    (st : SearchState) : ((s.offering start destination).journeys
      ((s.offering start destination).explore st).1).map Journey.withoutLegs =
        (s.journeys (s.explore st).1).map Journey.withoutLegs := by
  have houtline : ∀ k, (s.offering start destination).outline k ∘
      Hit.retell (s.otherEgress start destination) = s.outline k := fun _ => rfl
  have hother := map_withoutLegs_journeys (s := s.offering start destination) hw hanchored hmax
    hstays st
  rw [explore_perm hstart hdestination] at hother ⊢
  rw [hother, map_withoutLegs_journeys hw hanchored hmax hstays]
  simp only [Progress.hit?_retell, Option.map_map, houtline]
  rfl

lemma at?_offering (tt : Timetable) (q : Query) (start destination : List Offset) (t : Instant) :
    Search.at? tt (q.offering start destination) t =
      (Search.at? tt q t).map (·.offering start destination) := by
  unfold Search.at?
  rw [Option.map_map]
  rfl

end Search

namespace Query

variable {q : Query} {tt : Timetable} {start destination : List Offset}

/-- The order of the offsets of the start does not change from when an interval is searched. -/
lemma startInstants_perm (hstart : start.Perm q.start) (destination : List Offset)
    (tt : Timetable) (first last : Instant) :
    (q.offering start destination).startInstants tt first last = q.startInstants tt first last := by
  refine congrArg Instant.distinct (mergeSort_eq_of_perm ?_ ?_ ?_
    (((hstart.flatMap_right _).flatMap_right _).filter _))
  · intro a b c hab hbc
    exact decide_eq_true (Int.le_trans (of_decide_eq_true hab) (of_decide_eq_true hbc))
  · intro a b
    rw [Bool.or_eq_true, decide_eq_true_iff, decide_eq_true_iff]
    exact Int.le_total a.minutes b.minutes
  · intro a b hab hba
    exact Instant.ext (Int.le_antisymm (of_decide_eq_true hab) (of_decide_eq_true hba))

lemma Fits.offering {n : Nat} (h : q.Fits tt n) (hstart : start.Perm q.start)
    (hdestination : destination.Perm q.destination) : (q.offering start destination).Fits tt n where
  starts := by
    rw [← h.starts]
    exact hstart.isEmpty_eq
  ends := by
    rw [← h.ends]
    exact hdestination.isEmpty_eq
  known l hl :=
    h.known l ((((hstart.append hdestination).map _).append_right _).mem_iff.1 hl)
  vias_le := h.vias_le
  vias_eq := h.vias_eq
  consistent := h.consistent
  maxTransfers_le := h.maxTransfers_le
  start_ok := h.start_ok

end Query

namespace Planner

variable {p : Planner} {start destination : List Offset}

/-- The same planner for other offsets. -/
def offering (p : Planner) (start destination : List Offset) : Planner :=
  { p with query := p.query.offering start destination }

section Perm

variable (hw : p.timetable.WellFormed) (hmax : p.query.maxTransfers ≤ maxTransfers)
  (hstays : ∀ via ∈ p.query.vias, via.maxStay = none) (hstart : start.Perm p.query.start)
  (hdestination : destination.Perm p.query.destination)
include hw hmax hstays hstart hdestination

lemma map_withoutLegs_searchFrom_perm (t : Instant) :
    ((p.offering start destination).searchFrom t).1.map Journey.withoutLegs =
      (p.searchFrom t).1.map Journey.withoutLegs := by
  have hat := Search.at?_offering p.timetable p.query start destination t
  cases hsearch : Search.at? p.timetable p.query t with
  | none =>
    rw [hsearch] at hat
    rw [searchFrom_of_none hsearch, searchFrom_of_none (p := p.offering start destination) hat]
  | some s =>
    rw [hsearch, Option.map_some] at hat
    rw [searchFrom_of_some hsearch, searchFrom_of_some (p := p.offering start destination) hat]
    dsimp only [offering]
    obtain ⟨htimetable, hquery, hanchored, _, _⟩ := Search.at?_sound hsearch
    rw [← htimetable] at hw
    rw [← hquery] at hmax hstays hstart hdestination
    exact Search.map_withoutLegs_journeys_perm hw hanchored hmax hstays hstart hdestination p.state

lemma map_withoutLegs_run_perm : (p.offering start destination).run.1.map Journey.withoutLegs =
    p.run.1.map Journey.withoutLegs := by
  have hsearch := map_withoutLegs_searchFrom_perm hw hmax hstays hstart hdestination
  cases htime : p.query.startTime with
  | instant t =>
    rw [run_of_instant htime, run_of_instant (p := p.offering start destination) htime,
      Journey.map_withoutLegs_sortByKey, Journey.map_withoutLegs_sortByKey, hsearch]
  | interval first last =>
    have hinstants := Query.startInstants_perm hstart destination p.timetable first last
    rw [run_of_interval htime, run_of_interval (p := p.offering start destination) htime,
      Journey.map_withoutLegs_sortByKey, Journey.map_withoutLegs_sortByKey,
      Journey.map_withoutLegs_paretoFilter, Journey.map_withoutLegs_paretoFilter,
      List.map_flatMap, List.map_flatMap]
    simp only [hsearch]
    exact congrArg _ (congrArg _ (congrArg _ hinstants))

end Perm

end Planner

/-- The offsets of an accepted query may be given in any order: without longest stays at the via
stops, the journeys that are found depart, arrive and change vehicles as they did. -/
theorem map_key_run_perm {tt : Timetable} (hbuilt : tt.IsBuilt) {accepting : SearchState}
    {q : Query} {planner : Planner} (haccept : Planner.accept tt accepting q = .ok planner)
    (hstays : ∀ via ∈ q.vias, via.maxStay = none) {start destination : List Offset}
    (hstart : start.Perm q.start) (hdestination : destination.Perm q.destination) :
    ∃ other, Planner.accept tt accepting (q.offering start destination) = .ok other ∧
      other.run.1.map Journey.key = planner.run.1.map Journey.key := by
  obtain ⟨rfl, hfits, hsized⟩ := Planner.accept_eq_ok_iff.1 haccept
  refine ⟨_, Planner.accept_eq_ok_iff.2 ⟨rfl, hfits.offering hstart hdestination, hsized⟩, ?_⟩
  have hrun := Planner.map_withoutLegs_run_perm (p := ⟨tt, q, accepting, 0⟩) hbuilt.wellFormed
    hfits.maxTransfers_le hstays hstart hdestination
  have hkeys : ∀ js : List Journey,
      js.map Journey.key = (js.map Journey.withoutLegs).map Journey.key := by
    intro js
    rw [List.map_map]
    rfl
  rw [hkeys, hkeys (Planner.run ⟨tt, q, accepting, 0⟩).1, ← hrun]
  rfl

namespace TwoVehicles

/-- From the first stop to the last one by one vehicle, by two modes at each end. -/
def byTwoModes : Query :=
  { query with
    start := [⟨⟨0⟩, .zero, 0⟩, ⟨⟨0⟩, .clamp 5, 1⟩]
    destination := [⟨⟨2⟩, .zero, 0⟩, ⟨⟨2⟩, .zero, 1⟩]
    maxTransfers := 0 }

/-- The modes of the journeys of a planner. -/
def modes (p : Planner) : List (List LegKind) := p.run.1.map fun j => j.legs.map Leg.kind

/-- The journey takes the modes that are named first, and is there at eleven in either order. -/
theorem map_key_run_perm_byTwoModes : ∃ other, Planner.accept (timetable 540) state
      (byTwoModes.offering byTwoModes.start.reverse byTwoModes.destination.reverse) = .ok other ∧
    other.run.1.map Journey.key = [(clock 490, clock 660, 0)] ∧
    modes ⟨timetable 540, byTwoModes, state, 0⟩ =
      [[.offset 0, .ride ⟨1⟩ serviceDay 0 2, .offset 0]] ∧
    modes other = [[.offset 1, .ride ⟨1⟩ serviceDay 0 2, .offset 1]] := by
  have haccept : Planner.accept (timetable 540) state byTwoModes =
      .ok ⟨timetable 540, byTwoModes, state, 0⟩ := by cbv
  obtain ⟨other, hother, hkeys⟩ := map_key_run_perm (isBuilt (.inl rfl)) haccept
    (fun _ hvia => absurd hvia List.not_mem_nil) byTwoModes.start.reverse_perm
    byTwoModes.destination.reverse_perm
  refine ⟨other, hother, hkeys.trans (by decide +kernel), by decide +kernel, ?_⟩
  obtain ⟨rfl, _, _⟩ := Planner.accept_eq_ok_iff.1 hother
  decide +kernel

end TwoVehicles

end JourneyPlanner
