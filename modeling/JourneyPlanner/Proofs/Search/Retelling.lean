import JourneyPlanner.Proofs.Search.Tracing

/-!
# Searches that differ in their offsets

The rounds of a search never read how its ways to the destination end, and of an egress they read
the duration only. So a search with other offsets goes through the same rounds, as long as an egress
takes the same time: its ways to the destination are told with another egress. Nor do the rounds read
the number of real-time transports.
-/

namespace JourneyPlanner

/-- The same state for another number of real-time transports. -/
def SearchState.forRealtime (n : Nat) (st : SearchState) : SearchState :=
  { st with nbOfRealtimeTransports := n }

/-- The same way to the destination, with another egress at its last location. -/
def Hit.retell (g : LocationIndex → Offset → Offset) (h : Hit) : Hit :=
  { h with egress := g h.location h.egress }

namespace Progress

variable {n : Nat} {g : LocationIndex → Offset → Offset} {p : Progress}

/-- The same progress in a state for another number of real-time transports. -/
def forRealtime (n : Nat) (p : Progress) : Progress :=
  p.mapState (·.forRealtime n)

/-- The same progress, its ways to the destination told with other egresses. -/
def retell (n : Nat) (g : LocationIndex → Offset → Offset) (p : Progress) : Progress :=
  { p.forRealtime n with hits := p.hits.map (Option.map (Hit.retell g)) }

lemma hit?_retell (k : Nat) : (p.retell n g).hit? k = (p.hit? k).map (Hit.retell g) := by
  change ((p.hits.map (Option.map (Hit.retell g)))[k]?).join = _
  rw [Array.getElem?_map, Option.join_map_eq_map_join]
  rfl

lemma anyMarked_retell (n : Nat) (g : LocationIndex → Offset → Offset) (p : Progress) :
    (p.retell n g).state.anyMarked = p.state.anyMarked := rfl

/-- Told with the same egresses, nothing changes. -/
lemma retell_same : p.retell n (fun _ e => e) = p.forRealtime n := by
  have hits : p.hits.map (Option.map (Hit.retell fun _ e => e)) = p.hits := by
    have hsame : Option.map (Hit.retell fun _ e => e) = id := Option.map_id
    rw [hsame, Array.map_id]
  unfold retell
  rw [hits]
  rfl

end Progress

/-- The same query for other offsets. -/
def Query.offering (q : Query) (start destination : List Offset) : Query :=
  { q with start := start, destination := destination }

namespace Search

/-- The same search for other offsets. -/
def offering (s : Search) (start destination : List Offset) : Search :=
  { s with query := s.query.offering start destination }

/-- Where an egress was found, another one is found that takes the same time. -/
structure Retells (s : Search) (start destination : List Offset)
    (g : LocationIndex → Offset → Offset) : Prop where
  egress_eq : ∀ l, (s.offering start destination).egress? l = (s.egress? l).map (g l)
  duration_eq : ∀ {l e}, s.egress? l = some e → (g l e).duration = e.duration

variable {s : Search} {start destination : List Offset} {g : LocationIndex → Offset → Offset}

lemma retells_same (s : Search) : s.Retells s.query.start s.query.destination fun _ e => e where
  egress_eq _ := Option.map_id'.symm
  duration_eq _ := rfl

lemma foldl_retell {α : Type} {f f' : Progress → α → Progress} {n : Nat}
    (hf : ∀ p x, f' (p.retell n g) x = (f p x).retell n g) (items : List α) (p : Progress) :
    items.foldl f' (p.retell n g) = (items.foldl f p).retell n g :=
  List.foldl_hom (Progress.retell n g) hf

lemma improveArrival_retell (s : Search) (start destination : List Offset)
    (g : LocationIndex → Offset → Offset) (n : Nat) (l : LocationIndex) (v : Nat) (t : RelTime)
    (p : Progress) : (s.offering start destination).improveArrival l v t (p.retell n g) =
      (s.improveArrival l v t p).retell n g := by
  unfold improveArrival
  rw [apply_ite (Progress.retell n g)]
  rfl

lemma improveStart_retell (s : Search) (start destination : List Offset)
    (g : LocationIndex → Offset → Offset) (n k : Nat) (l : LocationIndex) (v : Nat) (t : RelTime)
    (p : Progress) : (s.offering start destination).improveStart k l v t (p.retell n g) =
      (s.improveStart k l v t p).retell n g := by
  unfold improveStart
  rw [apply_ite (Progress.retell n g)]
  rfl

section Retells

variable (h : s.Retells start destination g) (n k : Nat)
include h

lemma Retells.reachDestination (a : Arrival) (w : Option Walk) (l : LocationIndex) (v : Nat)
    (t : RelTime) (p : Progress) :
    (s.offering start destination).reachDestination k a w l v t (p.retell n g) =
      (s.reachDestination k a w l v t p).retell n g := by
  unfold Search.reachDestination
  rw [apply_ite (Progress.retell n g), h.egress_eq]
  cases hegress : s.egress? l with
  | none => rfl
  | some egress =>
    have hset : ∀ x : Hit, (p.hits.setIfInBounds k (some x)).map (Option.map (Hit.retell g)) =
        (p.hits.map (Option.map (Hit.retell g))).setIfInBounds k (some (x.retell g)) :=
      fun x => Array.map_setIfInBounds
    dsimp only [Option.map_some]
    rw [h.duration_eq hegress, apply_ite (Progress.retell n g)]
    unfold Progress.retell
    dsimp only
    rw [hset]
    rfl

lemma Retells.reachOnFoot (a : Arrival) (w : Option Walk) (l : LocationIndex) (v : Nat)
    (t : RelTime) (p : Progress) :
    (s.offering start destination).reachOnFoot k a w l v t (p.retell n g) =
      (s.reachOnFoot k a w l v t p).retell n g := by
  rw [reachOnFoot_eq, reachOnFoot_eq]
  refine foldl_retell ?_ (s.stays l v) p
  rintro q ⟨v', stay⟩
  exact (congrArg _ (h.reachDestination n k a w l v' _ q)).trans
    (improveStart_retell s start destination g n k l v' _ _)

lemma Retells.walkOn (a : Arrival) (v : Nat) (t : RelTime) (p : Progress) :
    (s.offering start destination).walkOn k a v t (p.retell n g) = (s.walkOn k a v t p).retell n g :=
  foldl_retell (fun q w => h.reachOnFoot n k a (some w) w.target v w.finish q)
    (s.walks a.location t) p

lemma Retells.alight (a : Arrival) (p : Progress) :
    (s.offering start destination).alight k a (p.retell n g) = (s.alight k a p).retell n g := by
  refine foldl_retell ?_ (s.stays a.location a.level) p
  rintro q ⟨v', stay⟩
  exact (congrArg _ ((congrArg _ (h.reachDestination n k a none a.location v' _ q)).trans
    (improveStart_retell s start destination g n k a.location v' _ _))).trans
      (h.walkOn n k a v' _ _)

lemma Retells.alightAt (p : Progress) (l : LocationIndex) :
    (s.offering start destination).alightAt k (p.retell n g) l = (s.alightAt k p l).retell n g := by
  refine foldl_retell (fun q v => ?_) (List.range s.levels) p
  dsimp only
  rw [apply_ite (Progress.retell n g), ← h.alight]
  rfl

lemma Retells.transferAll (p : Progress) :
    (s.offering start destination).transferAll k (p.retell n g) = (s.transferAll k p).retell n g :=
  foldl_retell (h.alightAt n k) p.state.marked (p.mapState (·.rotateMarks))

/-- Offsets of the start are taken in the same way by both searches. -/
lemma Retells.seedOffsets (offsets : List Offset) (p : Progress) :
    offsets.foldl (s.offering start destination).seedOffset (p.retell n g) =
      (offsets.foldl s.seedOffset p).retell n g := by
  refine foldl_retell (fun q o => ?_) offsets p
  exact (congrArg _ (h.reachOnFoot n 0 _ none o.location 0 _ q)).trans (h.walkOn n 0 _ 0 _ _)

end Retells

lemma leaveTrips_retell (s : Search) (start destination : List Offset)
    (g : LocationIndex → Offset → Offset) (n position : Nat) (l : LocationIndex) (p : Progress)
    (aboard : Aboard) :
    (s.offering start destination).leaveTrips position l ⟨p.retell n g, aboard⟩ =
      ⟨(s.leaveTrips position l ⟨p, aboard⟩).progress.retell n g, aboard⟩ := by
  have hleave : ∀ p v, (s.offering start destination).leaveTrip position l aboard (p.retell n g) v =
      (s.leaveTrip position l aboard p v).retell n g := by
    intro p v
    unfold leaveTrip
    split
    · rfl
    · exact improveArrival_retell s start destination g n l v _ p
  exact congrArg (Scan.mk · aboard) (foldl_retell hleave (List.range s.levels) p)

/-- The same scan, its ways to the destination told with other egresses. -/
def retellScan (n : Nat) (g : LocationIndex → Offset → Offset) (scan : Scan) : Scan :=
  { scan with progress := scan.progress.retell n g }

lemma scanStop_retell (s : Search) (start destination : List Offset)
    (g : LocationIndex → Offset → Offset) (n k : Nat) (r : RouteIndex) (scan : Scan) (i : Nat) :
    (s.offering start destination).scanStop k r (s.nbOfStops r) (retellScan n g scan) i =
      retellScan n g (s.scanStop k r (s.nbOfStops r) scan i) := by
  cases hstop : s.stopAt? r i with
  | none =>
    have hget : (s.timetable.stops r)[s.dir.position (s.nbOfStops r) i]? = none := hstop
    have hget' : ((s.offering start destination).timetable.stops r)[
        (s.offering start destination).dir.position (s.nbOfStops r) i]? = none := hstop
    unfold scanStop
    dsimp only
    rw [hget, hget']
  | some stop =>
    obtain ⟨p, hp, heq⟩ := scanStop_eq hstop k scan
    obtain ⟨p', hp', heq'⟩ := scanStop_eq
      (show (s.offering start destination).stopAt? r i = some stop from hstop) k
      (retellScan n g scan)
    have hsame : p' = p.retell n g := by
      have hleave := leaveTrips_retell s start destination g n (s.positionAt r i) stop.location
        scan.progress scan.aboard
      rw [hp, hp', apply_ite (Progress.retell n g)]
      exact congrArg (ite _ · _) (congrArg Scan.progress hleave)
    have hnumber : (s.offering start destination).nbOfStops r = s.nbOfStops r := rfl
    rw [hnumber] at heq'
    rw [heq, heq', hsame]
    rfl

lemma scanRoute_retell (s : Search) (start destination : List Offset)
    (g : LocationIndex → Offset → Offset) (n k : Nat) (p : Progress) (r : RouteIndex) :
    (s.offering start destination).scanRoute k (p.retell n g) r =
      (s.scanRoute k p r).retell n g := by
  have hscan : (List.range (s.nbOfStops r)).foldl
      ((s.offering start destination).scanStop k r (s.nbOfStops r))
      (retellScan n g ⟨p, .empty s.levels⟩) =
        retellScan n g (s.scanned k r p (s.nbOfStops r)) :=
    List.foldl_hom (retellScan n g) (scanStop_retell s start destination g n k r)
  exact congrArg Scan.progress hscan

lemma prepare_retell (s : Search) (g : LocationIndex → Offset → Offset) (n : Nat)
    (st : SearchState) : s.prepare (st.forRealtime n) = (s.prepare st).retell n g := by
  have hexits : s.query.destination.foldl (fun st o => st.addExit o.location)
      (st.reset.forRealtime n) = (s.query.destination.foldl (fun st o => st.addExit o.location)
        st.reset).forRealtime n :=
    List.foldl_hom (SearchState.forRealtime n) fun _ _ => rfl
  unfold prepare Progress.retell Progress.start
  dsimp only
  rw [Array.map_replicate]
  exact congrArg Progress.start hexits

section Rounds

variable (h : s.Retells start destination g) (n : Nat)
include h

lemma Retells.roundOver (routes : List RouteIndex) (k : Nat) (p : Progress) :
    (s.offering start destination).roundOver routes k (p.retell n g) =
      (s.roundOver routes k p).retell n g := by
  have hscans : (s.offering start destination).afterScans routes k (p.retell n g) =
      (s.afterScans routes k p).retell n g :=
    foldl_retell (scanRoute_retell s start destination g n k) routes (p.mapState (·.rotateMarks))
  rw [roundOver_eq, roundOver_eq, hscans, h.transferAll]
  rfl

/-- Both searches go through the same rounds. -/
lemma Retells.rounds (remaining k : Nat) (p : Progress) :
    (s.offering start destination).rounds remaining k (p.retell n g) =
      ((s.rounds remaining k p).1.retell n g, (s.rounds remaining k p).2) := by
  induction remaining generalizing k p with
  | zero => rfl
  | succ remaining ih =>
    have hround : (s.offering start destination).round k (p.retell n g) =
        (s.round k p).retell n g := h.roundOver n (s.routesToScan p.state) k p
    unfold Search.rounds
    dsimp only
    rw [hround, ih, Progress.anyMarked_retell]
    split <;> rfl

/-- The whole search, once the offsets have led to the same starts and ends. -/
lemma Retells.explore {st : SearchState}
    (hprepare : (s.offering start destination).prepare st = s.prepare st)
    (hseeds : start.foldl s.seedOffset (s.prepare st) =
      s.query.start.foldl s.seedOffset (s.prepare st)) :
    (s.offering start destination).explore (st.forRealtime n) =
      ((s.explore st).1.retell n g, (s.explore st).2) := by
  have hseed : (s.offering start destination).seed ((s.prepare st).retell n g) =
      (s.seed (s.prepare st)).retell n g := by
    have hoffsets := h.seedOffsets n start (s.prepare st)
    rw [hseeds] at hoffsets
    exact congrArg (Progress.mapState · _) hoffsets
  unfold Search.explore
  rw [prepare_retell, hprepare, hseed]
  exact h.rounds n _ 1 _

end Rounds

end Search

end JourneyPlanner
