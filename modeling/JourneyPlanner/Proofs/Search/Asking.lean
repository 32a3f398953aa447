import Mathlib.Tactic.Common
import JourneyPlanner.Search.Planner

/-!
# What a search does not read

A search is told when to begin by its first time, and how many rounds it makes from outside: its
steps read neither the start time of their query nor its number of transfers. The reconstruction of
a journey reads the ends of the rounds before it, and nothing else of a state.
-/

namespace JourneyPlanner

namespace SearchState

/-- Two states tell the same arrivals in the rounds before one. -/
def AgreeBefore (k : Nat) (st st' : SearchState) : Prop :=
  ∀ j l v, j < k → st.finish j l v = st'.finish j l v

lemma AgreeBefore.mono {st st' : SearchState} {j k : Nat} (h : AgreeBefore k st st') (hjk : j ≤ k) :
    AgreeBefore j st st' :=
  fun i l v hi => h i l v (Nat.lt_of_lt_of_le hi hjk)

end SearchState

namespace Search

open SearchState (AgreeBefore)

/-- The same search for another start time and another number of transfers. -/
def asking (s : Search) (time : StartTime) (most : Nat) : Search :=
  { s with query := { s.query with startTime := time, maxTransfers := most } }

variable {s : Search} {st st' : SearchState} {k : Nat}

lemma at?_asking {t : Instant} (h : Search.at? s.timetable s.query t = some s) (time : StartTime)
    (most : Nat) :
    Search.at? s.timetable (s.asking time most).query t = some (s.asking time most) := by
  obtain ⟨⟨day, serviceTime⟩, hsplit, heq⟩ := Option.map_eq_some_iff.1 h
  have hbase : day = s.baseDay := congrArg Search.baseDay heq
  have hstart : s.timetable.calendar.relative day t = s.start := congrArg Search.start heq
  unfold Search.at?
  rw [hsplit, Option.map_some]
  dsimp only
  rw [hstart, hbase]
  rfl

lemma round_asking (s : Search) (time : StartTime) (most : Nat) :
    (s.asking time most).round = s.round := rfl

lemma rounds_asking (s : Search) (time : StartTime) (most remaining k : Nat) (p : Progress) :
    (s.asking time most).rounds remaining k p = s.rounds remaining k p := by
  induction remaining generalizing k p with
  | zero => rfl
  | succ remaining ih =>
    unfold rounds
    rw [round_asking]
    dsimp only
    rw [ih]

/-- The same search for another start time. -/
lemma explore_asking (s : Search) (time : StartTime) :
    (s.asking time s.query.maxTransfers).explore = s.explore := by
  funext st
  exact s.rounds_asking time _ _ 1 _

lemma passVias_asking (s : Search) (time : StartTime) (most : Nat) (l : LocationIndex)
    (target steps level : Nat) :
    (s.asking time most).passVias l target steps level = s.passVias l target steps level := by
  induction steps generalizing level with
  | zero => rfl
  | succ steps ih =>
    unfold passVias
    rw [ih]
    rfl

lemma ridesThrough_asking (s : Search) (time : StartTime) (most : Nat) :
    (s.asking time most).ridesThrough = s.ridesThrough := by
  funext r boardStep alightStep level target
  unfold ridesThrough
  simp only [passVias_asking]
  rfl

lemma rideFrom?_asking (s : Search) (time : StartTime) (most : Nat) :
    (s.asking time most).rideFrom? = s.rideFrom? := by
  funext st k a r trip alightStep boardStep
  unfold rideFrom?
  rw [ridesThrough_asking]
  rfl

lemma rideInto?_asking (s : Search) (time : StartTime) (most : Nat) :
    (s.asking time most).rideInto? = s.rideInto? := by
  funext st k a
  unfold rideInto? rideOn?
  rw [rideFrom?_asking]
  rfl

lemma legsTo?_asking (s : Search) (time : StartTime) (most : Nat) (st : SearchState) (k : Nat)
    (a : Arrival) : (s.asking time most).legsTo? st k a = s.legsTo? st k a := by
  induction k generalizing a with
  | zero => rfl
  | succ k ih =>
    unfold legsTo?
    rw [rideInto?_asking]
    simp only [ih]
    rfl

lemma journeyOf?_asking (s : Search) (time : StartTime) (most : Nat) (st : SearchState) (k : Nat)
    (h : Hit) : (s.asking time most).journeyOf? st k h = s.journeyOf? st k h := by
  unfold journeyOf?
  rw [legsTo?_asking]
  rfl

lemma journeys_asking (s : Search) (time : StartTime) (st : SearchState) :
    (s.asking time s.query.maxTransfers).journeys
      ((s.asking time s.query.maxTransfers).explore st).1 = s.journeys (s.explore st).1 := by
  rw [explore_asking]
  generalize (s.explore st).1 = p
  unfold journeys
  simp only [journeyOf?_asking]
  rfl

lemma approach?_congr (h : AgreeBefore (k + 1) st st') (l : LocationIndex) (level : Nat)
    (deadline : RelTime) : s.approach? st k l level deadline = s.approach? st' k l level deadline := by
  have heq : ∀ l v, st.finish k l v = st'.finish k l v := fun l v => h k l v (Nat.lt_succ_self k)
  unfold approach? approachByTransfer? approachOnFoot?
  simp only [heq]

lemma rideInto?_congr (h : AgreeBefore (k + 1) st st') (a : Arrival) :
    s.rideInto? st (k + 1) a = s.rideInto? st' (k + 1) a := by
  unfold rideInto? rideOn? rideFrom?
  simp only [Nat.add_sub_cancel, approach?_congr h]

lemma legsTo?_congr (h : AgreeBefore k st st') (a : Arrival) :
    s.legsTo? st k a = s.legsTo? st' k a := by
  induction k generalizing a with
  | zero => rfl
  | succ k ih =>
    unfold legsTo?
    rw [rideInto?_congr h]
    simp only [ih (h.mono (Nat.le_succ k))]

/-- A journey is told by the ends of the rounds before it. -/
lemma journeyOf?_congr (h : AgreeBefore k st st') (hit : Hit) :
    s.journeyOf? st k hit = s.journeyOf? st' k hit := by
  unfold journeyOf?
  rw [legsTo?_congr h]

end Search

end JourneyPlanner
