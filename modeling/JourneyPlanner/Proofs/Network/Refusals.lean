import Mathlib.Tactic.Common
import JourneyPlanner.Proofs.Network.Calls

/-!
# Calls that are refused

A call that answers an error leaves the builder as it is, so that no later call can tell that it was
made. There is one exception: a transport with an event too late is refused after its service days
were stored, and a later call can tell whether they are there.
-/

namespace JourneyPlanner

namespace ServiceDaysStore

lemma intern_of_mem {s : ServiceDaysStore} {days : ServiceDays} (h : days ∈ s.sets) :
    (s.intern days).2 = s := by
  obtain ⟨i, hi⟩ := Array.mem_iff_getElem?.1 h
  rw [intern_of_get? (i := ⟨i⟩) hi]

lemma get?_intern_of_not_mem {s : ServiceDaysStore} {days : ServiceDays} (h : days ∉ s.sets) :
    (s.intern days).2.get? ⟨s.size⟩ = some days := by
  have hnone : s.indexOf? days = none :=
    Option.eq_none_iff_forall_ne_some.2 fun i hi =>
      h (Array.mem_of_getElem? (indexOf?_eq_some_iff.1 hi))
  rw [intern_of_indexOf?_eq_none hnone, get?_push, if_pos rfl]

end ServiceDaysStore

namespace Builder

variable {b : Builder} {call : Call} {e : TimetableError} {r : RouteIndex} {t : NewTransport}
  {o : OpenRoute} {days : ServiceDays}

/-- No later calls can tell two builders apart: they answer the same, and so does the build. -/
def Indistinguishable (b b' : Builder) : Prop := ∀ calls : List Call,
  (b.run calls).1 = (b'.run calls).1 ∧ (b.run calls).2.build = (b'.run calls).2.build

/-- A transport that is refused for an event too late leaves its service days behind, unless they
were there before. -/
def LeavesDays (b : Builder) (r : RouteIndex) (t : NewTransport) : Prop :=
  ∃ o days, b.checkTransport r t = .ok (o, days) ∧
    (NewTransport.beyondSpan? t.normalized).isSome = true ∧ days ∉ b.serviceDays.sets

/-- What is found of a transport that fits the open route, when it runs on other service days. -/
lemma checkTransport_withDays (h : b.checkTransport r t = .ok (o, days)) (b' : Builder)
    (hopen : b'.openRoute = b.openRoute) (i : ServiceDaysIndex) :
    b'.checkTransport r { t with serviceDays := i } =
      match b'.serviceDays.get? i with
      | none => .error (.unknownServiceDays t.name i)
      | some given =>
        if (given.shift (NewTransport.dayOffset t.schedule)).isEmpty then
          .error (.noTrafficDay t.name)
        else .ok (o, given.shift (NewTransport.dayOffset t.schedule)) := by
  have hadmits := admits_of_checkTransport h
  have hfilter : b.openRoute.filter (·.index == r) = some o :=
    Option.filter_eq_some_iff.2 ⟨hadmits.opened, beq_iff_eq.2 hadmits.index_eq⟩
  have hsame : NewTransport.schedule { t with serviceDays := i } = t.schedule := rfl
  unfold checkTransport at h ⊢
  rw [hopen]
  by_cases hlines : 1 < t.lines.length ∧ t.lines.length ≠ o.stops.size - 1
  · simp only [hfilter, hadmits.length_eq, hlines, if_true, if_false, ne_eq, not_true_eq_false,
      not_false_eq_true, and_self] at h
    cases h
  · simp only [hfilter, hadmits.length_eq, hlines, if_false, ne_eq, not_true_eq_false]
    cases b'.serviceDays.get? i with
    | none => rfl
    | some given =>
      simp only [hsame, hadmits.rises]
      rfl

/-- A call that is refused leaves the builder as it is, or the service days of a transport in the
store. -/
lemma Outcome.refusal_cases {b' : Builder} (h : b.Outcome call (.error e) b')
    (hcall : call ≠ .finishRoute) : b' = b ∨ ∃ r t o days, call = .transport r t ∧
      b.checkTransport r t = .ok (o, days) ∧
        (NewTransport.beyondSpan? t.normalized).isSome = true ∧ b' = b.intern days := by
  cases h with
  | late hcheck hspan =>
    exact Or.inr ⟨_, _, _, _, rfl, hcheck, Option.isSome_of_eq_some hspan, rfl⟩
  | notOpen _ => exact Or.inl rfl
  | spoiled _ _ => exact absurd rfl hcall
  | refused _ => exact Or.inl rfl

/-- Service days that a refused transport has left behind can be told by the next transport. -/
lemma LeavesDays.not_indistinguishable (h : b.LeavesDays r t) :
    ¬b.Indistinguishable (b.apply (.transport r t)).2 := by
  obtain ⟨o, days, hcheck, hlate, hnew⟩ := h
  obtain ⟨position, hspan⟩ := Option.isSome_iff_exists.1 hlate
  intro hsame
  -- the same transport, on the service days that come after all that were stored before
  have hanswers := (hsame [.transport r { t with serviceDays := ⟨b.serviceDays.size⟩ }]).1
  have hafter : (b.apply (.transport r t)).2 = b.intern days :=
    congrArg Prod.snd (addTransport_late hcheck hspan)
  rw [hafter] at hanswers
  have hanswer : (b.addTransport r { t with serviceDays := ⟨b.serviceDays.size⟩ }).1.map
      Registered.transport = ((b.intern days).addTransport r
        { t with serviceDays := ⟨b.serviceDays.size⟩ }).1.map .transport :=
    (List.cons.inj hanswers).1
  have hunknown := checkTransport_withDays hcheck b rfl ⟨b.serviceDays.size⟩
  have hknown := checkTransport_withDays hcheck (b.intern days) rfl ⟨b.serviceDays.size⟩
  have hnone : b.serviceDays.get? ⟨b.serviceDays.size⟩ = none :=
    Array.getElem?_eq_none (Nat.le_refl _)
  have hsome : (b.intern days).serviceDays.get? ⟨b.serviceDays.size⟩ = some days :=
    ServiceDaysStore.get?_intern_of_not_mem hnew
  rw [hnone] at hunknown
  rw [hsome] at hknown
  rw [addTransport_of_error hunknown] at hanswer
  dsimp only at hknown
  split at hknown
  · rw [addTransport_of_error hknown] at hanswer
    cases hanswer
  · rw [addTransport_late hknown hspan] at hanswer
    cases hanswer

/-- Later calls cannot tell whether a call was made that was refused, unless it is a transport that
has left its service days behind; then they can. -/
theorem indistinguishable_iff (hcall : call ≠ .finishRoute)
    (herror : (b.apply call).1 = .error e) :
    b.Indistinguishable (b.apply call).2 ↔ ∀ r t, call = .transport r t → ¬b.LeavesDays r t := by
  constructor
  · rintro h r t rfl hleaves
    exact hleaves.not_indistinguishable h
  · intro h
    suffices hsame : (b.apply call).2 = b by
      rw [hsame]
      exact fun _ => ⟨rfl, rfl⟩
    have houtcome := b.outcome_apply call
    rw [herror] at houtcome
    rcases houtcome.refusal_cases hcall with hsame | ⟨r, t, o, days, rfl, hcheck, hspan, hafter⟩
    · exact hsame
    · have hstored : days ∈ b.serviceDays.sets := by
        by_contra hnew
        exact h r t rfl ⟨o, days, hcheck, hspan, hnew⟩
      rw [hafter]
      unfold intern
      rw [ServiceDaysStore.intern_of_mem hstored]

end Builder

namespace LateCoach

def calendar : Calendar := ⟨⟨18262⟩, ⟨18268⟩, by decide, by decide⟩

def place (id : String) : Location := ⟨⟨⟨0⟩, id⟩, "", .station, none, none, .zero⟩

/-- A route from one place to another is open; one set of days is stored, the first day. -/
def builder : Builder :=
  ((Builder.new calendar).run
    [.location (place "a"), .location (place "b"), .serviceDays (.ofDates [⟨18262⟩] calendar),
      .route [⟨⟨0⟩, true, true⟩, ⟨⟨1⟩, true, true⟩] [.coach] [false]]).2

/-- A coach that leaves at one in the night after its day, and is there five days later. -/
def coach : NewTransport :=
  ⟨"coach", ⟨0⟩, [⟨.ofNat 1500, .ofNat 1500⟩, ⟨.ofNat 8640, .ofNat 8640⟩], []⟩

/-- The same route, with the day on which the coach leaves stored as well. -/
def prepared : Builder := (builder.run [.serviceDays (.ofDates [⟨18263⟩] calendar)]).2

/-- When the day on which the coach leaves is stored already, its refusal leaves no trace. -/
theorem indistinguishable_coach :
    (prepared.apply (.transport ⟨0⟩ coach)).1 = .error (.eventBeyondDaySpan "coach" 1) ∧
      prepared.Indistinguishable (prepared.apply (.transport ⟨0⟩ coach)).2 := by
  have herror : (prepared.apply (.transport ⟨0⟩ coach)).1 =
      .error (.eventBeyondDaySpan "coach" 1) := by decide +kernel
  refine ⟨herror, (Builder.indistinguishable_iff (by decide) herror).2 ?_⟩
  rintro r t hcall ⟨o, days, hcheck, _, hnew⟩
  cases hcall
  have hdays : (prepared.checkTransport ⟨0⟩ coach).map Prod.snd =
      .ok (.ofDates [⟨18263⟩] calendar) := by decide +kernel
  rw [hcheck] at hdays
  cases hdays
  exact hnew (by decide +kernel)

/-- The refused coach is noticed when another set of days is stored after it. -/
theorem not_indistinguishable_coach :
    (builder.apply (.transport ⟨0⟩ coach)).1 = .error (.eventBeyondDaySpan "coach" 1) ∧
      ¬builder.Indistinguishable (builder.apply (.transport ⟨0⟩ coach)).2 := by
  refine ⟨by decide +kernel, fun hsame => ?_⟩
  have hanswers := (hsame [.serviceDays (.ofDates [⟨18262⟩, ⟨18263⟩] calendar)]).1
  have hbefore : (builder.run [.serviceDays (.ofDates [⟨18262⟩, ⟨18263⟩] calendar)]).1 =
      [.ok (.serviceDays ⟨1⟩)] := by decide +kernel
  have hafter : ((builder.apply (.transport ⟨0⟩ coach)).2.run
      [.serviceDays (.ofDates [⟨18262⟩, ⟨18263⟩] calendar)]).1 = [.ok (.serviceDays ⟨2⟩)] := by
    decide +kernel
  rw [hbefore, hafter] at hanswers
  cases hanswers

end LateCoach

end JourneyPlanner
