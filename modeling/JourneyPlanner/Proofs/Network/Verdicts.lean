import Mathlib.Tactic.Common
import JourneyPlanner.Proofs.Network.Calls

/-!
# What a build answers

Whether a timetable can be built is decided by the whole history of its construction, the calls and
what each of them answered. A route that could not be closed spoils the construction for good; a
call that was refused otherwise does not.
-/

namespace JourneyPlanner

/-- A call with what it answered. -/
abbrev Entry := Call × Except TimetableError Registered

namespace Entry

/-- The error of a route that could not be closed. -/
def spoil? : Entry → Option TimetableError
  | (.finishRoute, .error (.emptyRoute r)) => some (.emptyRoute r)
  | (.finishRoute, .error (.overtakingTransports r event)) => some (.overtakingTransports r event)
  | _ => none

/-- The route that is open after a call, when one was before it. -/
def openAfter (opened : Option RouteIndex) : Entry → Option RouteIndex
  | (.route _ _ _, .ok (.route r)) => some r
  | (.finishRoute, .ok _) => none
  | _ => opened

/-- The location that was registered with an index. -/
def registeredAs? (l : LocationIndex) : Entry → Option Location
  | (.location location, .ok (.location l')) => if l' = l then some location else none
  | _ => none

end Entry

/-- The calls of a construction with their answers, in order. -/
abbrev History := List Entry

namespace History

/-- The first error of a route that could not be closed. -/
def firstSpoil? (h : History) : Option TimetableError := h.findSome? Entry.spoil?

/-- The route that is open in the end. -/
def openRoute? (h : History) : Option RouteIndex := h.foldl Entry.openAfter none

/-- The location that was first registered with an index. -/
def location? (h : History) (l : LocationIndex) : Option Location :=
  h.findSome? (Entry.registeredAs? l)

/-- A registered location has a parent that is not registered. -/
structure Orphans (h : History) (l parent : LocationIndex) : Prop where
  named : (h.location? l).bind (·.parent) = some parent
  missing : h.location? parent = none

/-- Nothing stands in the way of a build. -/
structure IsSound (h : History) : Prop where
  unspoiled : h.firstSpoil? = none
  closed : h.openRoute? = none
  parents : ∀ l parent, ¬h.Orphans l parent

/-- What stands in the way of a build: a route that could not be closed before a route that is open,
and that before the first location whose parent is missing. -/
inductive Fails (h : History) : TimetableError → Prop
  | spoiled {e : TimetableError} : h.firstSpoil? = some e → Fails h e
  | unfinished {r : RouteIndex} : h.firstSpoil? = none → h.openRoute? = some r →
      Fails h (.unfinishedRoute r)
  | orphan {l parent : LocationIndex} : h.firstSpoil? = none → h.openRoute? = none →
      h.Orphans l parent → (∀ l' parent', h.Orphans l' parent' → l.val ≤ l'.val) →
      Fails h (.danglingParent l parent)

variable {h : History} {e e' : TimetableError}

/-- Only one thing stands in the way of a build. -/
lemma Fails.unique (hfails : h.Fails e) (hfails' : h.Fails e') : e = e' := by
  cases hfails with
  | spoiled hspoil =>
    cases hfails' with
    | spoiled hspoil' => exact Option.some.inj (hspoil.symm.trans hspoil')
    | unfinished hnone _ => cases hspoil.symm.trans hnone
    | orphan hnone _ _ _ => cases hspoil.symm.trans hnone
  | unfinished hnone hopen =>
    cases hfails' with
    | spoiled hspoil => cases hnone.symm.trans hspoil
    | unfinished _ hopen' => rw [Option.some.inj (hopen.symm.trans hopen')]
    | orphan _ hclosed _ _ => cases hopen.symm.trans hclosed
  | orphan hnone hclosed horphan hleast =>
    cases hfails' with
    | spoiled hspoil => cases hnone.symm.trans hspoil
    | unfinished _ hopen => cases hclosed.symm.trans hopen
    | orphan _ _ horphan' hleast' =>
      cases Index.ext (Nat.le_antisymm (hleast _ _ horphan') (hleast' _ _ horphan))
      rw [Option.some.inj (horphan.named.symm.trans horphan'.named)]

lemma IsSound.not_fails (hsound : h.IsSound) : ¬h.Fails e := by
  intro hfails
  cases hfails with
  | spoiled hspoil => cases hsound.unspoiled.symm.trans hspoil
  | unfinished _ hopen => cases hsound.closed.symm.trans hopen
  | orphan _ _ horphan _ => exact hsound.parents _ _ horphan

end History

namespace Locations

variable {ls : Locations} {l parent : LocationIndex}

lemma get?_eq_none_iff : ls.get? l = none ↔ ¬l.val < ls.size := by
  unfold get? size
  rw [Array.getElem?_eq_none_iff, Nat.not_lt]

lemma lt_size_of_find? {id : LocationId} (h : ls.find? id = some l) : l.val < ls.size := by
  unfold find? at h
  obtain ⟨i, hi, rfl⟩ := Option.map_eq_some_iff.1 h
  have hlt := (List.findIdx?_eq_some_iff_getElem.1 hi).1
  rwa [Array.length_toList] at hlt

/-- An index has the location that it had, or else the one that is registered with it. -/
lemma get?_register (ls : Locations) (location : Location) (l : LocationIndex) :
    (ls.register location).2.get? l =
      (ls.get? l).or (if (ls.register location).1 = l then some location else none) := by
  unfold register
  cases hfind : ls.find? location.id with
  | some known =>
    dsimp only
    split
    · rename_i hl
      subst hl
      cases hget : ls.get? known with
      | none => exact absurd (lt_size_of_find? hfind) (get?_eq_none_iff.1 hget)
      | some old => rfl
    · exact (Option.or_none).symm
  | none =>
    dsimp only
    unfold get?
    rw [Array.getElem?_push]
    by_cases hl : l.val = ls.entries.size
    · have hnone : ls.entries[l.val]? = none := Array.getElem?_eq_none (by omega)
      have hindex : (⟨ls.size⟩ : LocationIndex) = l := Index.ext hl.symm
      rw [if_pos hl, hnone, if_pos hindex]
      rfl
    · have hindex : (⟨ls.size⟩ : LocationIndex) ≠ l := fun h => hl (congrArg Index.val h).symm
      rw [if_neg hl, if_neg hindex, Option.or_none]

/-- A location has a parent that does not exist. -/
def Dangles (ls : Locations) (l parent : LocationIndex) : Prop :=
  ls.parent? l = some parent ∧ ¬parent.val < ls.size

lemma Dangles.lt_size (h : ls.Dangles l parent) : l.val < ls.size := by
  by_contra hnot
  have hparent := h.1
  unfold parent? at hparent
  rw [get?_eq_none_iff.2 hnot] at hparent
  cases hparent

def danglingAt? (ls : Locations) (l : LocationIndex) : Option (LocationIndex × LocationIndex) :=
  (ls.parent? l).bind fun p => if p.val < ls.size then none else some (l, p)

lemma danglingAt?_eq_some_iff {l' : LocationIndex} :
    ls.danglingAt? l' = some (l, parent) ↔ l' = l ∧ ls.Dangles l parent := by
  unfold danglingAt? Dangles
  rw [Option.bind_eq_some_iff]
  constructor
  · rintro ⟨p, hp, hfound⟩
    split at hfound
    · cases hfound
    · rename_i hmissing
      cases hfound
      exact ⟨rfl, hp, hmissing⟩
  · rintro ⟨rfl, hp, hmissing⟩
    exact ⟨parent, hp, if_neg hmissing⟩

lemma danglingParent?_eq_none_iff :
    ls.danglingParent? = none ↔ ∀ l parent, ¬ls.Dangles l parent := by
  show ls.toList.findSome? ls.danglingAt? = none ↔ _
  rw [List.findSome?_eq_none_iff]
  constructor
  · intro h l parent hdangles
    have hfound := danglingAt?_eq_some_iff.2 ⟨rfl, hdangles⟩
    rw [h l (Index.mem_firsts.2 hdangles.lt_size)] at hfound
    cases hfound
  · intro h l _
    cases hfound : ls.danglingAt? l with
    | none => rfl
    | some x => exact absurd (danglingAt?_eq_some_iff.1 hfound).2 (h x.1 x.2)

lemma danglingParent?_eq_some_iff : ls.danglingParent? = some (l, parent) ↔
    ls.Dangles l parent ∧ ∀ l' parent', ls.Dangles l' parent' → l.val ≤ l'.val := by
  have hfirst : ∀ {l parent}, ls.danglingParent? = some (l, parent) →
      ls.Dangles l parent ∧ ∀ l' parent', ls.Dangles l' parent' → l.val ≤ l'.val := by
    intro l parent h
    obtain ⟨before, first, after, hlist, hfound, hnone⟩ := List.findSome?_eq_some_iff.1 h
    obtain ⟨rfl, hdangles⟩ := danglingAt?_eq_some_iff.1 hfound
    refine ⟨hdangles, fun l' parent' hdangles' => ?_⟩
    -- the locations are looked at in order, and none before the one found dangles
    have hsorted : (before ++ first :: after).Pairwise fun i j => i.val < j.val := by
      rw [← hlist]
      exact (List.pairwise_map.2 List.pairwise_lt_range)
    have hmem : l' ∈ before ++ first :: after := by
      rw [← hlist]
      exact Index.mem_firsts.2 hdangles'.lt_size
    rcases List.mem_append.1 hmem with hbefore | hrest
    · have hfound' := danglingAt?_eq_some_iff.2 ⟨rfl, hdangles'⟩
      cases hfound'.symm.trans (hnone l' hbefore)
    · rcases List.mem_cons.1 hrest with rfl | hafter
      · exact Nat.le_refl _
      · exact Nat.le_of_lt
          ((List.pairwise_cons.1 (List.pairwise_append.1 hsorted).2.1).1 l' hafter)
  refine ⟨hfirst, fun ⟨hdangles, hleast⟩ => ?_⟩
  cases h : ls.danglingParent? with
  | none => exact absurd hdangles (danglingParent?_eq_none_iff.1 h l parent)
  | some x =>
    obtain ⟨hdangles', hleast'⟩ := hfirst h
    have hl : x.1 = l := Index.ext
      (Nat.le_antisymm (hleast' l parent hdangles) (hleast x.1 x.2 hdangles'))
    have hparent := hdangles'.1
    rw [hl, hdangles.1] at hparent
    rw [← hl, Option.some.inj hparent]

end Locations

namespace Builder

variable {b b' : Builder} {call : Call} {answer : Except TimetableError Registered}

/-- The history of calls that are carried out. -/
def history (b : Builder) (calls : List Call) : History := calls.zip (b.run calls).1

lemma history_cons (b : Builder) (call : Call) (calls : List Call) :
    b.history (call :: calls) =
      (call, (b.apply call).1) :: (b.apply call).2.history calls := rfl

lemma spoil?_of_close {o : OpenRoute} {e : TimetableError} (h : o.close = .error e) :
    Entry.spoil? (.finishRoute, .error e) = some e := by
  unfold OpenRoute.close at h
  split at h
  · cases h
    rfl
  · split at h
    · cases h
      rfl
    · cases h

lemma Outcome.routeError_eq (h : b.Outcome call answer b') :
    b'.routeError = b.routeError.or (Entry.spoil? (call, answer)) := by
  cases h with
  | spoiled hopen hclose =>
    rw [spoil?_of_close hclose]
  | refused hcall =>
    cases call with
    | finishRoute => exact absurd rfl hcall
    | _ => exact (Option.or_none).symm
  | _ => exact (Option.or_none).symm

lemma Outcome.openRoute_eq (h : b.Outcome call answer b') : b'.openRoute.map (·.index) =
    Entry.openAfter (b.openRoute.map (·.index)) (call, answer) := by
  cases h with
  | extended hcheck _ =>
    rw [(admits_of_checkTransport hcheck).opened]
    rfl
  | refused hcall =>
    cases call with
    | finishRoute => exact absurd rfl hcall
    | _ => rfl
  | _ => rfl

lemma Outcome.get?_locations (h : b.Outcome call answer b') (l : LocationIndex) :
    b'.locations.get? l = (b.locations.get? l).or (Entry.registeredAs? l (call, answer)) := by
  cases h with
  | location location => exact b.locations.get?_register location l
  | refused hcall =>
    cases call <;> exact (Option.or_none).symm
  | _ => exact (Option.or_none).symm

/-- A builder that forgets nothing knows what the first entry told it. -/
lemma known_run {α : Type} {known : Builder → Option α} {tells : Entry → Option α}
    (hstep : ∀ {b b' : Builder} {call answer}, b.Outcome call answer b' →
      known b' = (known b).or (tells (call, answer))) (b : Builder) (calls : List Call) :
    known (b.run calls).2 = (known b).or ((b.history calls).findSome? tells) := by
  induction calls generalizing b with
  | nil => exact (Option.or_none).symm
  | cons call calls ih =>
    rw [run_cons, ih, hstep (b.outcome_apply call), history_cons, Option.or_assoc,
      List.findSome?_cons]
    cases tells (call, (b.apply call).1) <;> rfl

lemma routeError_run (b : Builder) (calls : List Call) :
    (b.run calls).2.routeError = b.routeError.or (b.history calls).firstSpoil? :=
  known_run Outcome.routeError_eq b calls

lemma openRoute_run (b : Builder) (calls : List Call) : (b.run calls).2.openRoute.map (·.index) =
    (b.history calls).foldl Entry.openAfter (b.openRoute.map (·.index)) := by
  induction calls generalizing b with
  | nil => rfl
  | cons call calls ih =>
    rw [run_cons, ih, (b.outcome_apply call).openRoute_eq, history_cons, List.foldl_cons]

lemma get?_locations_run (b : Builder) (calls : List Call) (l : LocationIndex) :
    (b.run calls).2.locations.get? l =
      (b.locations.get? l).or ((b.history calls).location? l) :=
  known_run (fun h => h.get?_locations l) b calls

lemma dangles_run (c : Calendar) (calls : List Call) (l parent : LocationIndex) :
    ((Builder.new c).run calls).2.locations.Dangles l parent ↔
      ((Builder.new c).history calls).Orphans l parent := by
  have hget : ∀ l, ((Builder.new c).run calls).2.locations.get? l =
      ((Builder.new c).history calls).location? l := by
    intro l
    have hempty : (Builder.new c).locations.get? l = none := Array.getElem?_empty
    rw [get?_locations_run, hempty, Option.none_or]
  unfold Locations.Dangles Locations.parent?
  rw [← Locations.get?_eq_none_iff, hget, hget]
  exact ⟨fun h => ⟨h.1, h.2⟩, fun h => ⟨h.named, h.missing⟩⟩

lemma build_run_cases (c : Calendar) (calls : List Call) :
    (∃ tt, ((Builder.new c).run calls).2.build = .ok tt ∧
        ((Builder.new c).history calls).IsSound) ∨
      ∃ e, ((Builder.new c).run calls).2.build = .error e ∧
        ((Builder.new c).history calls).Fails e := by
  have hspoil : ((Builder.new c).run calls).2.routeError =
      ((Builder.new c).history calls).firstSpoil? := routeError_run _ _
  have hopen : ((Builder.new c).run calls).2.openRoute.map (·.index) =
      ((Builder.new c).history calls).openRoute? := openRoute_run _ _
  have hdangles := dangles_run c calls
  -- from here on the builder and its history are only known by these three facts
  generalize ((Builder.new c).run calls).2 = b at hspoil hopen hdangles ⊢
  generalize (Builder.new c).history calls = h at hspoil hopen hdangles ⊢
  unfold build
  cases herror : b.routeError with
  | some e => exact Or.inr ⟨e, rfl, .spoiled (hspoil.symm.trans herror)⟩
  | none =>
    have hunspoiled := hspoil.symm.trans herror
    cases hroute : b.openRoute with
    | some o =>
      rw [hroute] at hopen
      exact Or.inr ⟨_, rfl, .unfinished hunspoiled hopen.symm⟩
    | none =>
      rw [hroute] at hopen
      cases hparent : b.locations.danglingParent? with
      | some x =>
        obtain ⟨hdangle, hleast⟩ := Locations.danglingParent?_eq_some_iff.1 hparent
        exact Or.inr ⟨_, rfl, .orphan hunspoiled hopen.symm ((hdangles _ _).1 hdangle)
          fun l' parent' horphan => hleast l' parent' ((hdangles l' parent').2 horphan)⟩
      | none =>
        have hnone := Locations.danglingParent?_eq_none_iff.1 hparent
        exact Or.inl ⟨_, rfl, hunspoiled, hopen.symm,
          fun l parent horphan => hnone l parent ((hdangles l parent).2 horphan)⟩

end Builder

/-- A build answers a timetable when no route could not be closed, no route is open and every parent
is registered. Otherwise it answers the first of these that stands in its way. -/
theorem build_run_iff (c : Calendar) (calls : List Call) :
    ((∃ tt, ((Builder.new c).run calls).2.build = .ok tt) ↔
        ((Builder.new c).history calls).IsSound) ∧
      ∀ e, ((Builder.new c).run calls).2.build = .error e ↔
        ((Builder.new c).history calls).Fails e := by
  rcases Builder.build_run_cases c calls with ⟨tt, hbuild, hsound⟩ | ⟨e, hbuild, hfails⟩
  · refine ⟨iff_of_true ⟨tt, hbuild⟩ hsound, fun e => ?_⟩
    rw [hbuild]
    exact iff_of_false (fun h => by cases h) hsound.not_fails
  · refine ⟨iff_of_false ?_ fun hsound => hsound.not_fails hfails, fun e' => ?_⟩
    · rintro ⟨tt, htt⟩
      cases hbuild.symm.trans htt
    · rw [hbuild]
      constructor
      · rintro ⟨⟩
        exact hfails
      · intro hfails'
        rw [hfails.unique hfails']

/-- A route that could not be closed for want of a transport spoils the construction, although it is
given one and closed afterwards. -/
example :
    let calendar : Calendar := ⟨⟨18262⟩, ⟨18275⟩, by decide, by decide⟩
    let place := fun id => Call.location ⟨⟨⟨0⟩, id⟩, "", .station, none, none, .zero⟩
    let (answers, b) := (Builder.new calendar).run
      [place "a", place "b", .serviceDays (.ofDates [⟨18262⟩] calendar),
        .route [⟨⟨0⟩, true, true⟩, ⟨⟨1⟩, true, true⟩] [.coach] [false], .finishRoute,
        .transport ⟨0⟩ ⟨"coach", ⟨0⟩, [⟨.ofNat 480, .ofNat 480⟩, ⟨.ofNat 540, .ofNat 540⟩], []⟩,
        .finishRoute]
    answers.getLast? = some (.ok .nothing) ∧
      (b.build.map fun _ => ()) = .error (.emptyRoute ⟨0⟩) := by
  decide +kernel

end JourneyPlanner
