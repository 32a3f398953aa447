import Mathlib.Data.List.Basic
import JourneyPlanner.Time.ServiceDays

/-!
# Shared service days

A set of service days never leaves its calendar, however it is made: moving it later drops the days
that pass the end. A store gives one index to equal sets, in the order in which they first come, and
keeps it for good.
-/

namespace JourneyPlanner

lemma eraseDups_concat {α : Type} [DecidableEq α] (l : List α) (a : α) :
    (l ++ [a]).eraseDups = if a ∈ l then l.eraseDups else l.eraseDups ++ [a] := by
  rw [List.eraseDups_append]
  by_cases h : a ∈ l
  · rw [if_pos h]
    simp [List.removeAll, h]
  · rw [if_neg h]
    simp [List.removeAll, h, List.eraseDups_cons]

namespace ServiceDays

variable {c c' : Calendar} {s t : ServiceDays} {a b : Nat}

/-- The sets of days that are made on a calendar. -/
inductive IsOn (c : Calendar) : ServiceDays → Prop
  | empty : IsOn c (.empty c)
  | ofDates (dates : List Date) : IsOn c (.ofDates dates c)
  | insert {s : ServiceDays} (d : Day) : IsOn c s → IsOn c (s.insert d)
  | shift {s : ServiceDays} (n : Nat) : IsOn c s → IsOn c (s.shift n)

/-- A set stays within the days of a calendar, and moving it later moves exactly the days that stay
there too. -/
structure StaysWithin (c : Calendar) (s : ServiceDays) : Prop where
  capacity_eq : s.capacity = c.nbOfDays
  number_lt : ∀ d, s.contains d = true → d.number < c.nbOfDays
  contains_shift : ∀ n d, (s.shift n).contains d = true ↔
    d.number < s.capacity ∧ n ≤ d.number ∧ ∃ e : Day, e.number = d.number - n ∧ s.contains e = true
  shift_shift : ∀ a b, (s.shift a).shift b = s.shift (a + b)

lemma capacity_ofDates (dates : List Date) (c : Calendar) :
    (ofDates dates c).capacity = c.nbOfDays := by
  unfold ofDates
  refine List.foldlRecOn (motive := fun s : ServiceDays => s.capacity = c.nbOfDays) _ _
    (capacity_empty c) ?_
  intro s hs d _
  rw [capacity_insert, hs]

lemma IsOn.capacity_eq (h : IsOn c s) : s.capacity = c.nbOfDays := by
  induction h with
  | empty => exact capacity_empty c
  | ofDates dates => exact capacity_ofDates dates c
  | insert d _ ih => rw [capacity_insert, ih]
  | shift n _ ih => rw [capacity_shift, ih]

lemma contains_shift_iff_exists {n : Nat} {d : Day} : (s.shift n).contains d = true ↔
    d.number < s.capacity ∧ n ≤ d.number ∧
      ∃ e : Day, e.number = d.number - n ∧ s.contains e = true := by
  have hd := d.number_lt
  rw [ServiceDays.contains_shift]
  refine and_congr_right fun _ => and_congr_right fun _ => ?_
  constructor
  · intro h
    exact ⟨⟨d.number - n, by omega⟩, rfl, h⟩
  · rintro ⟨e, he, h⟩
    rwa [← he]

/-- A day that is dropped on the way would have been dropped at the end. -/
lemma shift_shift (s : ServiceDays) (a b : Nat) : (s.shift a).shift b = s.shift (a + b) := by
  refine congrArg mk (BitSet.ext ?_ fun i => ?_)
  · rw [BitSet.capacity_shift, BitSet.capacity_shift, shift, BitSet.capacity_shift]
  · rw [Bool.eq_iff_iff, BitSet.contains_shift, BitSet.contains_shift, shift,
      BitSet.contains_shift, BitSet.capacity_shift]
    have hsub : i - b - a = i - (a + b) := by omega
    rw [hsub]
    constructor
    · rintro ⟨hi, hb, _, ha, h⟩
      exact ⟨hi, by omega, h⟩
    · rintro ⟨hi, hab, h⟩
      exact ⟨hi, by omega, by omega, by omega, h⟩

lemma IsOn.staysWithin (h : IsOn c s) : s.StaysWithin c where
  capacity_eq := h.capacity_eq
  number_lt := by
    intro d hd
    rw [← h.capacity_eq]
    exact BitSet.lt_capacity_of_contains hd
  contains_shift _ _ := contains_shift_iff_exists
  shift_shift := shift_shift s

lemma IsOn.lt_of_contains {i : Nat} (h : IsOn c s) (hi : s.days.contains i = true) : i < 65536 := by
  have hlt := BitSet.lt_capacity_of_contains hi
  have hdays := c.nbOfDays_lt
  rw [← h.capacity_eq] at hdays
  exact Nat.lt_trans hlt hdays

/-- Sets on calendars are told by their capacities and days. -/
lemma IsOn.eq_iff (hs : IsOn c s) (ht : IsOn c' t) :
    s = t ↔ s.capacity = t.capacity ∧ ∀ d, s.contains d = t.contains d := by
  constructor
  · rintro rfl
    exact ⟨rfl, fun _ => rfl⟩
  · rintro ⟨hcapacity, hdays⟩
    refine congrArg mk (BitSet.ext hcapacity fun i => ?_)
    by_cases hi : i < 65536
    · exact hdays ⟨i, hi⟩
    · rw [Bool.eq_false_iff.2 fun hcontains => hi (hs.lt_of_contains hcontains),
        Bool.eq_false_iff.2 fun hcontains => hi (ht.lt_of_contains hcontains)]

end ServiceDays

namespace ServiceDaysStore

variable {s : ServiceDaysStore} {days days' : ServiceDays} {i j : ServiceDaysIndex}
  {before calls : List ServiceDays}

/-- Stores sets one after the other: the index of each, and the store with all of them. -/
def internAll (s : ServiceDaysStore) : List ServiceDays → List ServiceDaysIndex × ServiceDaysStore
  | [] => ([], s)
  | days :: rest =>
    let (i, s) := s.intern days
    let (is, s) := s.internAll rest
    (i :: is, s)

/-- The store holds the different sets among those that came, in the order in which they first
came. -/
def HoldsFirsts (s : ServiceDaysStore) (calls : List ServiceDays) : Prop :=
  s.sets.toList = calls.eraseDups

/-- A set is stored once. -/
lemma get?_inj (hi : s.get? i = some days) (hj : s.get? j = some days) : i = j := by
  rw [← indexOf?_eq_some_iff] at hi hj
  rw [hi] at hj
  exact Option.some.inj hj

lemma exists_get?_iff_mem : (∃ i, s.get? i = some days) ↔ days ∈ s.sets.toList := by
  rw [List.mem_iff_getElem?]
  constructor
  · rintro ⟨i, hi⟩
    exact ⟨i.val, by rw [Array.getElem?_toList]; exact hi⟩
  · rintro ⟨n, hn⟩
    exact ⟨⟨n⟩, by rw [Array.getElem?_toList] at hn; exact hn⟩

/-- One more set comes last, unless it came before. -/
lemma HoldsFirsts.intern (h : s.HoldsFirsts before) (days : ServiceDays) :
    (s.intern days).2.HoldsFirsts (before ++ [days]) ∧
      (s.intern days).1 = ⟨(before ++ [days]).eraseDups.idxOf days⟩ := by
  have hmem : days ∈ before ↔ ∃ i, s.get? i = some days := by
    rw [exists_get?_iff_mem, h, List.mem_eraseDups]
  unfold HoldsFirsts at h ⊢
  rw [eraseDups_concat, ← h]
  rcases s.intern_cases days with ⟨i, hi, heq⟩ | ⟨hnone, heq⟩
  · rw [if_pos (hmem.2 ⟨i, hi⟩), heq]
    have hidx := List.getElem?_idxOf (exists_get?_iff_mem.1 ⟨i, hi⟩)
    rw [Array.getElem?_toList] at hidx
    exact ⟨rfl, get?_inj hi (j := ⟨s.sets.toList.idxOf days⟩) hidx⟩
  · have hnew : days ∉ before := by
      rintro hold
      obtain ⟨i, hi⟩ := hmem.1 hold
      exact get?_ne_of_indexOf?_eq_none hnone i hi
    have hnew' : days ∉ s.sets.toList := by
      rwa [h, List.mem_eraseDups]
    rw [if_neg hnew, heq]
    refine ⟨Array.toList_push, ?_⟩
    rw [List.idxOf_append_of_notMem hnew']
    simp [size]

/-- What comes later does not change the place of a set. -/
lemma idxOf_eraseDups_append (h : days ∈ before) (calls : List ServiceDays) :
    (before ++ calls).eraseDups.idxOf days = before.eraseDups.idxOf days := by
  rw [List.eraseDups_append, List.idxOf_append_of_mem (List.mem_eraseDups.2 h)]

lemma HoldsFirsts.internAll (h : s.HoldsFirsts before) (calls : List ServiceDays) :
    (s.internAll calls).2.HoldsFirsts (before ++ calls) ∧
      (s.internAll calls).1 = calls.map fun days => ⟨(before ++ calls).eraseDups.idxOf days⟩ := by
  induction calls generalizing s before with
  | nil =>
    rw [List.append_nil]
    exact ⟨h, rfl⟩
  | cons days rest ih =>
    obtain ⟨hstep, hindex⟩ := h.intern days
    obtain ⟨hrest, hindices⟩ := ih hstep
    rw [List.append_assoc, List.singleton_append] at hrest hindices
    have hlast : days ∈ before ++ [days] := List.mem_append_right _ (List.mem_singleton.2 rfl)
    have hkept := idxOf_eraseDups_append hlast rest
    rw [List.append_assoc, List.singleton_append] at hkept
    refine ⟨hrest, ?_⟩
    rw [List.map_cons, hkept, ← hindex, ← hindices]
    rfl

/-- Every index keeps its set, whatever is stored later. -/
lemma get?_internAll_of_get? (h : s.get? i = some days) (calls : List ServiceDays) :
    (s.internAll calls).2.get? i = some days := by
  induction calls generalizing s with
  | nil => exact h
  | cons other rest ih => exact ih (get?_intern_of_get? h other)

/-- Sets that are stored one after the other share an index exactly when they have the same days and
the same capacity; the indices are dense, in the order in which sets first come, and each of them
leads back to its set for good. -/
structure SharesIndices (calls : List ServiceDays) : Prop where
  length_eq : (empty.internAll calls).1.length = calls.length
  eq_iff : ∀ {k k' : Nat} {days days' : ServiceDays} {i i' : ServiceDaysIndex},
    calls[k]? = some days → calls[k']? = some days' →
      (empty.internAll calls).1[k]? = some i → (empty.internAll calls).1[k']? = some i' →
        (i = i' ↔ days.capacity = days'.capacity ∧ ∀ d, days.contains d = days'.contains d)
  indices_eq : (empty.internAll calls).1 = calls.map fun days => ⟨calls.eraseDups.idxOf days⟩
  mem_indices_iff : ∀ i, i ∈ (empty.internAll calls).1 ↔ i.val < (empty.internAll calls).2.size
  get?_eq : ∀ {k : Nat} {days : ServiceDays} {i : ServiceDaysIndex}, calls[k]? = some days →
    (empty.internAll calls).1[k]? = some i →
      ∀ more, ((empty.internAll calls).2.internAll more).2.get? i = some days

lemma holdsFirsts_empty : empty.HoldsFirsts [] := rfl

lemma internAll_empty (calls : List ServiceDays) :
    (empty.internAll calls).2.HoldsFirsts calls ∧
      (empty.internAll calls).1 = calls.map fun days => ⟨calls.eraseDups.idxOf days⟩ :=
  holdsFirsts_empty.internAll calls

lemma index_of_call {k : Nat} (hk : calls[k]? = some days)
    (hi : (empty.internAll calls).1[k]? = some i) : i = ⟨calls.eraseDups.idxOf days⟩ := by
  rw [(internAll_empty calls).2, List.getElem?_map, hk, Option.map_some] at hi
  exact (Option.some.inj hi).symm

lemma get?_idxOf (h : days ∈ calls) :
    (empty.internAll calls).2.get? ⟨calls.eraseDups.idxOf days⟩ = some days := by
  have hidx := List.getElem?_idxOf (List.mem_eraseDups.2 h)
  rw [← (internAll_empty calls).1, Array.getElem?_toList] at hidx
  rw [← (internAll_empty calls).1]
  exact hidx

lemma mem_indices_iff (i : ServiceDaysIndex) :
    i ∈ (empty.internAll calls).1 ↔ i.val < (empty.internAll calls).2.size := by
  obtain ⟨hfirsts, hindices⟩ := internAll_empty calls
  rw [hindices, List.mem_map]
  constructor
  · rintro ⟨days, hmem, rfl⟩
    exact (Array.getElem?_eq_some_iff.1 (get?_idxOf hmem)).1
  · intro hlt
    have hget : (empty.internAll calls).2.get? i = some ((empty.internAll calls).2.sets[i.val]) :=
      Array.getElem?_eq_getElem hlt
    have hmem : (empty.internAll calls).2.sets[i.val] ∈ calls := by
      rw [← List.mem_eraseDups, ← hfirsts]
      exact exists_get?_iff_mem.1 ⟨i, hget⟩
    exact ⟨_, hmem, get?_inj (get?_idxOf hmem) hget⟩

lemma sharesIndices (h : ∀ days ∈ calls, ∃ c, ServiceDays.IsOn c days) : SharesIndices calls where
  length_eq := by rw [(internAll_empty calls).2, List.length_map]
  eq_iff := by
    intro k k' days days' i i' hk hk' hi hi'
    have hmem := List.mem_of_getElem? hk
    have hmem' := List.mem_of_getElem? hk'
    obtain ⟨c, hc⟩ := h days hmem
    obtain ⟨c', hc'⟩ := h days' hmem'
    rw [← hc.eq_iff hc', index_of_call hk hi, index_of_call hk' hi']
    constructor
    · intro heq
      have hget := get?_idxOf hmem
      rw [heq, get?_idxOf hmem'] at hget
      exact (Option.some.inj hget).symm
    · rintro rfl
      rfl
  indices_eq := (internAll_empty calls).2
  mem_indices_iff := mem_indices_iff
  get?_eq := by
    intro k days i hk hi more
    rw [index_of_call hk hi]
    exact get?_internAll_of_get? (get?_idxOf (List.mem_of_getElem? hk)) more

/-- Sets of service days stay within their calendars, and share an index exactly when they are
equal. -/
theorem staysWithin_and_sharesIndices (calls : List ServiceDays)
    (h : ∀ days ∈ calls, ∃ c, ServiceDays.IsOn c days) :
    (∀ c days, ServiceDays.IsOn c days → days.StaysWithin c) ∧ SharesIndices calls :=
  ⟨fun _ _ hon => hon.staysWithin, sharesIndices h⟩

end ServiceDaysStore

namespace TwoCalendars

/-- From 2020-02-08 to 2020-02-10. -/
def short : Calendar := ⟨⟨18300⟩, ⟨18302⟩, by decide, by decide⟩

/-- From 2020-02-08 to 2020-02-11. -/
def long : Calendar := ⟨⟨18300⟩, ⟨18303⟩, by decide, by decide⟩

/-- The first date, the day before it moved a day later, the first date of the other calendar, the
last date moved past the end, and no day. -/
def calls : List ServiceDays :=
  [.ofDates [⟨18300⟩] short, (ServiceDays.ofDates [⟨18299⟩] short).shift 1, .ofDates [⟨18300⟩] long,
    (ServiceDays.ofDates [⟨18302⟩] short).shift 2, .empty short]

theorem sharesIndices_calls : (∀ days ∈ calls, ∃ c, ServiceDays.IsOn c days) ∧
    (∀ c days, ServiceDays.IsOn c days → days.StaysWithin c) ∧
      ServiceDaysStore.SharesIndices calls := by
  have hmade : ∀ days ∈ calls, ∃ c, ServiceDays.IsOn c days := by
    simp only [calls, List.forall_mem_cons, List.not_mem_nil, false_implies, implies_true, and_true]
    exact ⟨⟨short, .ofDates _⟩, ⟨short, .shift 1 (.ofDates _)⟩, ⟨long, .ofDates _⟩,
      ⟨short, .shift 2 (.ofDates _)⟩, ⟨short, .empty⟩⟩
  exact ⟨hmade, ServiceDaysStore.staysWithin_and_sharesIndices calls hmade⟩

example : (ServiceDaysStore.empty.internAll calls).1.map Index.val = [0, 0, 1, 2, 2] := by
  decide +kernel

end TwoCalendars

end JourneyPlanner
