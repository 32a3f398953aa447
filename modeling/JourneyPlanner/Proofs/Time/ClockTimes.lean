import Mathlib.Tactic.Common
import JourneyPlanner.Proofs.Text.Reading
import JourneyPlanner.Time.ClockText

/-!
# The times that texts tell

A text tells a time by two or three numerals with colons between them, whatever the number of
hours. The two parsers read the times of a trip and the usable durations among them, and refuse
every other text, exactly when the minutes that the text tells fit the word they are counted in.
-/

namespace JourneyPlanner

namespace ClockText

open Text

variable {input : String} {fields : List (List Char)} {hours minutes hours' minutes' n n' : Nat}

/-- The fields of a time: its hours, its minutes and, when they are given, its seconds. -/
inductive AreFields (hours minutes : Nat) : List (List Char) → Prop
  | short {h m : List Char} (hh : IsNumeral h hours) (hm : IsNumeral m minutes)
      (hours_lt : hours < wordSize) (minutes_lt : minutes < 60) : AreFields hours minutes [h, m]
  | long {h m s : List Char} {seconds : Nat} (hh : IsNumeral h hours) (hm : IsNumeral m minutes)
      (hs : IsNumeral s seconds) (hours_lt : hours < wordSize) (minutes_lt : minutes < 60)
      (seconds_lt : seconds < 60) : AreFields hours minutes [h, m, s]

/-- The text, once trimmed, tells a time of `n` minutes. -/
def Tells (input : String) (n : Nat) : Prop :=
  ∃ body fields hours minutes, IsTrimmed input.toList body ∧ body = [':'].intercalate fields ∧
    AreFields hours minutes fields ∧ n = 60 * hours + minutes

lemma unsigned?_of_isNumeral {cs : List Char} (h : IsNumeral cs n) (hlt : n < wordSize) :
    unsigned? wordSize cs = some n :=
  unsigned?_eq_some_iff.2 ⟨h, hlt⟩

lemma AreFields.ne_nil (h : AreFields hours minutes fields) : fields ≠ [] := by
  cases h <;> exact List.cons_ne_nil _ _

/-- A field is a numeral, and a numeral has no colon. -/
lemma AreFields.colon_not_mem (h : AreFields hours minutes fields) :
    ∀ field ∈ fields, ':' ∉ field := by
  have hcolon : ∀ {cs : List Char} {n : Nat}, IsNumeral cs n → ':' ∉ cs :=
    fun h => h.not_mem (by decide) (by decide)
  cases h with
  | short hh hm _ _ => simpa using ⟨hcolon hh, hcolon hm⟩
  | long hh hm hs _ _ _ => simpa using ⟨hcolon hh, hcolon hm, hcolon hs⟩

lemma AreFields.unique (h : AreFields hours minutes fields) (h' : AreFields hours' minutes' fields) :
    hours = hours' ∧ minutes = minutes' := by
  -- a field tells one number, because it is read as one
  have hread : ∀ {cs : List Char} {a b : Nat}, IsNumeral cs a → IsNumeral cs b → a < wordSize →
      b < wordSize → a = b := by
    intro cs a b ha hb halt hblt
    have := unsigned?_of_isNumeral ha halt
    rw [unsigned?_of_isNumeral hb hblt] at this
    exact (Option.some.inj this).symm
  have hword : 60 < wordSize := by decide
  cases h with
  | short hh hm hhlt hmlt =>
    cases h' with
    | short hh' hm' hhlt' hmlt' =>
      exact ⟨hread hh hh' hhlt hhlt', hread hm hm' (hmlt.trans hword) (hmlt'.trans hword)⟩
  | long hh hm _ hhlt hmlt _ =>
    cases h' with
    | long hh' hm' _ hhlt' hmlt' _ =>
      exact ⟨hread hh hh' hhlt hhlt', hread hm hm' (hmlt.trans hword) (hmlt'.trans hword)⟩

lemma ofFields?_eq_some_iff :
    ofFields? fields = some (hours, minutes) ↔ AreFields hours minutes fields := by
  have hword : 60 < wordSize := by decide
  constructor
  · intro h
    unfold ofFields? at h
    split at h
    · rename_i hfield mfield
      obtain ⟨hours', hh, minutes', hm, hif⟩ :
          ∃ hours', unsigned? wordSize hfield = some hours' ∧
            ∃ minutes', unsigned? wordSize mfield = some minutes' ∧
              (if minutes' < 60 then some (hours', minutes') else none) = some (hours, minutes) := by
        simpa only [Option.bind_eq_bind, Option.bind_eq_some_iff] using h
      obtain ⟨hlt, heq⟩ := Option.ite_none_right_eq_some.1 hif
      rw [unsigned?_eq_some_iff] at hh hm
      cases heq
      exact .short hh.1 hm.1 hh.2 hlt
    · rename_i hfield mfield sfield
      obtain ⟨hours', hh, minutes', hm, seconds, hs, hif⟩ :
          ∃ hours', unsigned? wordSize hfield = some hours' ∧
            ∃ minutes', unsigned? wordSize mfield = some minutes' ∧
              ∃ seconds, unsigned? wordSize sfield = some seconds ∧
                (if seconds < 60 ∧ minutes' < 60 then some (hours', minutes') else none) =
                  some (hours, minutes) := by
        simpa only [Option.bind_eq_bind, Option.bind_eq_some_iff] using h
      obtain ⟨⟨hslt, hmlt⟩, heq⟩ := Option.ite_none_right_eq_some.1 hif
      rw [unsigned?_eq_some_iff] at hh hm hs
      cases heq
      exact .long hh.1 hm.1 hs.1 hh.2 hmlt hslt
    · cases h
  · intro hfields
    cases hfields with
    | short hh hm hhlt hmlt =>
      simp [ofFields?, unsigned?_of_isNumeral hh hhlt,
        unsigned?_of_isNumeral hm (hmlt.trans hword), hmlt]
    | long hh hm hs hhlt hmlt hslt =>
      simp [ofFields?, unsigned?_of_isNumeral hh hhlt,
        unsigned?_of_isNumeral hm (hmlt.trans hword),
        unsigned?_of_isNumeral hs (hslt.trans hword), hmlt, hslt]

/-- The fields of a text that tells a time are the ones that it is split into. -/
lemma tells_iff : Tells input n ↔
    ∃ hours minutes, AreFields hours minutes (splitAtEach ':' (trim input.toList)) ∧
      n = 60 * hours + minutes := by
  constructor
  · rintro ⟨body, fields, hours, minutes, hbody, rfl, hfields, hn⟩
    refine ⟨hours, minutes, ?_, hn⟩
    rwa [isTrimmed_iff.1 hbody, splitAtEach_intercalate hfields.ne_nil hfields.colon_not_mem]
  · rintro ⟨hours, minutes, hfields, hn⟩
    exact ⟨_, _, hours, minutes, isTrimmed_trim _, (intercalate_splitAtEach ':' _).symm, hfields, hn⟩

lemma Tells.unique (h : Tells input n) (h' : Tells input n') : n = n' := by
  obtain ⟨hours, minutes, hfields, rfl⟩ := tells_iff.1 h
  obtain ⟨hours', minutes', hfields', rfl⟩ := tells_iff.1 h'
  obtain ⟨rfl, rfl⟩ := hfields.unique hfields'
  rfl

lemma total_eq_ok (h : 60 * hours + minutes < wordSize) :
    total hours minutes = .ok (60 * hours + minutes) := by
  rw [Nat.mul_comm] at h ⊢
  rw [total, Checked.word_eq_ok (Nat.lt_of_le_of_lt (Nat.le_add_right _ _) h), Checked.ok_bind,
    Checked.word_eq_ok h]

/-- Either the minutes of the full hours are too many for the word, or the sum is. -/
lemma total_of_le (h : wordSize ≤ 60 * hours + minutes) : ∃ e, total hours minutes = .error e := by
  rw [Nat.mul_comm] at h
  rcases Nat.lt_or_ge (hours * 60) wordSize with hlt | hge
  · rw [total, Checked.word_eq_ok hlt, Checked.ok_bind, Checked.word_of_le h]
    exact ⟨_, rfl⟩
  · rw [total, Checked.word_of_le hge]
    exact ⟨_, rfl⟩

/-- A text tells a time that fits the word, or one that does not, or none. -/
lemma minutes?_cases (input : String) :
    (∃ n, Tells input n ∧ n < wordSize ∧ minutes? input = .ok (some n)) ∨
      (∃ n, Tells input n ∧ wordSize ≤ n ∧ ∃ e, minutes? input = .error e) ∨
        ((∀ n, ¬Tells input n) ∧ minutes? input = .ok none) := by
  unfold minutes?
  simp only [tells_iff, ← ofFields?_eq_some_iff]
  cases hfields : ofFields? (splitAtEach ':' (trim input.toList)) with
  | none =>
    refine .inr (.inr ⟨fun n h => ?_, rfl⟩)
    obtain ⟨_, _, hsome, _⟩ := h
    cases hsome
  | some time =>
    obtain ⟨hours, minutes⟩ := time
    rcases Nat.lt_or_ge (60 * hours + minutes) wordSize with hlt | hge
    · refine .inl ⟨_, ⟨hours, minutes, rfl, rfl⟩, hlt, ?_⟩
      dsimp only
      rw [total_eq_ok hlt]
      rfl
    · obtain ⟨e, he⟩ := total_of_le hge
      refine .inr (.inl ⟨_, ⟨hours, minutes, rfl, rfl⟩, hge, e, ?_⟩)
      dsimp only
      rw [he]
      rfl

/-- The minutes below `limit` that the text tells, and no others, are read from it; every other text
is refused, and quoted. -/
structure ReadsBelow {α : Type} (limit : Nat) (minutesOf : α → Nat)
    (parse : String → Checked (Except TimeParseError α)) (input : String) : Prop where
  answers : ∃ answer, parse input = .ok answer
  accepts : ∀ n < limit, Tells input n → ∃ a, parse input = .ok (.ok a) ∧ minutesOf a = n
  accepts_only : ∀ a, parse input = .ok (.ok a) → Tells input (minutesOf a) ∧ minutesOf a < limit
  refuses : ∀ e, parse input = .ok (.error e) → e = ⟨input⟩

section Parse

variable {α : Type} {limit : Nat} {minutesOf : α → Nat} {ofMinutes? : Nat → Option α}

lemma parse_eq_ok {a : α} (h : minutes? input = .ok (some n)) (ha : ofMinutes? n = some a) :
    parse ofMinutes? input = .ok (.ok a) := by
  rw [parse, h, Checked.ok_bind, Option.bind_some, ha]
  rfl

lemma parse_refused {told : Option Nat} (h : minutes? input = .ok told)
    (hnone : told.bind ofMinutes? = none) : parse ofMinutes? input = .ok (.error ⟨input⟩) := by
  rw [parse, h, Checked.ok_bind, hnone]
  rfl

lemma parse_out_of_range {e : OutOfRange} (h : minutes? input = .error e) :
    parse ofMinutes? input = .error e := by
  rw [parse, h]
  rfl

/-- What is made of the minutes below a limit, and of no others, is read from the texts that tell
them, unless a text tells more minutes than a word can count. -/
lemma readsBelow_parse_iff (hsome : ∀ n < limit, ∃ a, ofMinutes? n = some a)
    (hof : ∀ n a, ofMinutes? n = some a → minutesOf a = n ∧ n < limit) :
    ReadsBelow limit minutesOf (parse ofMinutes?) input ↔ ∀ n, Tells input n → n < wordSize := by
  rcases minutes?_cases input with ⟨n, htells, hlt, hread⟩ | ⟨n, htells, hle, e, hread⟩ |
    ⟨hnone, hread⟩
  · refine iff_of_true ?_ fun n' h => h.unique htells ▸ hlt
    cases ha : ofMinutes? n with
    | some a =>
      have hparse := parse_eq_ok hread ha
      obtain ⟨hminutes, hlimit⟩ := hof n a ha
      refine ⟨⟨_, hparse⟩, fun n' _ h => ⟨a, hparse, hminutes.trans (htells.unique h)⟩,
        fun a' ha' => ?_, fun e he => ?_⟩
      · cases hparse.symm.trans ha'
        rw [hminutes]
        exact ⟨htells, hlimit⟩
      · cases hparse.symm.trans he
    | none =>
      have hparse : parse ofMinutes? input = _ := parse_refused hread ha
      refine ⟨⟨_, hparse⟩, fun n' hn' h => ?_, fun a' ha' => ?_, fun e he => ?_⟩
      · obtain ⟨a, ha'⟩ := hsome n' hn'
        rw [h.unique htells, ha] at ha'
        cases ha'
      · cases hparse.symm.trans ha'
      · cases hparse.symm.trans he
        rfl
  · refine iff_of_false (fun h => ?_) fun h => absurd (h n htells) (Nat.not_lt.2 hle)
    obtain ⟨answer, hanswer⟩ := h.answers
    cases (parse_out_of_range hread).symm.trans hanswer
  · have hparse : parse ofMinutes? input = _ := parse_refused hread rfl
    refine iff_of_true ⟨⟨_, hparse⟩, fun n _ h => absurd h (hnone n), fun a ha => ?_,
      fun e he => ?_⟩ fun n h => absurd h (hnone n)
    · cases hparse.symm.trans ha
    · cases hparse.symm.trans he
      rfl

end Parse

/-- Times of trips and durations are read exactly from the texts whose minutes fit a word. -/
theorem readsBelow_iff (input : String) :
    (ReadsBelow 7200 ServiceTime.minutes ServiceTime.parse input ↔
      ∀ n, Tells input n → n < wordSize) ∧
    (ReadsBelow 65535 Duration.minutes Duration.parse input ↔
      ∀ n, Tells input n → n < wordSize) := by
  constructor
  · have hlimit : maxDaysInTrip * minutesPerDay = 7200 := rfl
    refine readsBelow_parse_iff (fun n hn => ⟨_, if_pos hn⟩) fun n t ht => ?_
    obtain ⟨hlt, heq⟩ := Option.ite_none_right_eq_some.1 ht
    cases heq
    exact ⟨Nat.mod_eq_of_lt (by omega), hlimit ▸ hlt⟩
  · refine readsBelow_parse_iff (fun n hn => ⟨_, if_pos hn⟩) fun n d hd => ?_
    obtain ⟨hlt, heq⟩ := Option.ite_none_right_eq_some.1 hd
    cases heq
    exact ⟨Nat.min_eq_left hlt.le, hlt⟩

/-- A time of a trip past midnight, with seconds and blanks. -/
example : ServiceTime.parse " 25:10:59 " = .ok (.ok (.ofNat 1510)) := by decide

/-- A number that is read is written by a numeral. -/
lemma isNumeral_of_unsigned? {cs : List Char} (h : unsigned? wordSize cs = some n) :
    IsNumeral cs n :=
  (unsigned?_eq_some_iff.1 h).1

lemma tells_overflow : Tells "71582789:00" 4294967340 := by
  have hfields : AreFields 71582789 0 ["71582789".toList, "00".toList] :=
    .short (isNumeral_of_unsigned? (by decide)) (isNumeral_of_unsigned? (by decide)) (by decide)
      (by decide)
  exact ⟨"71582789:00".toList, _, 71582789, 0, isTrimmed_iff.2 (by decide), by decide, hfields, rfl⟩

/-- The minutes are counted in a word before they are compared with a limit. -/
theorem not_readsBelow_overflow : Tells "71582789:00" 4294967340 ∧
    ServiceTime.parse "71582789:00" = .error (.word 4294967340 wordSize) ∧
    Duration.parse "71582789:00" = .error (.word 4294967340 wordSize) ∧
    ¬ ReadsBelow 7200 ServiceTime.minutes ServiceTime.parse "71582789:00" ∧
    ¬ ReadsBelow 65535 Duration.minutes Duration.parse "71582789:00" := by
  have htime : ServiceTime.parse "71582789:00" = .error (.word 4294967340 wordSize) := by decide
  have hduration : Duration.parse "71582789:00" = .error (.word 4294967340 wordSize) := by decide
  refine ⟨tells_overflow, htime, hduration, fun h => ?_, fun h => ?_⟩
  · obtain ⟨answer, hanswer⟩ := h.answers
    cases htime.symm.trans hanswer
  · obtain ⟨answer, hanswer⟩ := h.answers
    cases hduration.symm.trans hanswer

end ClockText

end JourneyPlanner
