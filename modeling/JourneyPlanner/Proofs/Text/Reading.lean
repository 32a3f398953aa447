import Mathlib.Data.List.TakeWhile
import Mathlib.Data.Nat.Digits.Defs
import Mathlib.Tactic.Common
import JourneyPlanner.Text.Blank
import JourneyPlanner.Text.Decimal

/-!
# Reading texts

What is read is told by what it is made of: a numeral by its digits, a trimmed text by the blanks
around it, and fields by the separators between them.
-/

namespace JourneyPlanner.Text

/-- The number that decimal digits write. -/
def valueOf (digits : List Char) : Nat :=
  Nat.ofDigits 10 (digits.reverse.map fun c => c.toNat - '0'.toNat)

/-- One or more ASCII digits, possibly after a single plus sign, that write a number. -/
def IsNumeral (cs : List Char) (n : Nat) : Prop :=
  ∃ digits, (cs = digits ∨ cs = '+' :: digits) ∧ digits ≠ [] ∧ (∀ c ∈ digits, '0' ≤ c ∧ c ≤ '9') ∧
    n = valueOf digits

variable {c separator : Char} {cs digits body before after field rest : List Char} {n m limit : Nat}

lemma valueOf_nil : valueOf [] = 0 := rfl

lemma valueOf_cons (c : Char) (cs : List Char) :
    valueOf (c :: cs) = (c.toNat - '0'.toNat) * 10 ^ cs.length + valueOf cs := by
  unfold valueOf
  rw [List.reverse_cons, List.map_append, Nat.ofDigits_append, List.length_map, List.length_reverse]
  simp [Nat.mul_comm, Nat.add_comm]

lemma digit?_eq_some_iff : digit? c = some n ↔ ('0' ≤ c ∧ c ≤ '9') ∧ n = c.toNat - '0'.toNat := by
  unfold digit?
  split
  · rename_i hdigit
    simp [hdigit, eq_comm]
  · rename_i hdigit
    simp [hdigit]

/-- Digits continue the number that was written before them. -/
lemma digitsFrom?_eq_some_iff : digitsFrom? m cs = some n ↔
    (∀ c ∈ cs, '0' ≤ c ∧ c ≤ '9') ∧ n = m * 10 ^ cs.length + valueOf cs := by
  induction cs generalizing m with
  | nil => simp [digitsFrom?, valueOf_nil, eq_comm]
  | cons c cs ih =>
    rw [digitsFrom?, Option.bind_eq_some_iff, valueOf_cons, List.length_cons, List.forall_mem_cons]
    have hvalue : ∀ d, (10 * m + d) * 10 ^ cs.length + valueOf cs =
        m * 10 ^ (cs.length + 1) + (d * 10 ^ cs.length + valueOf cs) := by
      intro d
      rw [Nat.pow_succ]
      ring
    constructor
    · rintro ⟨d, hd, hrest⟩
      obtain ⟨hdigit, rfl⟩ := digit?_eq_some_iff.1 hd
      obtain ⟨hdigits, rfl⟩ := ih.1 hrest
      exact ⟨⟨hdigit, hdigits⟩, hvalue _⟩
    · rintro ⟨⟨hdigit, hdigits⟩, rfl⟩
      exact ⟨_, digit?_eq_some_iff.2 ⟨hdigit, rfl⟩, ih.2 ⟨hdigits, (hvalue _).symm⟩⟩

lemma digits?_eq_some_iff : digits? cs = some n ↔
    cs ≠ [] ∧ (∀ c ∈ cs, '0' ≤ c ∧ c ≤ '9') ∧ n = valueOf cs := by
  cases cs with
  | nil => simp [digits?]
  | cons c cs =>
    rw [digits?, digitsFrom?_eq_some_iff, Nat.zero_mul, Nat.zero_add]
    simp

/-- A numeral is read as the number that it writes, when that is below the limit. -/
lemma unsigned?_eq_some_iff : unsigned? limit cs = some n ↔ IsNumeral cs n ∧ n < limit := by
  unfold unsigned? IsNumeral
  rw [Option.filter_eq_some_iff, decide_eq_true_eq, digits?_eq_some_iff]
  refine and_congr_left fun _ => ?_
  split
  · rename_i rest
    constructor
    · rintro ⟨hne, hdigits, hn⟩
      exact ⟨rest, .inr rfl, hne, hdigits, hn⟩
    · rintro ⟨digits, rfl | hcs, hne, hdigits, hn⟩
      · -- a plus sign is no digit
        exact absurd (hdigits '+' List.mem_cons_self).1 (by decide)
      · cases hcs
        exact ⟨hne, hdigits, hn⟩
  · rename_i hplus
    constructor
    · rintro ⟨hne, hdigits, hn⟩
      exact ⟨cs, .inl rfl, hne, hdigits, hn⟩
    · rintro ⟨digits, rfl | rfl, hne, hdigits, hn⟩
      · exact ⟨hne, hdigits, hn⟩
      · exact absurd rfl (hplus digits)

lemma IsNumeral.not_mem (h : IsNumeral cs n) (hdigit : ¬('0' ≤ c ∧ c ≤ '9')) (hplus : c ≠ '+') :
    c ∉ cs := by
  obtain ⟨digits, rfl | rfl, _, hdigits, _⟩ := h
  · exact fun hc => hdigit (hdigits c hc)
  · intro hc
    rcases List.mem_cons.1 hc with rfl | hc
    · exact hplus rfl
    · exact hdigit (hdigits c hc)

/-- A text without the blanks before and after it. -/
structure IsTrimmed (cs body : List Char) : Prop where
  between : ∃ before after, cs = before ++ body ++ after ∧ (∀ c ∈ before, isBlank c = true) ∧
    ∀ c ∈ after, isBlank c = true
  head : ∀ c, body.head? = some c → isBlank c = false
  last : ∀ c, body.getLast? = some c → isBlank c = false

lemma trimStart_append (hbefore : ∀ c ∈ before, isBlank c = true) :
    trimStart (before ++ body) = trimStart body :=
  List.dropWhile_append_of_pos hbefore

lemma trimStart_of_head (h : ∀ c, body.head? = some c → isBlank c = false) :
    trimStart body = body := by
  cases body with
  | nil => rfl
  | cons c body => exact List.dropWhile_cons_of_neg (by rw [h c rfl]; exact Bool.false_ne_true)

lemma trim_of_isTrimmed (h : IsTrimmed cs body) : trim cs = body := by
  obtain ⟨⟨before, after, rfl, hbefore, hafter⟩, hhead, hlast⟩ := h
  unfold trim
  rw [List.append_assoc, trimStart_append hbefore]
  cases body with
  | nil =>
    have hnone : trimStart after = [] := List.dropWhile_eq_nil_iff.2 hafter
    rw [List.nil_append, hnone]
    rfl
  | cons c body =>
    have hfront : trimStart (c :: body ++ after) = c :: body ++ after :=
      trimStart_of_head fun d hd => hhead d hd
    rw [hfront, List.reverse_append, trimStart_append (fun d hd => hafter d (List.mem_reverse.1 hd)),
      trimStart_of_head fun d hd => hlast d (by rw [← List.head?_reverse]; exact hd),
      List.reverse_reverse]

lemma isTrimmed_trim (cs : List Char) : IsTrimmed cs (trim cs) := by
  -- what is trimmed at the front, and then at the back of the reversed rest, goes around `trim cs`
  have hfront := List.takeWhile_append_dropWhile (p := isBlank) (l := cs)
  have hback : (trimStart cs).reverse.takeWhile isBlank ++ trimStart (trimStart cs).reverse =
      (trimStart cs).reverse := List.takeWhile_append_dropWhile
  have hmiddle : trimStart cs =
      trim cs ++ ((trimStart cs).reverse.takeWhile isBlank).reverse := by
    rw [trim, ← List.reverse_append, hback, List.reverse_reverse]
  refine ⟨⟨cs.takeWhile isBlank, ((trimStart cs).reverse.takeWhile isBlank).reverse, ?_, ?_, ?_⟩,
    ?_, ?_⟩
  · rw [List.append_assoc, ← hmiddle]
    exact hfront.symm
  · exact fun c hc => List.mem_takeWhile_imp hc
  · exact fun c hc => List.mem_takeWhile_imp (List.mem_reverse.1 hc)
  · intro c hc
    have hstart : (trimStart cs).head? = some c := by
      rw [hmiddle, List.head?_append, hc]
      rfl
    have hnot := List.head?_dropWhile_not isBlank cs
    rw [← trimStart, hstart] at hnot
    simpa using hnot
  · intro c hc
    rw [trim, List.getLast?_reverse] at hc
    have hnot := List.head?_dropWhile_not isBlank (trimStart cs).reverse
    rw [← trimStart, hc] at hnot
    simpa using hnot

/-- There is one way to trim a text. -/
lemma isTrimmed_iff : IsTrimmed cs body ↔ trim cs = body :=
  ⟨trim_of_isTrimmed, fun h => h ▸ isTrimmed_trim cs⟩

lemma splitAtEach_of_not_mem (h : separator ∉ field) : splitAtEach separator field = [field] := by
  induction field with
  | nil => rfl
  | cons c field ih =>
    rw [List.mem_cons, not_or] at h
    rw [splitAtEach, ih h.2]
    exact if_neg (Ne.symm h.1)

/-- The first field ends at the first separator. -/
lemma splitAtEach_append (h : separator ∉ field) (rest : List Char) :
    splitAtEach separator (field ++ separator :: rest) = field :: splitAtEach separator rest := by
  induction field with
  | nil =>
    rw [List.nil_append, splitAtEach]
    cases hrest : splitAtEach separator rest with
    | nil => exact absurd hrest (splitAtEach_ne_nil separator rest)
    | cons first others => exact if_pos rfl
  | cons c field ih =>
    rw [List.mem_cons, not_or] at h
    rw [List.cons_append, splitAtEach, ih h.2]
    exact if_neg (Ne.symm h.1)

/-- Fields without a separator are what the text they make up is split into. -/
lemma splitAtEach_intercalate {fields : List (List Char)} (hne : fields ≠ [])
    (h : ∀ field ∈ fields, separator ∉ field) :
    splitAtEach separator ([separator].intercalate fields) = fields := by
  induction fields with
  | nil => exact absurd rfl hne
  | cons field fields ih =>
    rw [List.forall_mem_cons] at h
    cases fields with
    | nil => rw [List.intercalate_singleton, splitAtEach_of_not_mem h.1]
    | cons next others =>
      rw [List.intercalate_cons_cons, List.append_assoc, List.singleton_append,
        splitAtEach_append h.1, ih (List.cons_ne_nil _ _) h.2]

end JourneyPlanner.Text
