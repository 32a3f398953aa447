/-!
Decimal numerals: reading natural numbers from ASCII digits, and writing them with leading zeros up
to a least width.
-/

namespace JourneyPlanner.Text

/-- The value of an ASCII digit. -/
def digit? (c : Char) : Option Nat :=
  if '0' ≤ c ∧ c ≤ '9' then some (c.toNat - '0'.toNat) else none

/-- The number written by `cs`, continuing from the value `n` of the digits before it. -/
def digitsFrom? (n : Nat) : List Char → Option Nat
  | [] => some n
  | c :: cs => (digit? c).bind fun d => digitsFrom? (10 * n + d) cs

/-- A numeral is one or more ASCII digits. -/
def digits? : List Char → Option Nat
  | [] => none
  | c :: cs => digitsFrom? 0 (c :: cs)

/-- A numeral, possibly after a single plus sign, of a number below `limit`. -/
def unsigned? (limit : Nat) (cs : List Char) : Option Nat :=
  let body := match cs with
    | '+' :: rest => rest
    | cs => cs
  (digits? body).filter (· < limit)

/-- The longest run of digits at the front, of at most `width` of them, with what follows it. -/
def spanDigits : Nat → List Char → List Char × List Char
  | 0, cs => ([], cs)
  | _ + 1, [] => ([], [])
  | width + 1, c :: cs =>
    if (digit? c).isSome then
      let (ds, rest) := spanDigits width cs
      (c :: ds, rest)
    else ([], c :: cs)

/-- The numeral of `n`, with leading zeros up to `width` digits. -/
def padded (width n : Nat) : String :=
  let ds := Nat.toDigits 10 n
  String.ofList (List.replicate (width - ds.length) '0' ++ ds)

/-- Splits a text at every separator. -/
def splitAtEach (separator : Char) : List Char → List (List Char)
  | [] => [[]]
  | c :: cs =>
    match splitAtEach separator cs with
    | [] => [[c]]
    | field :: fields =>
      if c = separator then [] :: field :: fields else (c :: field) :: fields

theorem splitAtEach_ne_nil (separator : Char) (cs : List Char) : splitAtEach separator cs ≠ [] := by
  cases cs with
  | nil => exact List.cons_ne_nil _ _
  | cons c cs =>
    rw [splitAtEach]
    split
    · exact List.cons_ne_nil _ _
    · split <;> exact List.cons_ne_nil _ _

/-- The fields with a separator between each two make up the text. -/
theorem intercalate_splitAtEach (separator : Char) (cs : List Char) :
    [separator].intercalate (splitAtEach separator cs) = cs := by
  induction cs with
  | nil => rfl
  | cons c cs ih =>
    rw [splitAtEach]
    cases h : splitAtEach separator cs with
    | nil => exact absurd h (splitAtEach_ne_nil separator cs)
    | cons field fields =>
      rw [h] at ih
      by_cases hc : c = separator
      · simp only [hc, if_true]
        rw [List.intercalate_cons_cons, ih]
        rfl
      · simp only [hc, if_false]
        cases fields with
        | nil => simpa using ih
        | cons next others =>
          rw [List.intercalate_cons_cons] at ih ⊢
          rw [← ih]
          rfl

end JourneyPlanner.Text
