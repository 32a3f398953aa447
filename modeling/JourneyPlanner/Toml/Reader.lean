import JourneyPlanner.Toml.Quoted
import JourneyPlanner.Toml.Value

/-!
Reading the lines of a TOML document. Blanks are spaces and tabs; a line is a table header, an
entry, or empty, and may end with a comment.
-/

namespace JourneyPlanner.Toml

/-- The characters of bare keys, numbers and truth values. -/
def isBare (c : Char) : Bool := c.isAlphanum || c == '-' || c == '_'

def skipBlanks (cs : List Char) : List Char := cs.dropWhile fun c => c == ' ' || c == '\t'

/-- A text without the comment at its front. -/
def skipComment : List Char → List Char
  | '#' :: rest => rest.dropWhile fun c => c == '\t' || 0x20 ≤ c.toNat
  | cs => cs

/-- Blanks, comments and newlines at the front of a text are skipped. Each comment ends in a
newline, so as many turns as there are characters are enough. -/
def skipLines : Nat → List Char → List Char
  | 0, cs => cs
  | fuel + 1, cs =>
    match skipComment (skipBlanks cs) with
    | '\n' :: rest => skipLines fuel rest
    | rest => rest

/-- The end of a line: blanks, possibly a comment, and a newline or the end of the text. -/
def endLine (cs : List Char) : Option (List Char) :=
  match skipComment (skipBlanks cs) with
  | [] => some []
  | '\n' :: rest => some rest
  | _ => none

/-- A key: bare, or quoted in one line. -/
def key (cs : List Char) : Option (String × List Char) :=
  match cs with
  | '"' :: _ => quotedLine cs
  | '\'' :: _ => quotedLine cs
  | _ =>
    let name := cs.takeWhile isBare
    if name.isEmpty then none else some (String.ofList name, cs.dropWhile isBare)

/-- Keys with dots between them, and the blanks after them. -/
def dottedKey : Nat → Read (List String)
  | 0, _ => none
  | fuel + 1, cs => do
    let (name, rest) ← key cs
    match skipBlanks rest with
    | '.' :: rest => do
      let (names, rest) ← dottedKey fuel (skipBlanks rest)
      return (name :: names, rest)
    | rest => return ([name], rest)

/-- The value of digits of a radix, with single underscores between them. -/
def digits? (radix : Nat) (value : Nat) : (afterDigit : Bool) → List Char → Option Nat
  | afterDigit, [] => if afterDigit then some value else none
  | true, '_' :: rest => digits? radix value false rest
  | _, c :: rest => do
    let d ← hexDigit? c
    if d < radix then digits? radix (radix * value + d) true rest else none

/-- A decimal number without a sign has no zero in front of other digits. -/
def decimal? : List Char → Option Nat
  | '0' :: [] => some 0
  | '0' :: _ => none
  | cs => digits? 10 0 false cs

/-- A whole number that fits 64 bits, from its bare characters. -/
def integer? (cs : List Char) : Option Int :=
  let value := match cs with
    | '0' :: 'x' :: rest => (digits? 16 0 false rest).map Int.ofNat
    | '0' :: 'o' :: rest => (digits? 8 0 false rest).map Int.ofNat
    | '0' :: 'b' :: rest => (digits? 2 0 false rest).map Int.ofNat
    | '-' :: rest => (decimal? rest).map fun n => -Int.ofNat n
    | cs => (decimal? cs).map Int.ofNat
  value.filter fun n => decide (-9223372036854775808 ≤ n ∧ n < 9223372036854775808)

/-- A truth value or a whole number. -/
def bareValue (cs : List Char) : Option (Value × List Char) :=
  let word := cs.takeWhile isBare
  let rest := cs.dropWhile isBare
  if word = "true".toList then some (.boolean true, rest)
  else if word = "false".toList then some (.boolean false, rest)
  else (integer? word).map fun n => (.integer n, rest)

/-- A whole number after a plus sign. -/
def positive (cs : List Char) : Option (Value × List Char) :=
  (integer? (cs.takeWhile isBare)).map fun n => (.integer n, cs.dropWhile isBare)

mutual

/-- A value. Values within others have less fuel. -/
def value : Nat → Read Value
  | 0, _ => none
  | fuel + 1, cs =>
    match cs with
    | '"' :: _ => (quoted cs).map fun (s, rest) => (.string s, rest)
    | '\'' :: _ => (quoted cs).map fun (s, rest) => (.string s, rest)
    | '+' :: rest => positive rest
    | '[' :: rest => (items fuel rest).map fun (vs, rest) => (.array vs, rest)
    | '\x7b' :: rest =>
      match skipBlanks rest with
      | '\x7d' :: rest => some (.table true [], rest)
      | rest => do
        let (entries, rest) ← inlineEntries fuel rest
        return (.table true (← Value.ofEntries? entries), rest)
    | _ => bareValue cs

/-- The items of an array and its closing bracket. -/
def items : Nat → Read (List Value)
  | 0, _ => none
  | fuel + 1, cs =>
    match skipLines cs.length cs with
    | ']' :: rest => some ([], rest)
    | cs => do
      let (v, rest) ← value fuel cs
      match skipLines rest.length rest with
      | ']' :: rest => return ([v], rest)
      | ',' :: rest => do
        let (vs, rest) ← items fuel rest
        return (v :: vs, rest)
      | _ => none

/-- The entries of an inline table and its closing brace. -/
def inlineEntries : Nat → Read (List (List String × Value))
  | 0, _ => none
  | fuel + 1, cs => do
    let (path, rest) ← dottedKey cs.length cs
    match rest with
    | '=' :: rest => do
      let (v, rest) ← value fuel (skipBlanks rest)
      match skipBlanks rest with
      | '\x7d' :: rest => return ([(path, v)], rest)
      | ',' :: rest => do
        let (entries, rest) ← inlineEntries fuel (skipBlanks rest)
        return ((path, v) :: entries, rest)
      | _ => none
    | _ => none

end

/-- A line of a document. -/
inductive Line where
  /-- a header; one in double brackets begins an item of an array of tables -/
  | header (path : List String) (isItem : Bool)
  | entry (path : List String) (v : Value)

/-- A header, in single or in double brackets. -/
def header (cs : List Char) : Option (Line × List Char) :=
  match cs with
  | '[' :: '[' :: rest => do
    let (path, rest) ← dottedKey rest.length (skipBlanks rest)
    match rest with
    | ']' :: ']' :: rest => return (.header path true, rest)
    | _ => none
  | '[' :: rest => do
    let (path, rest) ← dottedKey rest.length (skipBlanks rest)
    match rest with
    | ']' :: rest => return (.header path false, rest)
    | _ => none
  | _ => none

/-- A dotted key with its value. -/
def entry (cs : List Char) : Option (Line × List Char) := do
  let (path, rest) ← dottedKey cs.length cs
  match rest with
  | '=' :: rest => do
    let (v, rest) ← value cs.length (skipBlanks rest)
    return (.entry path v, rest)
  | _ => none

/-- A line that is not empty. -/
def line (cs : List Char) : Option (Line × List Char) := do
  let (l, rest) ← if cs.head? = some '[' then header cs else entry cs
  return (l, ← endLine rest)

/-- The lines of a document that are not empty. -/
def lines : Nat → List Char → Option (List Line)
  | 0, _ => none
  | fuel + 1, cs =>
    match skipLines cs.length cs with
    | [] => some []
    | cs => do
      let (l, rest) ← line cs
      return l :: (← lines fuel rest)

/-- A carriage return before a newline belongs to it. -/
def foldNewlines : List Char → List Char
  | '\r' :: '\n' :: rest => '\n' :: foldNewlines rest
  | c :: rest => c :: foldNewlines rest
  | [] => []

/-- A text without a byte order mark at its front. -/
def dropMark : List Char → List Char
  | '\ufeff' :: rest => rest
  | cs => cs

/-- The lines of a text that are not empty. -/
def linesOf? (text : String) : Option (List Line) :=
  let cs := foldNewlines (dropMark text.toList)
  lines (cs.length + 1) cs

end JourneyPlanner.Toml
