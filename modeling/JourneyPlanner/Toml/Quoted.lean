/-!
Quoted strings of TOML. A basic string, between double quotes, has escapes; a literal string,
between single quotes, has none. Three quotes begin a string of several lines, in which a newline
right after them does not count and a backslash at the end of a line joins it to the next text.
-/

namespace JourneyPlanner.Toml

/-- What is read from the front of a text, with the rest. -/
abbrev Read (α : Type) := List Char → Option (α × List Char)

/-- A tab, or a character that is no control character. -/
def isPlain (c : Char) : Bool := c == '\t' || (0x20 ≤ c.toNat && c.toNat != 0x7F)

/-- The character of an escape of one letter. -/
def escape? : Char → Option Char
  | 'b' => some '\x08'
  | 't' => some '\t'
  | 'n' => some '\n'
  | 'f' => some '\x0c'
  | 'r' => some '\r'
  | '"' => some '"'
  | '\\' => some '\\'
  | _ => none

def hexDigit? (c : Char) : Option Nat :=
  if '0' ≤ c ∧ c ≤ '9' then some (c.toNat - '0'.toNat)
  else if 'a' ≤ c ∧ c ≤ 'f' then some (c.toNat - 'a'.toNat + 10)
  else if 'A' ≤ c ∧ c ≤ 'F' then some (c.toNat - 'A'.toNat + 10)
  else none

/-- The character of a code point in hexadecimal digits. -/
def codePoint? (digits : List Char) : Option Char := do
  let n ← digits.foldlM (fun n c => (hexDigit? c).map fun d => 16 * n + d) 0
  if h : n.isValidChar then some (Char.ofNatAux n h) else none

/-- Puts a character before what is read. -/
def cons? (c : Char) (r : Option (List Char × List Char)) : Option (List Char × List Char) :=
  r.map fun (cs, rest) => (c :: cs, rest)

/-- The rest of a basic string of one line, after its first quote. -/
def basicLine : Read (List Char)
  | [] => none
  | '"' :: rest => some ([], rest)
  | '\\' :: 'u' :: a :: b :: c :: d :: rest => do cons? (← codePoint? [a, b, c, d]) (basicLine rest)
  | '\\' :: 'U' :: a :: b :: c :: d :: e :: f :: g :: h :: rest => do
    cons? (← codePoint? [a, b, c, d, e, f, g, h]) (basicLine rest)
  | '\\' :: c :: rest => do cons? (← escape? c) (basicLine rest)
  | c :: rest => if isPlain c then cons? c (basicLine rest) else none

/-- The rest of a literal string of one line, after its first quote. -/
def literalLine : Read (List Char)
  | [] => none
  | '\'' :: rest => some ([], rest)
  | c :: rest => if isPlain c then cons? c (literalLine rest) else none

/-- Where a reader is in a basic string of several lines. -/
inductive LineMode where
  | text
  /-- after a backslash, before the end of its line -/
  | lineEnd
  /-- after that end, before the next text -/
  | blank
deriving DecidableEq, Repr

/-- The rest of a basic string of several lines. Two more quotes may stand before the last three. -/
def basicLines : LineMode → Read (List Char)
  | _, [] => none
  | .lineEnd, c :: rest =>
    if c = '\n' then basicLines .blank rest
    else if c = ' ' ∨ c = '\t' then basicLines .lineEnd rest
    else none
  | _, '"' :: '"' :: '"' :: '"' :: '"' :: rest => some (['"', '"'], rest)
  | _, '"' :: '"' :: '"' :: '"' :: rest => some (['"'], rest)
  | _, '"' :: '"' :: '"' :: rest => some ([], rest)
  | _, '\\' :: 'u' :: a :: b :: c :: d :: rest => do
    cons? (← codePoint? [a, b, c, d]) (basicLines .text rest)
  | _, '\\' :: 'U' :: a :: b :: c :: d :: e :: f :: g :: h :: rest => do
    cons? (← codePoint? [a, b, c, d, e, f, g, h]) (basicLines .text rest)
  | _, '\\' :: '\n' :: rest => basicLines .blank rest
  | _, '\\' :: ' ' :: rest => basicLines .lineEnd rest
  | _, '\\' :: '\t' :: rest => basicLines .lineEnd rest
  | _, '\\' :: c :: rest => do cons? (← escape? c) (basicLines .text rest)
  | mode, c :: rest =>
    if mode = .blank ∧ (c = ' ' ∨ c = '\t' ∨ c = '\n') then basicLines .blank rest
    else if isPlain c ∨ c = '\n' then cons? c (basicLines .text rest)
    else none

/-- The rest of a literal string of several lines. Two more quotes may stand before the last
three. -/
def literalLines : Read (List Char)
  | [] => none
  | '\'' :: '\'' :: '\'' :: '\'' :: '\'' :: rest => some (['\'', '\''], rest)
  | '\'' :: '\'' :: '\'' :: '\'' :: rest => some (['\''], rest)
  | '\'' :: '\'' :: '\'' :: rest => some ([], rest)
  | c :: rest => if isPlain c ∨ c = '\n' then cons? c (literalLines rest) else none

/-- A text without a newline at its front. -/
def dropNewline : List Char → List Char
  | '\n' :: rest => rest
  | cs => cs

/-- A quoted string of one line. -/
def quotedLine : Read String
  | '"' :: rest => (basicLine rest).map fun (cs, rest) => (String.ofList cs, rest)
  | '\'' :: rest => (literalLine rest).map fun (cs, rest) => (String.ofList cs, rest)
  | _ => none

/-- A quoted string of one line or of several. -/
def quoted : Read String
  | '"' :: '"' :: '"' :: rest =>
    (basicLines .text (dropNewline rest)).map fun (cs, rest) => (String.ofList cs, rest)
  | '\'' :: '\'' :: '\'' :: rest =>
    (literalLines (dropNewline rest)).map fun (cs, rest) => (String.ofList cs, rest)
  | cs => quotedLine cs

end JourneyPlanner.Toml
