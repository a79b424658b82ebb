import SchemaDialects.Text.Scan

/-!
# JSON

JSON values and a strict reader. It takes one value with blanks around it and
nothing else: no comments, no trailing commas, no leading zeros, no bare
control characters in strings.
-/

namespace SchemaDialects

/-- A JSON value. Integer literals are apart from all other numbers, whose values
nothing here asks for. Fields stand in their order, and one name can come
again. -/
inductive Json where
  | null
  | bool (b : Bool)
  | int (n : Int)
  | number
  /-- A string. It is no text if it holds half a surrogate pair. -/
  | str (s : Option Text)
  | arr (items : List Json)
  | obj (fields : List (Option Text × Json))

namespace Json

open Text

/-! ## Strings -/

/-- A part of a string literal: a character, or a UTF-16 unit given by its code. -/
inductive Part where
  | char (c : Char)
  | unit (u : Nat)

def hexDigit? (c : Char) : Option Nat :=
  if c.isDigit then some (c.toNat - 48)
  else if 'a' ≤ c ∧ c ≤ 'f' then some (c.toNat - 87)
  else if 'A' ≤ c ∧ c ≤ 'F' then some (c.toNat - 55)
  else none

/-- The number that hexadecimal digits stand for. -/
def ofHex? (s : Text) : Option Nat :=
  s.foldlM (fun n c => (hexDigit? c).map (n * 16 + ·)) 0

/-- The character that a letter stands for after a backslash. -/
def escape? (c : Char) : Option Char :=
  if c = '"' ∨ c = '\\' ∨ c = '/' then some c
  else if c = 'b' then some '\x08'
  else if c = 'f' then some '\x0c'
  else if c = 'n' then some '\n'
  else if c = 'r' then some '\r'
  else if c = 't' then some '\t'
  else none

/-- Reads a string after its opening quote. -/
def stringParts : Text → Option (List Part × Text)
  | [] => none
  | '"' :: s => some ([], s)
  | '\\' :: 'u' :: a :: b :: c :: d :: s => do
    let u ← ofHex? [a, b, c, d]
    let (parts, s) ← stringParts s
    some (.unit u :: parts, s)
  | '\\' :: c :: s => do
    let c ← escape? c
    let (parts, s) ← stringParts s
    some (.char c :: parts, s)
  | c :: s =>
    if c.toNat < 0x20 then none
    else (stringParts s).map fun (parts, s) => (.char c :: parts, s)

def isHighSurrogate (u : Nat) : Bool := 0xD800 ≤ u && u < 0xDC00

def isLowSurrogate (u : Nat) : Bool := 0xDC00 ≤ u && u < 0xE000

/-- The text of a string. Two surrogates, a high one and a low one, make a
character. -/
def textOfParts : List Part → Option Text
  | [] => some []
  | .char c :: parts => (textOfParts parts).map (c :: ·)
  | .unit u :: parts =>
    if isHighSurrogate u then
      match parts with
      | .unit v :: parts =>
        if isLowSurrogate v then
          (textOfParts parts).map (Char.ofNat (0x10000 + (u - 0xD800) * 0x400 + (v - 0xDC00)) :: ·)
        else none
      | _ => none
    else if isLowSurrogate u then none
    else (textOfParts parts).map (Char.ofNat u :: ·)

def string (s : Text) : Option (Option Text × Text) :=
  (stringParts s).map fun (parts, s) => (textOfParts parts, s)

/-! ## Numbers -/

def natOfDigits (s : Text) : Nat := s.foldl (fun n c => n * 10 + (c.toNat - 48)) 0

/-- Reads what `f` reads where the text starts with a character of `starts`, and
nothing elsewhere. It fails where `f` fails. -/
def startingWith (starts : Text) (f : Scanner) (s : Text) : Option Text :=
  if s.head?.any starts.contains then f s else some s

def fraction : Scanner := fun s => many1 Char.isDigit (s.drop 1)

def exponent : Scanner := fun s =>
  let s := s.drop 1
  many1 Char.isDigit (if s.head?.any "+-".toList.contains then s.drop 1 else s)

/-- Reads a number. A minus before zero makes it no integer. -/
def numberLiteral (s : Text) : Option (Json × Text) := do
  let negative := s.head? == some '-'
  let (digits, s) ← run Char.isDigit (if negative then s.drop 1 else s)
  if digits.head? = some '0' ∧ 1 < digits.length then none
  let rest ← startingWith ".".toList fraction s
  let rest ← startingWith "eE".toList exponent rest
  let n := natOfDigits digits
  if rest.length < s.length ∨ (negative = true ∧ n = 0) then some (.number, rest)
  else some (.int (if negative then -n else n), rest)

/-! ## Values -/

def isSpace (c : Char) : Bool := c == ' ' || c == '\n' || c == '\t' || c == '\r'

def spaces (s : Text) : Text := s.dropWhile isSpace

/-- Reads a word or a number. -/
def literal (s : Text) : Option (Json × Text) :=
  if "null".toList.isPrefixOf s then some (.null, s.drop 4)
  else if "true".toList.isPrefixOf s then some (.bool true, s.drop 4)
  else if "false".toList.isPrefixOf s then some (.bool false, s.drop 5)
  else numberLiteral s

mutual

/-- Reads a value after blanks, in at most `n` nested or successive steps. -/
def value : (n : Nat) → Text → Option (Json × Text)
  | 0, _ => none
  | n + 1, s =>
    match spaces s with
    | '"' :: s => (string s).map fun (t, s) => (.str t, s)
    | '[' :: s =>
      match spaces s with
      | ']' :: s => some (.arr [], s)
      | s => (items n s).map fun (vs, s) => (.arr vs, s)
    | '\x7b' :: s =>
      match spaces s with
      | '\x7d' :: s => some (.obj [], s)
      | s => (members n s).map fun (fs, s) => (.obj fs, s)
    | s => literal s

/-- Reads the items of an array up to its end. -/
def items : (n : Nat) → Text → Option (List Json × Text)
  | 0, _ => none
  | n + 1, s => do
    let (v, s) ← value n s
    match spaces s with
    | ']' :: s => some ([v], s)
    | ',' :: s => (items n s).map fun (vs, s) => (v :: vs, s)
    | _ => none

/-- Reads the fields of an object up to its end. -/
def members : (n : Nat) → Text → Option (List (Option Text × Json) × Text)
  | 0, _ => none
  | n + 1, s =>
    match spaces s with
    | '"' :: s => do
      let (name, s) ← string s
      let s ← char ':' (spaces s)
      let (v, s) ← value n s
      match spaces s with
      | '\x7d' :: s => some ([(name, v)], s)
      | ',' :: s => (members n s).map fun (fs, s) => ((name, v) :: fs, s)
      | _ => none
    | _ => none

end

/-- Reads a whole text. Every step takes a character or goes one level down, so
there are at most two for each character. -/
def parse? (s : Text) : Option Json := do
  let (v, rest) ← value (2 * s.length + 2) s
  if spaces rest = [] then some v else none

end Json

end SchemaDialects
