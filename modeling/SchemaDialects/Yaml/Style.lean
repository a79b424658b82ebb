import SchemaDialects.Yaml

/-!
# Styles of YAML scalars

A scalar is plain, or stands in single or double quotes. One of any style can
go on over several lines. The gap between two lines then stands for a space if
it holds one line feed and no other break, and otherwise for its breaks without
the line feed that is the first of them.
-/

namespace SchemaDialects.Yaml

/-! ## Gaps inside a scalar -/

/-- White space and line breaks that were read. They count only if more of the
scalar follows. -/
inductive Gap where
  | white (s : Text)
  /-- The first line break, those after it, and the column that the last line
  has reached. There is no first one where a backslash hides it. -/
  | breaks (first : Option Char) (more : Text) (column : Nat)

namespace Gap

def empty : Gap := .white []

def push (c : Char) : Gap → Gap
  | .white s => if isBreak c then .breaks (some c) [] 0 else .white (s ++ [c])
  | .breaks first more column =>
    if isBreak c then .breaks first (more ++ [c]) 0 else .breaks first more (column + 1)

/-- What the gap stands for. White space beside a line break does not count. -/
def text : Gap → Text
  | .white s => s
  | .breaks (some '\n') [] _ => [' ']
  | .breaks (some '\n') more _ => more
  | .breaks first more _ => first.toList ++ more

def isEmpty : Gap → Bool
  | .white s => s.isEmpty
  | .breaks .. => false

/-- Whether the gap ends on a new line before column `n`. -/
def endsBefore (n : Nat) : Gap → Bool
  | .white _ => false
  | .breaks _ _ column => column < n

/-- Where the next part starts if the scalar ends before the gap. -/
def place : Gap → Place
  | .white _ => .sameLine
  | .breaks _ _ column => .ownLine column

end Gap

/-! ## Plain -/

/-- Whether a plain scalar can start with `c` and go on with `s`. -/
def startsPlain (c : Char) (s : Text) : Bool :=
  if c = '-' ∨ c = '?' ∨ c = ':' then !atGap s
  else !(isGap c || ",[]\x7b\x7d#&*!|>'\"%@`".toList.contains c)

/-- Reads a plain scalar whose lines after the first start in column `indent` or
later. It ends before a colon that ends a key, before a comment and before a
line that starts earlier. -/
def plainFrom (indent : Nat) (gap : Gap) : Text → Option (Text × Place × Text)
  | [] => some ([], gap.place, [])
  | c :: s =>
    if isGap c then
      if c = '\t' ∧ gap.endsBefore indent then none else plainFrom indent (gap.push c) s
    else if gap.endsBefore indent || (c == '#' && !gap.isEmpty) || (c == ':' && atGap s) then
      some ([], gap.place, c :: s)
    else (plainFrom indent .empty s).map fun (t, r) => (gap.text ++ c :: t, r)

def plain (indent : Nat) : Text → Option (Scalar × Place × Text)
  | [] => none
  | c :: s =>
    if startsPlain c s then
      (plainFrom indent .empty (c :: s)).map fun (t, r) => (⟨t, true⟩, r)
    else none

/-! ## In quotes -/

/-- Whether a document marker stands at `s`, after the gap. Quotes hide none. -/
def meetsMarker (gap : Gap) (s : Text) : Bool := gap.endsBefore 1 && startsAnyMarker s

/-- Reads a text in single quotes after the opening one. A quote inside it is
written twice. -/
def singleQuoted (gap : Gap) : Text → Option (Text × Text)
  | [] => none
  | '\'' :: '\'' :: s => (singleQuoted .empty s).map fun (t, r) => (gap.text ++ '\'' :: t, r)
  | '\'' :: s => some (gap.text, s)
  | c :: s =>
    if isGap c then singleQuoted (gap.push c) s
    else if meetsMarker gap (c :: s) then none
    else (singleQuoted .empty s).map fun (t, r) => (gap.text ++ c :: t, r)

/-- The character that a letter stands for after a backslash. -/
def escape? (c : Char) : Option Char :=
  [('0', '\x00'), ('a', '\x07'), ('b', '\x08'), ('t', '\t'), ('\t', '\t'), ('n', '\n'),
   ('v', '\x0b'), ('f', '\x0c'), ('r', '\r'), ('e', '\x1b'), (' ', ' '), ('"', '"'),
   ('/', '/'), ('\\', '\\'), ('N', '\u0085'), ('_', '\u00a0'), ('L', '\u2028'),
   ('P', '\u2029')].lookup c

/-- The character whose code point is written in hexadecimal. -/
def ofCode? (digits : Text) : Option Char := do
  let n ← Json.ofHex? digits
  if (Char.ofNat n).toNat = n then some (Char.ofNat n) else none

/-- Reads a text in double quotes after the opening one. A backslash joins two
lines. -/
def doubleQuoted (gap : Gap) : Text → Option (Text × Text)
  | [] => none
  | '"' :: s => some (gap.text, s)
  | '\\' :: 'x' :: a :: b :: s => put (ofCode? [a, b]) (doubleQuoted .empty s)
  | '\\' :: 'u' :: a :: b :: c :: d :: s =>
    put (ofCode? [a, b, c, d]) (doubleQuoted .empty s)
  | '\\' :: 'U' :: a :: b :: c :: d :: e :: f :: g :: h :: s =>
    put (ofCode? [a, b, c, d, e, f, g, h]) (doubleQuoted .empty s)
  | '\\' :: c :: s =>
    if isBreak c then
      (doubleQuoted (.breaks none [] 0) s).map fun (t, r) => (gap.text ++ t, r)
    else put (escape? c) (doubleQuoted .empty s)
  | c :: s =>
    if isGap c then doubleQuoted (gap.push c) s
    else if meetsMarker gap (c :: s) then none
    else put c (doubleQuoted .empty s)
where
  put (c? : Option Char) (rest? : Option (Text × Text)) : Option (Text × Text) := do
    let c ← c?
    let (t, r) ← rest?
    some (gap.text ++ c :: t, r)

/-- Reads a scalar of any style, and says where the next part starts. -/
def scalar (indent : Nat) : Text → Option (Scalar × Place × Text)
  | '\'' :: s => (singleQuoted .empty s).map fun (t, r) => (⟨t, false⟩, .sameLine, r)
  | '"' :: s => (doubleQuoted .empty s).map fun (t, r) => (⟨t, false⟩, .sameLine, r)
  | s => plain indent s

end SchemaDialects.Yaml
