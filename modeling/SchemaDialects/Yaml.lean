import SchemaDialects.Json

/-!
# Lines and scalars of YAML

The characters that a document can hold, its line breaks, and what stands
between its parts: white space, comments and the breaks themselves. What counts
is where a part starts: on the line of the part before it, or first on a line of
its own, where its column is its indentation. A plain scalar can stand for a
number or a truth value.
-/

namespace SchemaDialects.Yaml

/-! ## Lines -/

/-- Characters that a document can hold. -/
def isAllowed (c : Char) : Bool :=
  let n := c.toNat
  n == 0x9 || n == 0xA || n == 0xD || (0x20 ≤ n && n ≤ 0x7E) || n == 0x85
    || (0xA0 ≤ n && n ≤ 0xFFFD) || 0x10000 ≤ n

/-- The document with one line feed for each carriage return, with or without a
line feed after it, and for each next line character. -/
def normalize : Text → Text
  | [] => []
  | '\r' :: '\n' :: s => '\n' :: normalize s
  | c :: s => (if c = '\r' ∨ c = '\u0085' then '\n' else c) :: normalize s

theorem not_mem_normalize {c : Char} (hc : c = '\r' ∨ c = '\u0085') (s : Text) :
    c ∉ normalize s := by
  fun_induction normalize s with
  | case1 => simp
  | case2 s ih => rcases hc with rfl | rfl <;> simpa using ih
  | case3 d s _ ih =>
    refine fun h => (List.mem_cons.1 h).elim ?_ ih
    split
    · rcases hc with rfl | rfl <;> simp
    · rintro rfl; contradiction

/-- Line breaks of a normalized document. -/
def isBreak (c : Char) : Bool := c == '\n' || c == '\u2028' || c == '\u2029'

def isWhite (c : Char) : Bool := c == ' ' || c == '\t'

def isGap (c : Char) : Bool := isWhite c || isBreak c

/-- Whether white space, a line break or the end of the document comes next. -/
def atGap (s : Text) : Bool := s.head?.all isGap

/-! ## Document markers -/

/-- Whether `s`, at the start of a line, starts with three times `c` standing
alone. Hyphens start a document and dots end it. -/
def startsMarker (c : Char) (s : Text) : Bool :=
  [c, c, c].isPrefixOf s && atGap (s.drop 3)

def startsAnyMarker (s : Text) : Bool := startsMarker '-' s || startsMarker '.' s

/-! ## Between the parts -/

/-- Where the next part starts. -/
inductive Place where
  /-- On the line of the part before it. -/
  | sameLine
  | inComment
  /-- First on a line, in that column. -/
  | ownLine (column : Nat)
  deriving DecidableEq

def Place.startsLine : Place → Bool
  | ownLine _ => true
  | _ => false

/-- Whether the part starts a line in that column or before it. -/
def Place.startsLineBy (column : Nat) : Place → Bool
  | ownLine n => n ≤ column
  | _ => false

/-- Whether `c` belongs to the indentation of a line when it stands in that
column: a space does in all of them, and a byte order mark in the first. -/
def indents (column : Nat) (c : Char) : Bool :=
  c == ' ' || (column == 0 && c == '\ufeff')

/-- Passes white space, comments and line breaks. Indentation holds no tabs: a
tab is passed only where a part of the same line stands before it. -/
def skip : Place → Text → Place × Text
  | p, [] => (p, [])
  | p, c :: s =>
    if isBreak c then skip (.ownLine 0) s
    else match p with
      | .inComment => skip .inComment s
      | .sameLine =>
        if isWhite c then skip .sameLine s
        else if c = '#' then skip .inComment s
        else (.sameLine, c :: s)
      | .ownLine n =>
        if indents n c then skip (.ownLine (n + 1)) s
        else if c = '#' then skip .inComment s
        else (.ownLine n, c :: s)

/-! ## Scalars -/

/-- A scalar. Only a plain one can stand for a number or a truth value. -/
structure Scalar where
  text : Text
  isPlain : Bool
  deriving DecidableEq

/-- What stands where a value is missing. -/
def Scalar.empty : Scalar := ⟨[], true⟩

def isBase (base : Nat) (s : Text) : Bool :=
  !s.isEmpty && s.all fun c => (Json.hexDigit? c).any (· < base)

def ofDigits (base : Nat) (s : Text) : Nat :=
  s.foldl (fun n c => n * base + (Json.hexDigit? c).getD 0) 0

/-- An integer without a sign: decimal without leading zeros, or hexadecimal,
octal or binary after `0x`, `0o` or `0b`. -/
def magnitude? (s : Text) : Option Nat :=
  match s with
  | '0' :: 'x' :: t => if isBase 16 t then some (ofDigits 16 t) else none
  | '0' :: 'o' :: t => if isBase 8 t then some (ofDigits 8 t) else none
  | '0' :: 'b' :: t => if isBase 2 t then some (ofDigits 2 t) else none
  | '0' :: _ :: _ => none
  | _ => if isBase 10 s then some (ofDigits 10 s) else none

/-- A plain scalar that is a natural number of 32 bits. A plus sign may stand
before it; with a minus sign even zero is none. -/
def nat32? (v : Scalar) : Option Nat := do
  if !v.isPlain then none
  let n ← match v.text with
    | '+' :: s => magnitude? s
    | s => magnitude? s
  if n < UInt32.size then some n else none

def bool? (v : Scalar) : Option Bool :=
  if !v.isPlain then none
  else if ["true".toList, "True".toList, "TRUE".toList].contains v.text then some true
  else if ["false".toList, "False".toList, "FALSE".toList].contains v.text then some false
  else none

end SchemaDialects.Yaml
