/-!
# Text

A text is a list of characters. This module holds what every other module does
with texts: cutting them at a character, joining, the readings that ignore ASCII
case, blanks and lines, and quoting. In a quoted text the quote character is
written twice. Main statement: reading gives back what was quoted, up to a rest
that does not go on with the quote character.
-/

namespace SchemaDialects

abbrev Text := List Char

namespace Text

/-- The texts between the occurrences of `sep`; one more than there are
occurrences. -/
def splitOn (sep : Char) : Text → List Text
  | [] => [[]]
  | c :: s =>
    if c = sep then [] :: splitOn sep s
    else match splitOn sep s with
      | [] => [[c]]
      | p :: ps => (c :: p) :: ps

def join (sep : Text) : List Text → Text
  | [] => []
  | [s] => s
  | s :: t :: rest => s ++ sep ++ join sep (t :: rest)

/-- Writes every `q` twice. -/
def double (q : Char) : Text → Text
  | [] => []
  | c :: s => if c = q then q :: q :: double q s else c :: double q s

def dropEndWhile (p : Char → Bool) (s : Text) : Text :=
  (s.reverse.dropWhile p).reverse

def endsWith (s : Text) (c : Char) : Bool :=
  s.getLast? == some c

/-- ASCII upper case; characters outside ASCII stay. -/
def upper (s : Text) : Text := s.map Char.toUpper

/-- Equality up to the case of ASCII letters. -/
def sameUpToCase (s t : Text) : Bool := upper s == upper t

def ofNat (n : Nat) : Text := Nat.toDigits 10 n

@[simp] theorem splitOn_nil (sep : Char) : splitOn sep [] = [[]] := rfl

theorem splitOn_ne_nil (sep : Char) (s : Text) : splitOn sep s ≠ [] := by
  cases s with
  | nil => simp
  | cons c s =>
    simp only [splitOn]; split
    · simp
    · split <;> simp

theorem forall_mem_join {p : Char → Prop} {sep : Text} (hsep : ∀ c ∈ sep, p c) {ts : List Text}
    (h : ∀ t ∈ ts, ∀ c ∈ t, p c) : ∀ c ∈ join sep ts, p c := by
  fun_induction join sep ts with
  | case1 => exact fun c hc => nomatch hc
  | case2 s => exact h s (List.mem_singleton_self s)
  | case3 s t rest ih =>
    obtain ⟨hs, h⟩ := List.forall_mem_cons.1 h
    exact List.forall_mem_append.2 ⟨List.forall_mem_append.2 ⟨hs, hsep⟩, ih h⟩

@[simp] theorem double_nil (q : Char) : double q [] = [] := rfl

@[simp] theorem upper_append (s t : Text) : upper (s ++ t) = upper s ++ upper t := by
  simp [upper]

/-! ## Sets of characters -/

/-- A set of characters: inclusive ranges of code points. -/
abbrev Ranges := List (Nat × Nat)

def Ranges.contains (rs : Ranges) (c : Char) : Bool :=
  rs.any fun r => r.1 ≤ c.toNat && c.toNat ≤ r.2

theorem Ranges.contains_iff {rs : Ranges} {c : Char} :
    rs.contains c = true ↔ ∃ r ∈ rs, r.1 ≤ c.toNat ∧ c.toNat ≤ r.2 := by
  simp [Ranges.contains]

/-! ## Blanks, trimming and lines -/

/-- Characters outside ASCII with the property White_Space of Unicode. -/
def blankRanges : Ranges :=
  [(0x85, 0x85), (0xA0, 0xA0), (0x1680, 0x1680), (0x2000, 0x200A), (0x2028, 0x2029),
   (0x202F, 0x202F), (0x205F, 0x205F), (0x3000, 0x3000)]

def isBlank (c : Char) : Bool :=
  c == ' ' || (0x9 ≤ c.toNat && c.toNat ≤ 0xD) || blankRanges.contains c

def trimStart (s : Text) : Text := s.dropWhile isBlank

def trimEnd (s : Text) : Text := dropEndWhile isBlank s

def trim (s : Text) : Text := trimEnd (trimStart s)

/-- A line without the carriage return that belongs to its ending. -/
def dropReturn (line : Text) : Text :=
  if line.getLast? = some '\r' then line.dropLast else line

/-- The lines of a text. Each line feed ends one, and what follows the last
line feed is a line unless it is empty. -/
def lines (s : Text) : List Text :=
  let pieces := splitOn '\n' s
  let last := pieces.getLastD []
  pieces.dropLast.map dropReturn ++ (if last = [] then [] else [last])

/-- The first line of a text between its outer blanks, cut to sixty
characters. -/
def preview (s : Text) : Text :=
  ((lines (trim s)).headD []).take 60

/-! ## Quoted text -/

def quoted (q : Char) (s : Text) : Text := q :: double q s ++ [q]

/-- Reads to the quote character that closes, and gives the text and what
follows. -/
def unquoteBody (q : Char) : Text → Option (Text × Text)
  | [] => none
  | c :: s =>
    if c = q then
      match s with
      | [] => some ([], [])
      | d :: r => if d = q then (unquoteBody q r).map fun x => (q :: x.1, x.2) else some ([], s)
    else (unquoteBody q s).map fun x => (c :: x.1, x.2)

def readQuoted (q : Char) : Text → Option (Text × Text)
  | [] => none
  | c :: s => if c = q then unquoteBody q s else none

theorem unquoteBody_double (q : Char) (s : Text) {rest : Text} (h : rest.head? ≠ some q) :
    unquoteBody q (double q s ++ q :: rest) = some (s, rest) := by
  induction s with
  | nil => cases rest <;> simp_all [unquoteBody]
  | cons c s ih =>
    by_cases hc : c = q
    · simp [double, unquoteBody, hc, ih]
    · rw [double, if_neg hc, List.cons_append, unquoteBody.eq_def]
      simp [hc, ih]

theorem readQuoted_quoted (q : Char) (s : Text) {rest : Text} (h : rest.head? ≠ some q) :
    readQuoted q (quoted q s ++ rest) = some (s, rest) := by
  simp [readQuoted, quoted, unquoteBody_double q s h]

end Text

end SchemaDialects
