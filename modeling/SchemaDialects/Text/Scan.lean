import SchemaDialects.Text.Word

/-!
# Scanners

A scanner looks at the start of a text. It gives what follows the part it read,
or `none` where the text does not start as it wants. Runs are read whole: no
scanner of this library goes back into a run of blanks, digits, letters or word
characters, since what follows such a run never starts with one of its own.
-/

namespace SchemaDialects.Text

abbrev Scanner := Text → Option Text

/-- Whether `c` stands for the capital `k` when case is ignored. Simple case
folding adds two characters outside ASCII to the two cases of a letter: the
long s and the Kelvin sign. -/
def foldsTo (k c : Char) : Bool :=
  c.toUpper == k || (k == 'S' && c == 'ſ') || (k == 'K' && c == '\u212A')

/-- Reads the capitals `k`, ignoring case. -/
def keyword : Text → Scanner
  | [], s => some s
  | _ :: _, [] => none
  | k :: ks, c :: s => if foldsTo k c then keyword ks s else none

def char (x : Char) : Scanner
  | [] => none
  | c :: s => if c = x then some s else none

/-- Reads one character or more of the class `p`, as many as there are. -/
def many1 (p : Char → Bool) : Scanner
  | [] => none
  | c :: s => if p c then some (s.dropWhile p) else none

def blanks : Text → Text := trimStart

def blanks1 : Scanner := many1 isBlank

/-- What `many1 p` reads, and what follows. -/
def run (p : Char → Bool) (s : Text) : Option (Text × Text) :=
  if s.takeWhile p = [] then none else some (s.takeWhile p, s.dropWhile p)

/-- The part of `s` before its end `rest`. -/
def before (s rest : Text) : Text := s.take (s.length - rest.length)

/-- What a scanner reads, and what follows. -/
def read (f : Scanner) (s : Text) : Option (Text × Text) :=
  (f s).map fun rest => (before s rest, rest)

/-- Reads nothing where `f` fails. -/
def optional (f : Scanner) (s : Text) : Text := (f s).getD s

/-- Whether a word can start after the character `prev`. -/
def wordStarts (prev : Option Char) : Bool := !prev.any isWord

/-- Whether a word can end before `s`. -/
def wordEnds (s : Text) : Bool := !s.head?.any isWord

/-- Reads the capitals `k` where no word goes on after them. -/
def keywordEnd (k : Text) : Scanner := fun s => do
  let rest ← keyword k s
  if wordEnds rest then some rest else none

/-- Reads a keyword and the blanks that have to follow it. -/
def keywordBlanks (k : Text) : Scanner := fun s => keyword k s >>= blanks1

/-- Reads the keywords, each with blanks after it. -/
def keywords : List Text → Scanner
  | [], s => some s
  | k :: ks, s => keywordBlanks k s >>= keywords ks

/-- Reads `q`, one character or more that are not `q`, and `q`. -/
def quotedBy (q : Char) : Scanner := fun s => do
  let s ← char q s
  let s ← many1 (· != q) s
  char q s

def word : Scanner := many1 isWord

/-- Reads a size such as `(10)` or `( 10 , 2 )`. -/
def size : Scanner := fun s => do
  let s ← char '(' s
  let s ← many1 isDigit (blanks s)
  let s := optional (fun s => do
    let s ← char ',' s
    let s ← many1 isDigit (blanks s)
    some (blanks s)) (blanks s)
  char ')' s

/-- Reads parentheses with digits in them, or with nothing. -/
def precision : Scanner := fun s => do
  let s ← char '(' s
  char ')' (s.dropWhile isDigit)

/-! ## What a scanner leaves

Every scanner leaves an end of the text that it was given.
-/

/-- Whether what `f` leaves is always an end of the text. -/
def Scanner.LeavesSuffix (f : Scanner) : Prop :=
  ∀ ⦃s rest : Text⦄, f s = some rest → rest <:+ s

theorem blanks_suffix (s : Text) : blanks s <:+ s := List.dropWhile_suffix isBlank

theorem char_suffix (x : Char) : Scanner.LeavesSuffix (char x) := by
  intro s rest h
  cases s with
  | nil => simp [char] at h
  | cons c s =>
    simp only [char] at h
    split at h
    · obtain rfl := Option.some.inj h
      exact List.suffix_cons c s
    · simp at h

theorem many1_suffix (p : Char → Bool) : Scanner.LeavesSuffix (many1 p) := by
  intro s rest h
  cases s with
  | nil => simp [many1] at h
  | cons c s =>
    simp only [many1] at h
    split at h
    · obtain rfl := Option.some.inj h
      exact (List.dropWhile_suffix p).trans (List.suffix_cons c s)
    · simp at h

theorem keyword_suffix (k : Text) : Scanner.LeavesSuffix (keyword k) := by
  intro s rest h
  induction k generalizing s with
  | nil => obtain rfl := Option.some.inj h; exact List.suffix_refl _
  | cons x k ih =>
    cases s with
    | nil => simp [keyword] at h
    | cons c s =>
      simp only [keyword] at h
      split at h
      · exact (ih h).trans (List.suffix_cons c s)
      · simp at h

theorem Scanner.LeavesSuffix.bind {f g : Scanner} (hf : Scanner.LeavesSuffix f)
    (hg : Scanner.LeavesSuffix g) : Scanner.LeavesSuffix fun s => f s >>= g := by
  intro s rest h
  obtain ⟨t, ht, hr⟩ := Option.bind_eq_some_iff.1 h
  exact (hg hr).trans (hf ht)

theorem Scanner.LeavesSuffix.or {f g : Scanner} (hf : Scanner.LeavesSuffix f)
    (hg : Scanner.LeavesSuffix g) : Scanner.LeavesSuffix fun s => (f s).or (g s) := by
  intro s rest h
  rcases Option.or_eq_some_iff.1 h with h | ⟨_, h⟩
  · exact hf h
  · exact hg h

theorem optional_suffix {f : Scanner} (hf : Scanner.LeavesSuffix f) (s : Text) :
    optional f s <:+ s := by
  unfold optional
  cases h : f s with
  | none => exact List.suffix_refl s
  | some rest => exact hf h

theorem before_append {s rest : Text} (h : rest <:+ s) : before s rest ++ rest = s := by
  obtain ⟨a, rfl⟩ := h
  simp [before]

theorem append_of_read {f : Scanner} (hf : Scanner.LeavesSuffix f) {s a rest : Text}
    (h : read f s = some (a, rest)) : a ++ rest = s := by
  obtain ⟨r, hr, he⟩ := Option.map_eq_some_iff.1 h
  obtain ⟨rfl, rfl⟩ := Prod.mk.inj he
  exact before_append (hf hr)

theorem run_eq_some_iff {p : Char → Bool} {s a rest : Text} :
    run p s = some (a, rest) ↔ a = s.takeWhile p ∧ rest = s.dropWhile p ∧ a ≠ [] := by
  unfold run
  by_cases h : s.takeWhile p = []
  · rw [if_pos h]
    exact iff_of_false (by simp) fun ⟨ha, _, hne⟩ => hne (ha.trans h)
  · rw [if_neg h, Option.some_inj, Prod.mk.injEq]
    constructor
    · rintro ⟨rfl, rfl⟩
      exact ⟨rfl, rfl, h⟩
    · rintro ⟨rfl, rfl, -⟩
      exact ⟨rfl, rfl⟩

theorem append_of_run {p : Char → Bool} {s a rest : Text} (h : run p s = some (a, rest)) :
    a ++ rest = s := by
  obtain ⟨rfl, rfl, -⟩ := run_eq_some_iff.1 h
  exact List.takeWhile_append_dropWhile

/-! ## Keywords -/

/-- A keyword in any case is read as a whole. -/
theorem keyword_append {k w : Text} (h : upper w = k) (rest : Text) :
    keyword k (w ++ rest) = some rest := by
  subst h
  induction w with
  | nil => rfl
  | cons c w ih => simpa [upper, keyword, foldsTo] using ih

end SchemaDialects.Text
