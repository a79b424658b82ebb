import SchemaDialects.Text.Scan

/-!
# Searching

The first place of a text where something can be read, and changes made there.
A reader is given the character before the place, so that it can ask for the
start of a word, and the text from the place on.
-/

namespace SchemaDialects.Text

/-- Reads at a place: `prev` is the character before it. -/
abbrev Reader (α : Type) := (prev : Option Char) → Text → Option α

/-- The text before the first place where `f` reads something, and what it
read. -/
def find {α : Type} (f : Reader α) (prev : Option Char) : Text → Option (Text × α)
  | [] => none
  | c :: s =>
    match f prev (c :: s) with
    | some a => some ([], a)
    | none => (find f (some c) s).map fun r => (c :: r.1, r.2)

def occurs {α : Type} (f : Reader α) (s : Text) : Bool := (find f none s).isSome

/-- Puts `new` in the place of what `f` reads first. -/
def replaceFirst (f : Reader Text) (new s : Text) : Text :=
  match find f none s with
  | some (before, rest) => before ++ new ++ rest
  | none => s

/-- Removes what `f` reads, again and again from left to right. The first
`pending` characters of the text belong to something read before. -/
def eraseFrom (f : Reader Text) (prev : Option Char) (pending : Nat) : Text → Text
  | [] => []
  | c :: s =>
    match pending with
    | n + 1 => eraseFrom f (some c) n s
    | 0 =>
      match f prev (c :: s) with
      | some rest => eraseFrom f (some c) (s.length - rest.length) s
      | none => c :: eraseFrom f (some c) 0 s

def eraseAll (f : Reader Text) (s : Text) : Text := eraseFrom f none 0 s

/-- Reads the capitals `k` where they are a whole word. -/
def wholeWord (k : Text) : Reader Text := fun prev s =>
  if wordStarts prev then keywordEnd k s else none

/-- Reads with `f` wherever the place is. -/
def anywhere {α : Type} (f : Text → Option α) : Reader α := fun _ s => f s

/-! ## Where something is found -/

theorem append_of_find {α : Type} {f : Reader α} {prev : Option Char} {s before : Text} {a : α}
    (h : find f prev s = some (before, a)) :
    ∃ rest, s = before ++ rest ∧ f (before.getLast?.or prev) rest = some a := by
  induction s generalizing prev before with
  | nil => simp [find] at h
  | cons c s ih =>
    simp only [find] at h
    split at h
    · next b hb =>
      obtain ⟨rfl, rfl⟩ := Prod.mk.inj (Option.some.inj h)
      exact ⟨c :: s, rfl, by simpa using hb⟩
    · obtain ⟨⟨b, a'⟩, hr, he⟩ := Option.map_eq_some_iff.1 h
      obtain ⟨rfl, rfl⟩ := Prod.mk.inj he
      obtain ⟨rest, rfl, hf⟩ := ih hr
      have hl : (c :: b).getLast?.or prev = b.getLast?.or (some c) := by
        cases b <;> simp [List.getLast?_cons]
      exact ⟨rest, rfl, hl ▸ hf⟩

theorem replaceFirst_of_not_occurs {f : Reader Text} {s : Text} (h : occurs f s = false)
    (new : Text) : replaceFirst f new s = s := by
  have hn : find f none s = none := by simpa [occurs] using h
  simp [replaceFirst, hn]

theorem eraseFrom_of_find_eq_none {f : Reader Text} {prev : Option Char} {s : Text}
    (h : find f prev s = none) : eraseFrom f prev 0 s = s := by
  induction s generalizing prev with
  | nil => rfl
  | cons c s ih =>
    simp only [find] at h
    split at h
    · simp at h
    · next hf =>
      simp only [eraseFrom, hf]
      rw [ih (by simpa using h)]

theorem eraseAll_of_not_occurs {f : Reader Text} {s : Text} (h : occurs f s = false) :
    eraseAll f s = s :=
  eraseFrom_of_find_eq_none (by simpa [occurs] using h)

end SchemaDialects.Text
