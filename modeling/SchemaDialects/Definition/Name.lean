import SchemaDialects.Text.Search

/-!
# Names and types in a definition

A column definition has a name, blanks, and the keyword of a type, with a size
or without. The first place of a line where these follow one another is where
the line's type stands.
-/

namespace SchemaDialects.Definition

open Text

def isNameQuote (c : Char) : Bool := c == '`' || c == '"'

theorem eq_of_isNameQuote {q : Char} (h : isNameQuote q = true) : q = '`' ∨ q = '"' := by
  simpa [isNameQuote] using h

def bareName (s : Text) : Text := dropEndWhile isNameQuote (s.dropWhile isNameQuote)

/-- Reads a name between quotes of either kind, or a word. -/
def nameToken : Scanner := fun s =>
  ((quotedBy '`' s).or (quotedBy '"' s)).or (word s)

/-- The bare name at the start of a definition. -/
def leadingName? (line : Text) : Option Text :=
  (read nameToken line).map fun (name, _) => bareName name

/-- A name and the type after it, in the middle of a line. -/
structure TypedName where
  /-- The name as it is spelled. -/
  name : Text
  /-- The blanks between name and type. -/
  gap : Text
  keyword : Text
  /-- The size after the keyword, with the blanks before it, or nothing. -/
  size : Text
  /-- The line after the type. -/
  rest : Text

def TypedName.declaredType (t : TypedName) : Text := t.keyword ++ t.size

def sizeAfterBlanks : Scanner := fun s => size (blanks s)

def typedName : Text → Option TypedName := fun s => do
  let (name, s) ← read nameToken s
  let (gap, s) ← read blanks1 s
  let (keyword, s) ← run Char.isAlpha s
  let rest := optional sizeAfterBlanks s
  some ⟨name, gap, keyword, before s rest, rest⟩

/-- A typed name is read part by part, each from what the part before it leaves. -/
theorem exists_of_typedName {s : Text} {t : TypedName} (h : typedName s = some t) :
    ∃ s₁ s₂ s₃, read nameToken s = some (t.name, s₁) ∧ read blanks1 s₁ = some (t.gap, s₂)
      ∧ run Char.isAlpha s₂ = some (t.keyword, s₃) ∧ t.rest = Text.optional sizeAfterBlanks s₃
      ∧ t.size = before s₃ t.rest := by
  obtain ⟨⟨name, s₁⟩, hname, h⟩ := Option.bind_eq_some_iff.1 h
  obtain ⟨⟨gap, s₂⟩, hgap, h⟩ := Option.bind_eq_some_iff.1 h
  obtain ⟨⟨keyword, s₃⟩, hkeyword, h⟩ := Option.bind_eq_some_iff.1 h
  obtain rfl := Option.some.inj h
  exact ⟨s₁, s₂, s₃, hname, hgap, hkeyword, rfl, rfl⟩

/-- The first typed name of a line, with the text before it. -/
def typedName? (line : Text) : Option (Text × TypedName) := find (anywhere typedName) none line

end SchemaDialects.Definition
