import SchemaDialects.Definition.Name
import SchemaDialects.Direction

/-!
# The auto-increment marker of a definition

Each dialect wants its marker on its own side of `PRIMARY KEY`. The source
dialect's marker is removed wherever it stands in the line, and the target
dialect's phrase takes the place of `PRIMARY KEY`, or comes last where the line
has none.
-/

namespace SchemaDialects.Definition

open Text

/-- Reads a marker and the blanks before it. -/
def spacedMarker (marker : Text) : Reader Text := fun prev s =>
  if wordStarts prev ∨ s.head?.any isBlank then keywordEnd marker (blanks s) else none

def primaryKey : Reader Text := fun prev s =>
  if wordStarts prev then keywordBlanks "PRIMARY".toList s >>= keywordEnd "KEY".toList else none

theorem spacedMarker_iff_keywordEnd {marker : Text} {prev : Option Char} {s rest : Text} :
    spacedMarker marker prev s = some rest ↔
      (wordStarts prev = true ∨ s.head?.any isBlank = true)
        ∧ keywordEnd marker (blanks s) = some rest := by
  rw [spacedMarker, Option.ite_none_right_eq_some]

theorem primaryKey_iff_keywords {prev : Option Char} {s rest : Text} :
    primaryKey prev s = some rest ↔ wordStarts prev = true ∧ ∃ u t,
      keyword "PRIMARY".toList s = some u ∧ blanks1 u = some t
        ∧ keywordEnd "KEY".toList t = some rest := by
  rw [primaryKey, Option.ite_none_right_eq_some]
  simp only [keywordBlanks, Option.bind_eq_bind, Option.bind_eq_some_iff]
  refine and_congr_right fun _ => ⟨?_, ?_⟩
  · rintro ⟨t, ⟨u, hu, ht⟩, hkey⟩
    exact ⟨u, t, hu, ht, hkey⟩
  · rintro ⟨u, t, hu, ht, hkey⟩
    exact ⟨t, ⟨u, hu, ht⟩, hkey⟩

/-- What the target dialect writes for an auto-increment key. -/
def keyPhrase : Direction → Text
  | .mysqlToSqlite => "PRIMARY KEY ".toList ++ Dialect.sqlite.marker
  | .sqliteToMysql => Dialect.mysql.marker ++ " PRIMARY KEY".toList

/-- Puts the target dialect's phrase in place of the source dialect's marker;
`none` where the line has no marker. -/
def respellMarker (d : Direction) (line : Text) : Option Text :=
  let marker := spacedMarker d.source.marker
  if occurs marker line then
    let stripped := eraseAll marker line
    some (if occurs primaryKey stripped then replaceFirst primaryKey (keyPhrase d) stripped
      else stripped ++ ' ' :: keyPhrase d)
  else none

theorem respellMarker_eq_none_iff {d : Direction} {s : Text} :
    respellMarker d s = none ↔ occurs (spacedMarker d.source.marker) s = false := by
  simp only [respellMarker]
  split <;> simp [*]

theorem respellMarker_cases {d : Direction} {s s' : Text} (h : respellMarker d s = some s') :
    occurs (spacedMarker d.source.marker) s = true
      ∧ (occurs primaryKey (eraseAll (spacedMarker d.source.marker) s) = true
            ∧ s' = replaceFirst primaryKey (keyPhrase d) (eraseAll (spacedMarker d.source.marker) s)
          ∨ occurs primaryKey (eraseAll (spacedMarker d.source.marker) s) = false
            ∧ s' = eraseAll (spacedMarker d.source.marker) s ++ ' ' :: keyPhrase d) := by
  obtain ⟨hmarker, h⟩ := Option.ite_none_right_eq_some.1 h
  obtain rfl := Option.some.inj h
  refine ⟨hmarker, ?_⟩
  split
  · next hkey => exact .inl ⟨hkey, rfl⟩
  · next hkey => exact .inr ⟨Bool.eq_false_iff.2 hkey, rfl⟩

end SchemaDialects.Definition
