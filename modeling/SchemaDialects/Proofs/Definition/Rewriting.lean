import SchemaDialects.Proofs.Conversion.Output
import SchemaDialects.Proofs.Definition.Tame

/-!
# What becomes of a definition

A definition is either dropped or rewritten, whatever table it stands in. Its
type is looked for in what is left of the line once the attributes are out, and
the loss is that of the type found first.
-/

namespace SchemaDialects.Definition

open Text

/-- Going to SQLite an inline index is dropped. -/
def isDropped : Direction → Text → Bool
  | .mysqlToSqlite, line => isInlineIndex line
  | .sqliteToMysql, _ => false

/-- What is to be said about a definition that is kept, types apart. -/
def updateWarnings : Direction → Text → List Warning
  | .mysqlToSqlite, line => if hasOnUpdate (withoutUniqueName line) then [onUpdateWarning] else []
  | .sqliteToMysql, _ => []

def retyped (m : TypeMap) (d : Direction) (line : Text) : Text :=
  (convertType m d none (cleaned d line)).line

/-- The line that a definition becomes unless it is dropped. -/
def rewritten (m : TypeMap) (d : Direction) (line : Text) : Text :=
  (respellMarker d (retyped m d line)).getD (retyped m d line)

/-- The column that gets the auto-increment phrase. -/
def autoColumn? (m : TypeMap) (d : Direction) (line : Text) : Option Text :=
  if isDropped d line then none else (respellMarker d (retyped m d line)).bind leadingName?

section
variable (m : TypeMap) (d : Direction) (table? : Option Text) (line : Text)

theorem convert_eq :
    convert m d table? line =
      if isDropped d line then ⟨[inlineIndexWarning line], none, none, none⟩
      else
        let o := convertColumn m d table? (cleaned d line)
        { o with warnings := updateWarnings d line ++ o.warnings } := by
  cases d with
  | sqliteToMysql => rfl
  | mysqlToSqlite =>
    rw [convert, isDropped]
    split
    · rfl
    · rfl

theorem line?_convert_eq :
    (convert m d table? line).line?
      = if isDropped d line then none else some (rewritten m d line) := by
  rw [(Conversion.kept_convert _ _ _ _).1, convert_eq]
  split
  · rfl
  · rfl

theorem autoColumn?_convert_eq :
    (convert m d table? line).autoColumn? = autoColumn? m d line := by
  rw [(Conversion.kept_convert _ _ _ _).2, convert_eq, autoColumn?]
  split
  · rfl
  · rfl

theorem lossy?_convert_eq :
    (convert m d table? line).lossy?
      = if isDropped d line then none else (convertType m d table? (cleaned d line)).lossy? := by
  rw [convert_eq]
  split
  · rfl
  · rfl

end

/-! ## Lossy types -/

/-- A definition that is kept has a type of which its new type does not hold all,
and `w` says so. -/
def LosesType (m : TypeMap) (d : Direction) (table? : Option Text) (line : Text) (w : Warning) :
    Prop :=
  isDropped d line = false ∧ ∃ lead t mapping, typedName? (cleaned d line) = some (lead, t)
    ∧ m.ofDeclared? d t.declaredType = some mapping ∧ mapping.lossy = true
    ∧ w = .lossyConversion t.declaredType mapping.target table? (some (bareName t.name))

theorem lossy?_convertType_eq_some_iff {m : TypeMap} {d : Direction} {table? : Option Text}
    {line : Text} {w : Warning} :
    (convertType m d table? line).lossy? = some w ↔
      ∃ lead t mapping, typedName? line = some (lead, t)
        ∧ m.ofDeclared? d t.declaredType = some mapping ∧ mapping.lossy = true
        ∧ w = .lossyConversion t.declaredType mapping.target table? (some (bareName t.name)) := by
  cases ht : typedName? line with
  | none => simp [convertType_of_untyped ht]
  | some r =>
    obtain ⟨lead, t⟩ := r
    cases hm : m.ofDeclared? d t.declaredType with
    | none =>
      rw [convertType_of_unknown ht hm]
      simp [hm]
    | some mapping =>
      rw [convertType_of_known ht hm]
      constructor
      · intro h
        split at h
        · next hl => exact ⟨lead, t, mapping, rfl, hm, hl, (Option.some.inj h).symm⟩
        · cases h
      · rintro ⟨lead', t', mapping', hr, hm', hl, rfl⟩
        obtain ⟨rfl, rfl⟩ := Prod.mk.inj (Option.some.inj hr)
        rw [hm] at hm'
        obtain rfl := Option.some.inj hm'
        rw [if_pos hl]

theorem lossy?_convert_eq_some_iff {m : TypeMap} {d : Direction} {table? : Option Text}
    {line : Text} {w : Warning} :
    (convert m d table? line).lossy? = some w ↔ LosesType m d table? line w := by
  rw [lossy?_convert_eq, LosesType]
  by_cases h : isDropped d line = true
  · simp [h]
  · rw [if_neg h, lossy?_convertType_eq_some_iff]
    simp [h]

theorem lossy?_convert_eq_none_iff {m : TypeMap} {d : Direction} {table? : Option Text}
    {line : Text} :
    (convert m d table? line).lossy? = none ↔ ∀ w, ¬ LosesType m d table? line w := by
  simp only [Option.eq_none_iff_forall_ne_some, Ne, lossy?_convert_eq_some_iff]

end SchemaDialects.Definition
