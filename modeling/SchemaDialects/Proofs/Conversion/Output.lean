import SchemaDialects.Conversion.Statement

/-!
# What a conversion gives

The value of a conversion, apart from its notices, as a function of the
statement's layout. The lines of the output depend on the lines of the layout
only; the table's name is used for warnings.
-/

namespace SchemaDialects.Conversion

open Text Definition

/-- The layout that a statement is read as. -/
def layout (d : Direction) (sql : Text) : Layout :=
  Layout.ofLines (contentLines (requoted d (Script.body sql)))

/-- The definitions of a table whose lines have the outcomes `os`. -/
def keptLines (os : List Outcome) : List Text :=
  match os.findSome? Outcome.autoColumn? with
  | some auto => eraseLast (isSoleKeyOf auto) (os.filterMap Outcome.line?)
  | none => os.filterMap Outcome.line?

def outcomes (c : Conversion) (table? : Option Text) (l : Layout) : List Outcome :=
  l.definitions.map (convert c.types c.direction table?)

def output (c : Conversion) (l : Layout) : Text :=
  c.finish (assemble l.header (keptLines (c.outcomes none l)) l.closing?.isSome)

/-! ## Outcomes and the table's name -/

theorem convertType_without_table (m : TypeMap) (d : Direction) (table : Option Text) (line : Text) :
    (convertType m d table line).line = (convertType m d none line).line
      ∧ (convertType m d table line).lossy?.isSome = (convertType m d none line).lossy?.isSome := by
  cases ht : typedName? line with
  | none =>
    rw [convertType_of_untyped ht, convertType_of_untyped ht]
    exact ⟨rfl, rfl⟩
  | some r =>
    cases hm : m.ofDeclared? d r.2.declaredType with
    | none =>
      rw [convertType_of_unknown ht hm, convertType_of_unknown ht hm]
      exact ⟨rfl, rfl⟩
    | some mapping =>
      rw [convertType_of_known ht hm, convertType_of_known ht hm]
      by_cases hl : mapping.lossy = true <;> simp [hl]

/-- What is kept of a line does not depend on the table's name. -/
theorem kept_convert (m : TypeMap) (d : Direction) (table : Option Text) (line : Text) :
    (convert m d table line).line? = (convert m d none line).line?
      ∧ (convert m d table line).autoColumn? = (convert m d none line).autoColumn? := by
  have hcolumn (line : Text) :
      (convertColumn m d table line).line? = (convertColumn m d none line).line?
        ∧ (convertColumn m d table line).autoColumn?
          = (convertColumn m d none line).autoColumn? := by
    simp only [convertColumn, (convertType_without_table m d table line).1, and_self]
  cases d with
  | sqliteToMysql => exact hcolumn line
  | mysqlToSqlite =>
    simp only [convert]
    split
    · exact ⟨rfl, rfl⟩
    · exact hcolumn _

theorem keptLines_outcomes (c : Conversion) (table? : Option Text) (l : Layout) :
    keptLines (c.outcomes table? l) = keptLines (c.outcomes none l) := by
  have ha : (c.outcomes table? l).findSome? Outcome.autoColumn?
      = (c.outcomes none l).findSome? Outcome.autoColumn? := by
    rw [outcomes, outcomes, List.findSome?_map, List.findSome?_map]
    exact congrArg (List.findSome? · l.definitions)
      (funext fun line => (kept_convert c.types c.direction table? line).2)
  have hl : (c.outcomes table? l).filterMap Outcome.line?
      = (c.outcomes none l).filterMap Outcome.line? := by
    rw [outcomes, outcomes, List.filterMap_map, List.filterMap_map]
    exact congrArg (List.filterMap · l.definitions)
      (funext fun line => (kept_convert c.types c.direction table? line).1)
  rw [keptLines, keptLines, ha, hl]

/-! ## Values -/

theorem value_settle (strict : Bool) (o : Outcome) :
    (settle strict o).value =
      match (if strict then o.lossy? else none) with
      | some w => .error (.lossyConversion w)
      | none => .ok () := by
  unfold settle
  rw [Traced.value_bind]
  cases o.lossy? <;> cases strict <;> rfl

theorem value_forM_settle (strict : Bool) (os : List Outcome) :
    (os.forM (settle strict)).value =
      match (if strict then os.findSome? Outcome.lossy? else none) with
      | some w => .error (.lossyConversion w)
      | none => .ok () := by
  induction os with
  | nil => cases strict <;> rfl
  | cons o os ih =>
    show (settle strict o >>= fun _ => os.forM (settle strict)).value = _
    rw [Traced.value_bind, value_settle, ih]
    cases strict
    · rfl
    · rw [List.findSome?_cons]
      cases o.lossy? <;> rfl

theorem eraseLast_of_not_any {α : Type} {p : α → Bool} {l : List α} (h : l.any p = false) :
    eraseLast p l = l := by
  have h' : ∀ a ∈ l.reverse, ¬ p a = true := by simpa using h
  rw [eraseLast, List.eraseP_of_forall_not h', List.reverse_reverse]

theorem value_dropSoleKey {ε : Type} (auto : Text) (defs : List Text) :
    (dropSoleKey auto defs : Traced ε _).value = .ok (eraseLast (isSoleKeyOf auto) defs) := by
  unfold dropSoleKey
  rw [Traced.value_bind]
  by_cases h : defs.any (isSoleKeyOf auto) = true
  · simp only [h, if_true]
    rfl
  · rw [Bool.not_eq_true] at h
    simp only [h, eraseLast_of_not_any h]
    rfl

/-- The first lossy type where losses are errors. -/
def firstLoss? (c : Conversion) (table? : Option Text) (l : Layout) : Option Warning :=
  if c.strict then (c.outcomes table? l).findSome? Outcome.lossy? else none

theorem value_convertLayout (c : Conversion) (table? : Option Text) (l : Layout) :
    (c.convertLayout table? l).value =
      match c.firstLoss? table? l with
      | some w => .error (.lossyConversion w)
      | none => .ok (c.output l) := by
  have hv : ((c.outcomes table? l).forM (settle c.strict)).value =
      match c.firstLoss? table? l with
      | some w => .error (.lossyConversion w)
      | none => .ok () := value_forM_settle _ _
  unfold convertLayout
  rw [Traced.value_bind]
  cases h : c.firstLoss? table? l with
  | some w =>
    rw [h] at hv
    rw [← outcomes, hv]
    rfl
  | none =>
    rw [h] at hv
    rw [← outcomes, hv]
    show (Traced.value _) = _
    rw [Traced.value_bind, output, ← keptLines_outcomes c table?, keptLines]
    show (Traced.value _) = _
    cases (c.outcomes table? l).findSome? Outcome.autoColumn? with
    | none => rfl
    | some auto =>
      show (Traced.value (dropSoleKey auto _ >>= _)) = _
      rw [Traced.value_bind, value_dropSoleKey]
      rfl

theorem statement_eq (c : Conversion) (sql : Text) :
    c.statement sql =
      if Script.isPlainCreateTable (Script.body sql) then
        Traced.note (.statementStarted (Script.tableName? (Script.body sql)) c.direction) >>=
          fun _ => if (layout c.direction sql).isCrowded then Traced.fail (.ofStatement sql)
            else c.convertLayout (Script.tableName? (Script.body sql)) (layout c.direction sql)
      else Traced.fail (.ofStatement sql) := rfl

theorem value_statement (c : Conversion) (sql : Text) :
    (c.statement sql).value =
      if Script.isPlainCreateTable (Script.body sql) = true
          ∧ (layout c.direction sql).isCrowded = false then
        match c.firstLoss? (Script.tableName? (Script.body sql)) (layout c.direction sql) with
        | some w => .error (.lossyConversion w)
        | none => .ok (c.output (layout c.direction sql))
      else .error (.ofStatement sql) := by
  unfold statement
  by_cases hp : Script.isPlainCreateTable (Script.body sql) = true
  · simp only [hp, if_true, true_and]
    rw [Traced.value_bind]
    show (if (layout c.direction sql).isCrowded = true then Traced.fail _
      else c.convertLayout _ (layout c.direction sql)).value = _
    by_cases hc : (layout c.direction sql).isCrowded = true
    · rw [if_pos hc, if_neg (by simp [hc])]
      rfl
    · rw [if_neg hc, if_pos (by simpa using hc)]
      exact value_convertLayout c _ _
  · simp only [hp]
    rfl

end SchemaDialects.Conversion
