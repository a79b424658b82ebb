import SchemaDialects.Transfer

/-!
# Losses in a transfer

A transfer writes a lossy type to its journal and goes on: the target is told to
create the table whatever the columns lose, and the outcome is the target's. The
settings are read for the length of texts only, so this holds where losses are
to be errors as well.
-/

namespace SchemaDialects

/-- The type of a column has a counterpart `target`, which does not hold all
of it. -/
def Column.LosesType (m : TypeMap) (d : Direction) (c : Column) (target : Text) : Prop :=
  ∃ mapping, m.ofDeclared? d c.declaredType = some mapping ∧ mapping.lossy = true
    ∧ mapping.target = target

namespace Transfer

section
variable {m : TypeMap} {d : Direction}

theorem typeEvents_of_losesType {c : Column} {target : Text} (h : c.LosesType m d target) :
    c.typeEvents m d = [.typeLossy c.name c.declaredType target] := by
  obtain ⟨mapping, hm, hl, rfl⟩ := h
  unfold Column.typeEvents
  simp only [hm, hl, if_true]

theorem typeLossy_mem_events {c : Column} {target : Text} (h : c.LosesType m d target)
    (seen : Bool) : .typeLossy c.name c.declaredType target ∈ (c.convert m d seen).events := by
  simp [Column.convert, typeEvents_of_losesType h]

theorem exists_convert_mem {c : Column} {columns : List Column} (h : c ∈ columns) (seen : Bool) :
    ∃ seen', c.convert m d seen' ∈ Column.convertFrom m d seen columns := by
  induction columns generalizing seen with
  | nil => cases h
  | cons x columns ih =>
    rw [Column.convertFrom]
    rcases List.mem_cons.1 h with rfl | h
    · exact ⟨seen, List.mem_cons_self⟩
    · obtain ⟨seen', hs⟩ := ih h (seen || d.source.isMarked x.extra)
      exact ⟨seen', List.mem_cons_of_mem _ hs⟩

theorem typeLossy_mem_convertAllEvents {c : Column} {columns : List Column} (hc : c ∈ columns)
    {target : Text} (h : c.LosesType m d target) :
    .typeLossy c.name c.declaredType target ∈ Column.convertAllEvents m d columns := by
  obtain ⟨seen, hs⟩ := exists_convert_mem (m := m) (d := d) hc false
  exact List.mem_flatMap.2 ⟨_, hs, typeLossy_mem_events h seen⟩

end

variable {ε τ : Type} {m : TypeMap} {source : Source ε} {target : Target τ} {d : Direction}
  {table : Text} {columns : List Column}

theorem creations_toTarget :
    (toTarget (ε := ε) m d table columns target).creations
      = [(table, Column.convertAll m d columns)] := by
  simp only [toTarget]
  split
  · rfl
  · rfl

theorem outcome_toTarget :
    (toTarget (ε := ε) m d table columns target).outcome
      = (target.create table (Column.convertAll m d columns)).2.mapError .target := by
  simp only [toTarget]
  split
  · next h => rw [h]; rfl
  · next h => rw [h]; rfl

theorem convertAllEvents_subset :
    Column.convertAllEvents m d columns
      ⊆ (toTarget (ε := ε) m d table columns target).events := by
  simp only [toTarget]
  split
  · exact List.subset_append_left _ _
  · exact List.Subset.trans (List.subset_append_left _ _) (List.subset_append_left _ _)

theorem run_of_columns (hd : Direction.between? source.dialect target.dialect = some d)
    (hc : source.columns table = .ok columns) (hne : columns ≠ []) :
    run m table source target =
      { toTarget m d table columns target with
        events := .transferStarted table d :: (toTarget (ε := ε) m d table columns target).events } := by
  obtain ⟨c, cs, rfl⟩ := List.exists_cons_of_ne_nil hne
  simp only [run, hd, hc]

/-- Columns that the source has reach the target, and the outcome is the
target's. What their types lose is in the journal. Strictness changes nothing of
it. -/
theorem losses_are_reported_only (s : Settings)
    (hd : Direction.between? source.dialect target.dialect = some d)
    (hc : source.columns table = .ok columns) (hne : columns ≠ []) :
    let r := run s.types table source target
    r.creations = [(table, Column.convertAll s.types d columns)]
      ∧ r.outcome
        = (target.create table (Column.convertAll s.types d columns)).2.mapError .target
      ∧ (∀ c ∈ columns, ∀ t, c.LosesType s.types d t →
        .typeLossy c.name c.declaredType t ∈ r.events)
      ∧ ∀ strict, run { s with strict := strict }.types table source target = r := by
  intro r
  have hr := run_of_columns (m := s.types) hd hc hne
  refine ⟨?_, ?_, fun c hmem t hl => ?_, fun strict => rfl⟩
  · exact (congrArg Transfer.creations hr).trans creations_toTarget
  · exact (congrArg Transfer.outcome hr).trans outcome_toTarget
  · have hevents := congrArg Transfer.events hr
    rw [hevents]
    exact List.mem_cons_of_mem _
      (convertAllEvents_subset (typeLossy_mem_convertAllEvents hmem hl))

/-- Of a table with a decimal column, whose digits SQLite does not keep. -/
theorem losses_are_reported_only_decimal :
    let s : Settings := { strict := true }
    let price := Column.ofType "price".toList "DECIMAL(10,2)".toList
    let source : Source Text := ⟨.mysql, fun _ => .ok [price]⟩
    let target : Target Text := Target.rendering .sqlite (some "disk full".toList)
    let r := run s.types "items".toList source target
    Direction.between? source.dialect target.dialect = some .mysqlToSqlite
      ∧ source.columns "items".toList = .ok [price] ∧ [price] ≠ []
      ∧ price.LosesType s.types .mysqlToSqlite "REAL".toList
      ∧ r.outcome = .error (.target "disk full".toList)
      ∧ .typeLossy "price".toList "DECIMAL(10,2)".toList "REAL".toList ∈ r.events := by
  intro s price source target r
  have hl : price.LosesType s.types .mysqlToSqlite "REAL".toList := ⟨⟨_, true⟩, rfl, rfl, rfl⟩
  have hd : Direction.between? source.dialect target.dialect = some .mysqlToSqlite := rfl
  have hc : source.columns "items".toList = .ok [price] := rfl
  have hne : [price] ≠ [] := List.cons_ne_nil _ _
  obtain ⟨-, hout, hevents, -⟩ := losses_are_reported_only s hd hc hne
  exact ⟨hd, hc, hne, hl, hout, hevents price List.mem_cons_self _ hl⟩

/-- A lossy type under strict settings: the table is created all the same. -/
theorem created_despite_strict :
    let s : Settings := { strict := true }
    let price := Column.ofType "price".toList "DECIMAL(10,2)".toList
    let source : Source Text := ⟨.mysql, fun _ => .ok [price]⟩
    let target : Target Text := Target.rendering .sqlite none
    let r := run s.types "items".toList source target
    s.strict = true ∧ Direction.between? source.dialect target.dialect = some .mysqlToSqlite
      ∧ source.columns "items".toList = .ok [price]
      ∧ price.LosesType s.types .mysqlToSqlite "REAL".toList
      ∧ r.outcome = .ok ()
      ∧ r.creations = [("items".toList, [Column.ofType "price".toList "REAL".toList])] := by
  intro s price source target r
  exact ⟨rfl, rfl, rfl, ⟨⟨_, true⟩, rfl, rfl, rfl⟩, rfl, rfl⟩

end Transfer

end SchemaDialects
