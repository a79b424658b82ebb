import SchemaDialects.Proofs.Conversion.ScriptParts
import SchemaDialects.Proofs.Conversion.Strictness
import SchemaDialects.Proofs.Warning.Kept

/-!
# Warnings about types

A lenient conversion looks up the type of each definition that it keeps, in what the
attributes leave of its line. What it has to say about the type is all that the log hears
about types. The log keeps it as far as its room goes, unless it holds the same of another
column of the table.
-/

namespace SchemaDialects

namespace Warning

/-- Whether a warning is about the type of a column. -/
def isAboutType : Warning → Bool
  | lossyConversion .. | unmappedType .. => true
  | unsupportedFeature .. | skippedStatement .. => false

theorem eq_lossyConversion {v : Warning} {source target : Text} {table? : Option Text}
    (h : v.subject? = some (.loss source target table?)) :
    ∃ column, v = .lossyConversion source target table? column := by
  cases v with
  | lossyConversion s t table column =>
    obtain ⟨rfl, rfl, rfl⟩ := Subject.loss.inj (Option.some.inj h)
    exact ⟨column, rfl⟩
  | unsupportedFeature | unmappedType => cases Option.some.inj h
  | skippedStatement => cases h

theorem eq_unmappedType {v : Warning} {typeName : Text} {table? : Option Text}
    (h : v.subject? = some (.unmapped typeName table?)) :
    ∃ column, v = .unmappedType typeName table? column := by
  cases v with
  | unmappedType n table column =>
    obtain ⟨rfl, rfl⟩ := Subject.unmapped.inj (Option.some.inj h)
    exact ⟨column, rfl⟩
  | unsupportedFeature | lossyConversion => cases Option.some.inj h
  | skippedStatement => cases h

end Warning

namespace Definition

open Text

/-! ## A definition -/

/-- A definition that is kept has a type that is not known, and `w` says so. The word
behind a constraint keyword may well be no type. -/
def HasUnknownType (m : TypeMap) (d : Direction) (table? : Option Text) (line : Text)
    (w : Warning) : Prop :=
  isDropped d line = false ∧ ∃ lead t, typedName? (cleaned d line) = some (lead, t)
    ∧ m.ofDeclared? d t.declaredType = none ∧ isConstraintKeyword (bareName t.name) = false
    ∧ w = .unmappedType (upper t.keyword) table? (some (bareName t.name))

theorem unmapped?_convertType_eq_some_iff {m : TypeMap} {d : Direction} {table? : Option Text}
    {line : Text} {w : Warning} :
    (convertType m d table? line).unmapped? = some w ↔
      ∃ lead t, typedName? line = some (lead, t) ∧ m.ofDeclared? d t.declaredType = none
        ∧ isConstraintKeyword (bareName t.name) = false
        ∧ w = .unmappedType (upper t.keyword) table? (some (bareName t.name)) := by
  cases ht : typedName? line with
  | none => simp [convertType_of_untyped ht]
  | some r =>
    obtain ⟨lead, t⟩ := r
    cases hm : m.ofDeclared? d t.declaredType with
    | some mapping =>
      rw [convertType_of_known ht hm]
      simp [hm]
    | none =>
      rw [convertType_of_unknown ht hm]
      constructor
      · intro h
        split at h
        · cases h
        · next hk => exact ⟨lead, t, rfl, hm, by simpa using hk, (Option.some.inj h).symm⟩
      · rintro ⟨lead', t', hr, -, hk, rfl⟩
        obtain ⟨rfl, rfl⟩ := Prod.mk.inj (Option.some.inj hr)
        rw [hk]
        rfl

/-- Whatever is said about a definition where a loss is no error. -/
def Outcome.said (o : Outcome) : List Warning := o.warnings ++ o.lossy?.toList

theorem not_isAboutType_updateWarnings {d : Direction} {line : Text} {w : Warning}
    (h : w ∈ updateWarnings d line) : w.isAboutType = false := by
  cases d with
  | sqliteToMysql => cases h
  | mysqlToSqlite =>
    rw [updateWarnings] at h
    split at h
    · rw [List.mem_singleton.1 h]
      rfl
    · cases h

theorem mem_said_iff {m : TypeMap} {d : Direction} {table? : Option Text} {line : Text}
    {w : Warning} :
    (w ∈ (convert m d table? line).said ∧ w.isAboutType = true)
      ↔ LosesType m d table? line w ∨ HasUnknownType m d table? line w := by
  unfold LosesType HasUnknownType
  rw [Outcome.said, convert_eq, ← lossy?_convertType_eq_some_iff,
    ← unmapped?_convertType_eq_some_iff]
  by_cases h : isDropped d line = true
  · rw [if_pos h]
    refine iff_of_false ?_ (by simp [h])
    rintro ⟨hw, ht⟩
    rw [List.mem_singleton.1 hw] at ht
    cases ht
  · rw [if_neg h]
    simp only [convertColumn, List.mem_append, Option.mem_toList, Bool.eq_false_iff.2 h, true_and]
    constructor
    · rintro ⟨(hw | hw) | hw, ht⟩
      · rw [not_isAboutType_updateWarnings hw] at ht
        cases ht
      · exact .inr hw
      · exact .inl hw
    · rintro (hw | hw)
      · obtain ⟨_, _, _, _, _, _, rfl⟩ := lossy?_convertType_eq_some_iff.1 hw
        exact ⟨.inr hw, rfl⟩
      · obtain ⟨_, _, _, _, _, rfl⟩ := unmapped?_convertType_eq_some_iff.1 hw
        exact ⟨.inl (.inr hw), rfl⟩

end Definition

namespace Conversion

open Definition

/-! ## A statement -/

theorem warnings_warn (ws : List Warning) :
    Notice.warnings (Traced.warn ws : Traced ConversionError Unit).notices = ws := by
  show (ws.map Notice.warning).filterMap _ = ws
  rw [List.filterMap_map]
  exact List.filterMap_some

theorem warnings_bind {α β : Type} {x : Traced ConversionError α} {a : α} (h : x.value = .ok a)
    (f : α → Traced ConversionError β) : Notice.warnings (x >>= f).notices
      = Notice.warnings x.notices ++ Notice.warnings (f a).notices := by
  rw [Traced.bind_of_ok h, warnings_append]

theorem warnings_settle (o : Outcome) :
    Notice.warnings (settle false o).notices = o.said := by
  rw [settle, warnings_bind rfl, warnings_warn, Outcome.said]
  cases o.lossy? with
  | none => rfl
  | some w => rfl

theorem warnings_forM_settle (os : List Outcome) :
    Notice.warnings (os.forM (settle false)).notices = os.flatMap Outcome.said := by
  induction os with
  | nil => rfl
  | cons o os ih =>
    show Notice.warnings (settle false o >>= fun _ => os.forM (settle false)).notices = _
    rw [warnings_bind (value_settle false o), warnings_settle, ih, List.flatMap_cons]

theorem not_isAboutType_closingWarnings {closing? : Option Text} {w : Warning}
    (h : w ∈ closingWarnings closing?) : w.isAboutType = false := by
  unfold closingWarnings at h
  split at h
  · cases h
  · cases h
  · rw [List.mem_singleton.1 h]
    rfl

theorem not_isAboutType_dropSoleKey {auto : Text} {defs : List Text} {w : Warning}
    (h : w ∈ Notice.warnings (dropSoleKey auto defs : Traced ConversionError _).notices) :
    w.isAboutType = false := by
  have hnotices : Notice.warnings (dropSoleKey auto defs : Traced ConversionError _).notices
      = defs.filterMap (compositeWarning? auto) := by
    unfold dropSoleKey
    rw [warnings_bind rfl, warnings_warn]
    split
    · exact List.append_nil _
    · exact List.append_nil _
  rw [hnotices] at h
  obtain ⟨line, -, hline⟩ := List.mem_filterMap.1 h
  obtain ⟨columns, -, hw⟩ := Option.bind_eq_some_iff.1 hline
  split at hw
  · rw [← Option.some.inj hw]
    rfl
  · cases hw

/-- Besides what is said about the definitions there is nothing about types. -/
theorem warnings_convertLayout {c : Conversion} (hc : c.strict = false) (table? : Option Text)
    (l : Layout) : ∃ rest, Notice.warnings (c.convertLayout table? l).notices
        = (c.outcomes table? l).flatMap Outcome.said ++ rest
      ∧ ∀ w ∈ rest, w.isAboutType = false := by
  have hsettle := value_forM_settle false (c.outcomes table? l)
  unfold convertLayout
  rw [← outcomes, hc, warnings_bind hsettle, warnings_forM_settle]
  refine ⟨_, rfl, fun w hw => ?_⟩
  rw [warnings_bind rfl, warnings_warn, List.mem_append] at hw
  cases hw with
  | inl hw => exact not_isAboutType_closingWarnings hw
  | inr hw =>
    revert hw
    cases (c.outcomes table? l).findSome? Outcome.autoColumn? with
    | none =>
      intro hw
      cases hw
    | some auto =>
      intro hw
      rw [warnings_bind (value_dropSoleKey _ _), List.mem_append] at hw
      cases hw with
      | inl hw => exact not_isAboutType_dropSoleKey hw
      | inr hw => cases hw

theorem exists_warnings_statement {c : Conversion} (hc : c.strict = false) {sql out : Text}
    (h : (c.statement sql).value = .ok out) :
    ∃ rest, Notice.warnings (c.statement sql).notices
        = ((layout c.direction sql).definitions.map
          (convert c.types c.direction (Script.tableName? sql))).flatMap Outcome.said ++ rest
      ∧ ∀ w ∈ rest, w.isAboutType = false := by
  have hr : ¬ Rejected c.direction sql := by
    intro hr
    rw [value_of_rejected hr] at h
    cases h
  obtain ⟨hplain, hcrowded⟩ := not_rejected_iff.1 hr
  have htable : Script.tableName? (Script.body sql) = Script.tableName? sql := by
    rw [Script.tableName?, Script.body_body]
    rfl
  rw [statement_eq, if_pos hplain, warnings_bind rfl, hcrowded, htable]
  exact warnings_convertLayout hc (Script.tableName? sql) (layout c.direction sql)

/-- What a statement that is converted gives to hear about types is said about its
definitions. -/
theorem mem_warnings_statement_iff {c : Conversion} (hc : c.strict = false) {sql out : Text}
    (h : (c.statement sql).value = .ok out) {w : Warning} :
    (w ∈ Notice.warnings (c.statement sql).notices ∧ w.isAboutType = true) ↔
      ∃ line ∈ (layout c.direction sql).definitions,
        LosesType c.types c.direction (Script.tableName? sql) line w
          ∨ HasUnknownType c.types c.direction (Script.tableName? sql) line w := by
  obtain ⟨rest, hwarnings, htypes⟩ := exists_warnings_statement hc h
  simp only [← mem_said_iff]
  rw [hwarnings, List.mem_append, List.flatMap_map, List.mem_flatMap]
  constructor
  · rintro ⟨⟨line, hline, hw⟩ | hw, ht⟩
    · exact ⟨line, hline, hw, ht⟩
    · rw [htypes w hw] at ht
      cases ht
  · rintro ⟨line, hline, hw, ht⟩
    exact ⟨.inl ⟨line, hline, hw⟩, ht⟩

end Conversion

namespace Session

open Conversion Definition

/-! ## The log -/

theorem log_statement (s : Session) (sql : Text) :
    (s.statement sql).session.log
      = (Notice.warnings (s.conversion.statement sql).notices).foldl .add s.log :=
  WarningLog.absorb_fst s.log _

theorem isFull_or_kept_of_said {s : Session} {sql : Text} {w : Warning}
    (hw : w ∈ Notice.warnings (s.conversion.statement sql).notices) {x : Warning.Subject}
    (hx : w.subject? = some x) :
    (s.statement sql).session.log.isFull = true
      ∨ ∃ v ∈ (s.statement sql).session.log.kept, v.subject? = some x := by
  rw [log_statement]
  exact WarningLog.exists_mem_foldl_add hw hx

theorem isFull_or_unmappedType_kept {s : Session} (hs : s.conversion.strict = false) {sql out : Text}
    (h : (s.statement sql).value = .ok out) {line : Text}
    (hline : line ∈ (layout s.conversion.direction sql).definitions) {typeName : Text}
    {column : Option Text}
    (hw : HasUnknownType s.conversion.types s.conversion.direction (Script.tableName? sql) line
      (.unmappedType typeName (Script.tableName? sql) column)) :
    (s.statement sql).session.log.isFull = true ∨ ∃ column',
      .unmappedType typeName (Script.tableName? sql) column' ∈ (s.statement sql).session.log.kept := by
  have hsaid := ((mem_warnings_statement_iff hs h).2 ⟨line, hline, .inr hw⟩).1
  refine (isFull_or_kept_of_said hsaid rfl).imp_right ?_
  rintro ⟨v, hv, hsubject⟩
  obtain ⟨column', rfl⟩ := Warning.eq_unmappedType hsubject
  exact ⟨column', hv⟩

/-- A statement that is converted leniently leaves every loss and every unknown type of
its definitions in the log, for its table, unless the log is full. About types it adds
nothing else. -/
theorem reports_types {s : Session} (hs : s.conversion.strict = false) {sql out : Text}
    (h : (s.statement sql).value = .ok out) :
    let m := s.conversion.types
    let d := s.conversion.direction
    let table? := Script.tableName? sql
    let log := (s.statement sql).session.log
    (∀ line ∈ (layout d sql).definitions,
      (∀ source target column,
        LosesType m d table? line (.lossyConversion source target table? column) →
        log.isFull = true ∨ ∃ column', .lossyConversion source target table? column' ∈ log.kept) ∧
      (∀ typeName column,
        HasUnknownType m d table? line (.unmappedType typeName table? column) →
        log.isFull = true ∨ ∃ column', .unmappedType typeName table? column' ∈ log.kept)) ∧
    ∃ added, log.kept = s.log.kept ++ added ∧ ∀ w ∈ added, w.isAboutType = true →
      ∃ line ∈ (layout d sql).definitions,
        LosesType m d table? line w ∨ HasUnknownType m d table? line w := by
  intro m d table? log
  have hlog : log = _ := log_statement s sql
  have hsaid {w : Warning} := mem_warnings_statement_iff (w := w) hs h
  refine ⟨fun line hline => ⟨fun source target column hloss => ?_, fun typeName column htype => ?_⟩, ?_⟩
  · have hw := (hsaid.2 ⟨line, hline, .inl hloss⟩).1
    refine (isFull_or_kept_of_said hw rfl).imp id fun ⟨v, hv, hsubject⟩ => ?_
    obtain ⟨column', rfl⟩ := Warning.eq_lossyConversion hsubject
    exact ⟨column', hv⟩
  · exact isFull_or_unmappedType_kept hs h hline htype
  · rw [hlog]
    obtain ⟨added, hkept, hadded⟩ := WarningLog.exists_kept_foldl_add s.log
      (Notice.warnings (s.conversion.statement sql).notices)
    exact ⟨added, hkept, fun w hw ht => hsaid.1 ⟨hadded w hw, ht⟩⟩

/-- The loss is known of another column of the table, the type is not. -/
theorem reports_types_seen :
    let loss (column : Text) : Warning :=
      .lossyConversion "TEXT".toList "VARCHAR(255)".toList (some "t".toList) (some column)
    let s : Session := ⟨{ direction := .sqliteToMysql }, ⟨100, [loss "z".toList]⟩⟩
    let sql := "CREATE TABLE t (\n  a TEXT,\n  b POINT\n);".toList
    s.conversion.strict = false ∧ (∃ out, (s.statement sql).value = .ok out)
      ∧ LosesType default .sqliteToMysql (some "t".toList) "a TEXT".toList (loss "a".toList)
      ∧ HasUnknownType default .sqliteToMysql (some "t".toList) "b POINT".toList
        (.unmappedType "POINT".toList (some "t".toList) (some "b".toList))
      ∧ ∃ column column', .lossyConversion "TEXT".toList "VARCHAR(255)".toList (some "t".toList) column
          ∈ (s.statement sql).session.log.kept
        ∧ .unmappedType "POINT".toList (some "t".toList) column'
          ∈ (s.statement sql).session.log.kept := by
  intro loss s sql
  have hok : (s.statement sql).value =
      .ok "CREATE TABLE t (\n  a VARCHAR(255),\n  b POINT\n) ENGINE=InnoDB DEFAULT CHARSET=utf8;".toList := by
    decide +kernel
  have htable : Script.tableName? sql = some "t".toList := by decide +kernel
  have hroom : ¬ (s.statement sql).session.log.isFull = true := by decide +kernel
  have hloss : LosesType default .sqliteToMysql (some "t".toList) "a TEXT".toList (loss "a".toList) :=
    lossy?_convert_eq_some_iff.1 (by decide +kernel)
  have hunknown : HasUnknownType default .sqliteToMysql (some "t".toList) "b POINT".toList
      (.unmappedType "POINT".toList (some "t".toList) (some "b".toList)) :=
    ⟨rfl, unmapped?_convertType_eq_some_iff.1 (by decide +kernel)⟩
  obtain ⟨htypes, -⟩ := reports_types (s := s) rfl hok
  rw [htable] at htypes
  obtain ⟨column, hcolumn⟩ :=
    ((htypes "a TEXT".toList (by decide +kernel)).1 _ _ _ hloss).resolve_left hroom
  obtain ⟨column', hcolumn'⟩ :=
    ((htypes "b POINT".toList (by decide +kernel)).2 _ _ hunknown).resolve_left hroom
  exact ⟨rfl, ⟨_, hok⟩, hloss, hunknown, column, column', hcolumn, hcolumn'⟩

end Session

end SchemaDialects
