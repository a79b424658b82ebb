import SchemaDialects.Proofs.Conversion.TypeWarnings

/-!
# What a failure leaves behind

A conversion that fails has said something before it fails, and nothing takes that back. A
statement that is rejected has said nothing. One that fails by a lossy type has said what there is
to say about its definitions down to that one, but for the loss. A script has said it of each item
before the one that fails. The log accepts of this what it would accept otherwise.
-/

namespace SchemaDialects

open Text Definition

def Traced.error? {ε α : Type} (x : Traced ε α) : Option ε :=
  match x.value with
  | .ok _ => none
  | .error e => some e

theorem Traced.error?_eq_some_iff {ε α : Type} {x : Traced ε α} {e : ε} :
    x.error? = some e ↔ x.value = .error e := by
  unfold Traced.error?
  split
  · next h => simp [h]
  · next h => simp [h]

def Warning.isLoss : Warning → Bool
  | lossyConversion .. => true
  | _ => false

/-! ## Additions that change nothing -/

namespace WarningLog

theorem kept_prefix_foldl_add (log : WarningLog) (ws : List Warning) :
    log.kept <+: (ws.foldl add log).kept := by
  obtain ⟨added, h, -⟩ := exists_kept_foldl_add log ws
  exact ⟨added, h.symm⟩

theorem foldl_add_eq_self_iff {log : WarningLog} {ws : List Warning} :
    ws.foldl add log = log ↔ ∀ w ∈ ws, log.accepts w = false := by
  induction ws with
  | nil => simp
  | cons w ws ih =>
    by_cases hw : log.accepts w = true
    · -- What is accepted stays, so the log is longer than before.
      have hlt : log.kept.length < (log.add w).kept.length := by
        simp [kept_add_of_accepts hw]
      have hle := (kept_prefix_foldl_add (log.add w) ws).length_le
      constructor
      · intro h
        rw [List.foldl_cons] at h
        rw [h] at hle
        omega
      · intro h
        have := h w (by simp)
        simp [hw] at this
    · rw [Bool.not_eq_true] at hw
      rw [List.foldl_cons, add_of_not_accepts hw, ih]
      simp [hw]

end WarningLog

/-! ## Failures -/

namespace Conversion

variable {c : Conversion}

/-- What is said about an item of a script, whatever becomes of it. -/
def itemWarnings (c : Conversion) (item : Text) : List Warning :=
  Notice.warnings (c.scriptStatement item).notices

/-- An input fails with an error, and before it the warnings were given. -/
inductive Fails (c : Conversion) : Session.Input → ConversionError → List Warning → Prop
  | rejected {sql : Text} : Rejected c.direction sql →
    Fails c (.statement sql) (.ofStatement sql) []
  | lossy {sql line : Text} {before after : List Text} {w : Warning} :
    c.strict = true → ¬ Rejected c.direction sql →
    (layout c.direction sql).definitions = before ++ line :: after →
    (∀ x ∈ before, ∀ v, ¬ LosesType c.types c.direction (Script.tableName? (Script.body sql)) x v) →
    LosesType c.types c.direction (Script.tableName? (Script.body sql)) line w →
    Fails c (.statement sql) (.lossyConversion w) ((before ++ [line]).flatMap fun x =>
      (convert c.types c.direction (Script.tableName? (Script.body sql)) x).warnings)
  | script {text item : Text} {before after : List Text} {e : ConversionError}
    {ws : List Warning} :
    scriptItems text = before ++ item :: after →
    (∀ x ∈ before, Script.isPlainCreateTable x = true → ∃ out, (c.statement x).value = .ok out) →
    Script.isPlainCreateTable item = true → Fails c (.statement item) e ws →
    Fails c (.script text) e (before.flatMap c.itemWarnings ++ ws)

def error? (c : Conversion) : Session.Input → Option ConversionError
  | .statement sql => (c.statement sql).error?
  | .script text => (c.script text).error?

/-! ## A statement -/

theorem warnings_settle_strict (o : Outcome) :
    Notice.warnings (settle true o).notices = o.warnings := by
  rw [settle, warnings_bind rfl, warnings_warn]
  cases o.lossy? with
  | none => exact List.append_nil _
  | some w => exact List.append_nil _

/-- The first loss stops the run. -/
theorem warnings_forM_settle_strict {before after : List Outcome} {o : Outcome}
    (hbefore : ∀ x ∈ before, x.lossy? = none) (ho : o.lossy?.isSome = true) :
    Notice.warnings ((before ++ o :: after).forM (settle true)).notices
      = (before ++ [o]).flatMap Outcome.warnings := by
  induction before with
  | nil =>
    obtain ⟨w, hw⟩ := Option.isSome_iff_exists.1 ho
    have hstop : (settle true o).value = .error (.lossyConversion w) := by
      simp [value_settle, hw]
    show Notice.warnings (settle true o >>= fun _ => after.forM (settle true)).notices = _
    rw [Traced.bind_of_error hstop, warnings_settle_strict]
    simp
  | cons x before ih =>
    have hgo : (settle true x).value = .ok () := by
      simp [value_settle, hbefore x (by simp)]
    show Notice.warnings
      (settle true x >>= fun _ => (before ++ o :: after).forM (settle true)).notices = _
    rw [warnings_bind hgo, warnings_settle_strict, ih fun y hy => hbefore y (by simp [hy])]
    simp

theorem warnings_convertLayout_of_loss (hc : c.strict = true) {table? : Option Text} {l : Layout}
    {line : Text} {before after : List Text} {w : Warning}
    (hl : l.definitions = before ++ line :: after)
    (hbefore : ∀ x ∈ before, ∀ v, ¬ LosesType c.types c.direction table? x v)
    (hline : LosesType c.types c.direction table? line w) :
    Notice.warnings (c.convertLayout table? l).notices
      = (before ++ [line]).flatMap fun x => (convert c.types c.direction table? x).warnings := by
  have hnone : ∀ o ∈ before.map (convert c.types c.direction table?), o.lossy? = none := by
    intro o ho
    obtain ⟨x, hx, rfl⟩ := List.mem_map.1 ho
    exact lossy?_convert_eq_none_iff.2 (hbefore x hx)
  have hsome : (convert c.types c.direction table? line).lossy? = some w :=
    lossy?_convert_eq_some_iff.2 hline
  have hos : c.outcomes table? l = before.map (convert c.types c.direction table?)
      ++ convert c.types c.direction table? line :: after.map (convert c.types c.direction table?) := by
    simp [outcomes, hl]
  have hstop : ((c.outcomes table? l).forM (settle true)).value
      = .error (.lossyConversion w) := by
    have hfirst : (c.outcomes table? l).findSome? Outcome.lossy? = some w := by
      rw [hos, List.findSome?_append, List.findSome?_eq_none_iff.2 hnone, List.findSome?_cons, hsome]
      rfl
    rw [value_forM_settle, if_pos rfl, hfirst]
  unfold convertLayout
  rw [← outcomes, hc, Traced.bind_of_error hstop]
  show Notice.warnings ((c.outcomes table? l).forM (settle true)).notices = _
  rw [hos, warnings_forM_settle_strict hnone (by simp [hsome])]
  simp [List.flatMap_map]

theorem error_statement_iff {sql : Text} {e : ConversionError} :
    (c.statement sql).value = .error e ↔ ∃ ws, c.Fails (.statement sql) e ws := by
  by_cases hr : Rejected c.direction sql
  · rw [value_of_rejected hr]
    constructor
    · rintro ⟨⟩
      exact ⟨[], .rejected hr⟩
    · rintro ⟨ws, h⟩
      cases h with
      | rejected _ => rfl
      | lossy _ hn => exact absurd hr hn
  · by_cases hc : c.strict = true
    · constructor
      · intro h
        have hw : ∃ w, e = .lossyConversion w := by
          rw [value_of_not_rejected hr] at h
          split at h
          · next w _ => exact ⟨w, (Except.error.inj h).symm⟩
          · cases h
        obtain ⟨w, rfl⟩ := hw
        obtain ⟨before, line, after, hl, hline, hbefore⟩ := (error_strict_iff hc hr).1 h
        exact ⟨_, .lossy hc hr hl hbefore hline⟩
      · rintro ⟨ws, h⟩
        cases h with
        | rejected h => exact absurd h hr
        | lossy _ _ hl hbefore hline =>
          exact (error_strict_iff hc hr).2 ⟨_, _, _, hl, hline, hbefore⟩
    · rw [value_lenient (by simpa using hc) hr]
      constructor
      · intro h
        cases h
      · rintro ⟨ws, h⟩
        cases h with
        | rejected h => exact absurd h hr
        | lossy h => exact absurd h hc

theorem Fails.warnings_statement {sql : Text} {e : ConversionError} {ws : List Warning}
    (h : c.Fails (.statement sql) e ws) : Notice.warnings (c.statement sql).notices = ws := by
  cases h with
  | rejected hr => exact warnings_of_rejected hr
  | lossy hc hr hl hbefore hline =>
    obtain ⟨hp, hcrowded⟩ := not_rejected_iff.1 hr
    rw [statement_eq, if_pos hp, warnings_bind rfl, hcrowded]
    exact warnings_convertLayout_of_loss hc hl hbefore hline

/-! ## A script -/

theorem value_scriptStatement_eq_ok_iff {item : Text} :
    (∃ r, (c.scriptStatement item).value = .ok r) ↔
      (Script.isPlainCreateTable item = true → ∃ out, (c.statement item).value = .ok out) := by
  by_cases hp : Script.isPlainCreateTable item = true
  · rw [scriptStatement_of_plain hp, Traced.value_bind]
    cases (c.statement item).value with
    | ok out => simp [Except.bind]
    | error e => simp [Except.bind, hp]
  · rw [Bool.not_eq_true] at hp
    simp [scriptStatement_of_not_plain hp, hp]

theorem value_scriptStatement_eq_error_iff {item : Text} {e : ConversionError} :
    (c.scriptStatement item).value = .error e ↔
      Script.isPlainCreateTable item = true ∧ (c.statement item).value = .error e := by
  by_cases hp : Script.isPlainCreateTable item = true
  · rw [scriptStatement_of_plain hp, Traced.value_bind]
    cases (c.statement item).value with
    | ok out => simp [Except.bind]
    | error e' => simp [Except.bind, hp]
  · rw [Bool.not_eq_true] at hp
    simp [scriptStatement_of_not_plain hp, hp]

section
variable {ε α β : Type} {f : α → Traced ε β}

/-- Of a run over a list the first error is the run's. -/
theorem value_mapM_eq_error_iff {l : List α} {e : ε} :
    (l.mapM f).value = .error e ↔ ∃ before a after, l = before ++ a :: after
      ∧ (∀ x ∈ before, ∃ b, (f x).value = .ok b) ∧ (f a).value = .error e := by
  induction l with
  | nil => simp [List.mapM_nil]
  | cons a l ih =>
    rw [List.mapM_cons, Traced.value_bind]
    cases ha : (f a).value with
    | error e' =>
      constructor
      · rintro ⟨⟩
        exact ⟨[], a, l, rfl, by simp, ha⟩
      · rintro ⟨before, x, after, hl, hbefore, hx⟩
        cases before with
        | nil =>
          obtain ⟨rfl, -⟩ := List.cons.inj hl
          obtain rfl : e' = e := Except.error.inj (ha.symm.trans hx)
          rfl
        | cons y before =>
          obtain ⟨rfl, -⟩ := List.cons.inj hl
          obtain ⟨b, hb⟩ := hbefore a (by simp)
          rw [ha] at hb
          cases hb
    | ok b =>
      have hrest : (l.mapM f >>= fun bs => pure (b :: bs)).value = .error e
          ↔ (l.mapM f).value = .error e := by
        rw [Traced.value_bind]
        cases (l.mapM f).value with
        | ok bs => simp [Except.bind]
        | error e' => simp [Except.bind]
      refine hrest.trans (ih.trans ⟨?_, ?_⟩)
      · rintro ⟨before, x, after, rfl, hbefore, hx⟩
        exact ⟨a :: before, x, after, rfl, List.forall_mem_cons.2 ⟨⟨b, ha⟩, hbefore⟩, hx⟩
      · rintro ⟨before, x, after, hl, hbefore, hx⟩
        cases before with
        | nil =>
          obtain ⟨rfl, -⟩ := List.cons.inj hl
          rw [ha] at hx
          cases hx
        | cons y before =>
          obtain ⟨rfl, rfl⟩ := List.cons.inj hl
          exact ⟨before, x, after, rfl, fun z hz => hbefore z (by simp [hz]), hx⟩

theorem notices_mapM_of_error {before after : List α} {a : α} {e : ε}
    (hbefore : ∀ x ∈ before, ∃ b, (f x).value = .ok b) (ha : (f a).value = .error e) :
    ((before ++ a :: after).mapM f).notices
      = (before.flatMap fun x => (f x).notices) ++ (f a).notices := by
  induction before with
  | nil => rw [List.nil_append, List.mapM_cons, Traced.bind_of_error ha]; rfl
  | cons x before ih =>
    obtain ⟨b, hb⟩ := hbefore x (by simp)
    rw [List.cons_append, List.mapM_cons, Traced.bind_of_ok hb]
    simp only [Traced.notices_bind_pure]
    rw [ih fun y hy => hbefore y (by simp [hy])]
    simp

end

theorem value_script_eq_error_iff {text : Text} {e : ConversionError} :
    (c.script text).value = .error e
      ↔ ((scriptItems text).mapM c.scriptStatement).value = .error e := by
  rw [value_script]
  cases ((scriptItems text).mapM c.scriptStatement).value with
  | ok results => simp [Except.map]
  | error e' => simp [Except.map]

theorem error_script_iff {text : Text} {e : ConversionError} :
    (c.script text).value = .error e ↔ ∃ ws, c.Fails (.script text) e ws := by
  rw [value_script_eq_error_iff, value_mapM_eq_error_iff]
  constructor
  · rintro ⟨before, item, after, hl, hbefore, hitem⟩
    obtain ⟨hp, he⟩ := value_scriptStatement_eq_error_iff.1 hitem
    obtain ⟨ws, hws⟩ := error_statement_iff.1 he
    exact ⟨_, .script hl (fun x hx => value_scriptStatement_eq_ok_iff.1 (hbefore x hx)) hp hws⟩
  · rintro ⟨ws, h⟩
    cases h with
    | script hl hbefore hp hitem =>
      exact ⟨_, _, _, hl, fun x hx => value_scriptStatement_eq_ok_iff.2 (hbefore x hx),
        value_scriptStatement_eq_error_iff.2 ⟨hp, error_statement_iff.2 ⟨_, hitem⟩⟩⟩

theorem Fails.warnings {input : Session.Input} {e : ConversionError} {ws : List Warning}
    (h : c.Fails input e ws) : Session.warnings c input = ws := by
  cases h with
  | rejected hr => exact (Fails.rejected hr).warnings_statement
  | lossy hc hr hl hbefore hline => exact (Fails.lossy hc hr hl hbefore hline).warnings_statement
  | @script text item before after e ws hl hbefore hp hitem =>
    have hstop : (c.scriptStatement item).value = .error e :=
      value_scriptStatement_eq_error_iff.2 ⟨hp, error_statement_iff.2 ⟨_, hitem⟩⟩
    have hsaid : Notice.warnings (c.scriptStatement item).notices = ws := by
      rw [scriptStatement_of_plain hp, Traced.notices_bind_pure, hitem.warnings_statement]
    have hnotices : ((before ++ item :: after).mapM c.scriptStatement).notices = _ :=
      notices_mapM_of_error (fun x hx => value_scriptStatement_eq_ok_iff.2 (hbefore x hx)) hstop
    show Notice.warnings (c.script text).notices = _
    rw [warnings_script, hl, hnotices, warnings_append, hsaid]
    congr 1
    simp only [Notice.warnings, List.filterMap_flatMap]
    rfl

/-! ## Losses -/

theorem isLoss_of_mem_convert {m : TypeMap} {d : Direction} {table? : Option Text} {line : Text}
    {w : Warning} (h : w ∈ (convert m d table? line).warnings) : w.isLoss = false := by
  rw [convert_eq] at h
  split at h
  · rw [List.mem_singleton.1 h]
    rfl
  · rw [List.mem_append] at h
    cases h with
    | inl h =>
      have hnot := not_isAboutType_updateWarnings h
      cases w with
      | lossyConversion => cases hnot
      | _ => rfl
    | inr h =>
      obtain ⟨_, _, _, _, _, rfl⟩ := unmapped?_convertType_eq_some_iff.1 (Option.mem_toList.1 h)
      rfl

/-- What a strict conversion gives a result for loses nothing. -/
theorem isLoss_of_mem_statement (hc : c.strict = true) {sql out : Text}
    (h : (c.statement sql).value = .ok out) {w : Warning}
    (hw : w ∈ Notice.warnings (c.statement sql).notices) : w.isLoss = false := by
  have hnone := lossless_of_ok hc h
  have hlenient := statement_lenient_of_ok h
  rw [hlenient] at h hw
  by_contra hloss
  rw [Bool.not_eq_false] at hloss
  have habout : w.isAboutType = true := by
    cases w with
    | lossyConversion => rfl
    | _ => cases hloss
  obtain ⟨line, hline, hlost⟩ := (mem_warnings_statement_iff rfl h).1 ⟨hw, habout⟩
  cases hlost with
  | inl hlost =>
    have htable : Script.tableName? (Script.body sql) = Script.tableName? sql := by
      rw [Script.tableName?, Script.body_body]
      rfl
    have := List.findSome?_eq_none_iff.1 hnone _ (List.mem_map_of_mem hline)
    rw [htable, lossy?_convert_eq_none_iff] at this
    exact this w hlost
  | inr hunknown =>
    obtain ⟨_, _, _, _, _, _, rfl⟩ := hunknown
    cases hloss

theorem Fails.isLoss_eq_false (hc : c.strict = true) {input : Session.Input} {e : ConversionError}
    {ws : List Warning} (h : c.Fails input e ws) : ∀ w ∈ ws, w.isLoss = false := by
  induction h with
  | rejected _ => simp
  | lossy _ _ _ _ _ =>
    intro w hw
    obtain ⟨line, -, hw⟩ := List.mem_flatMap.1 hw
    exact isLoss_of_mem_convert hw
  | script _ hbefore _ _ ih =>
    intro w hw
    rw [List.mem_append, List.mem_flatMap] at hw
    rcases hw with ⟨x, hx, hw⟩ | hw
    · unfold itemWarnings at hw
      by_cases hp : Script.isPlainCreateTable x = true
      · obtain ⟨out, hout⟩ := hbefore x hx hp
        rw [scriptStatement_of_plain hp, Traced.notices_bind_pure] at hw
        exact isLoss_of_mem_statement hc hout hw
      · rw [scriptStatement_of_not_plain (by simpa using hp)] at hw
        rw [List.mem_singleton.1 hw]
        rfl
    · exact ih w hw

end Conversion

namespace Session

open Conversion

/-- A failure changes nothing of a session but its log, and the log only by the warnings that were
given before it. So the session is as it was exactly where the log accepts none of them. A strict
session has no loss among them. -/
theorem after_of_error (s : Session) (input : Input) (e : ConversionError) :
    (s.conversion.error? input = some e ↔ ∃ ws, s.conversion.Fails input e ws) ∧
    ∀ ws, s.conversion.Fails input e ws →
      s.after input = { s with log := ws.foldl .add s.log } ∧
      (s.after input = s ↔ ∀ w ∈ ws, s.log.accepts w = false) ∧
      (s.conversion.strict = true → ∀ w ∈ ws, w.isLoss = false) := by
  constructor
  · cases input with
    | statement sql => exact Traced.error?_eq_some_iff.trans error_statement_iff
    | script text => exact Traced.error?_eq_some_iff.trans error_script_iff
  · intro ws h
    have hafter : s.after input = { s with log := ws.foldl .add s.log } := by
      rw [log_after, h.warnings]
    refine ⟨hafter, ?_, fun hc => h.isLoss_eq_false hc⟩
    rw [hafter, ← WarningLog.foldl_add_eq_self_iff]
    constructor
    · exact congrArg log
    · intro hlog
      rw [hlog]

/-- A script whose second statement fails, behind one with something to say. -/
theorem after_of_error_second_statement :
    let s : Session := ⟨{ direction := .mysqlToSqlite, strict := true }, default⟩
    let first := "CREATE TABLE a (\n  shape GEOMETRY\n);".toList
    let second := "CREATE TABLE b (\n  id INT,\n  price DECIMAL(10,2)\n);".toList
    let e : ConversionError := .lossyConversion (.lossyConversion "DECIMAL(10,2)".toList
      "REAL".toList (some "b".toList) (some "price".toList))
    let w : Warning := .unmappedType "GEOMETRY".toList (some "a".toList) (some "shape".toList)
    let input : Input := .script (first ++ '\n' :: second)
    s.conversion.Fails input e [w] ∧ s.after input = { s with log := s.log.add w }
      ∧ s.after input ≠ s ∧ w.isLoss = false := by
  intro s first second e w input
  have hsecond : s.conversion.Fails (.statement second) e [] := by
    have hsaid : (["id INT".toList] ++ ["price DECIMAL(10,2)".toList]).flatMap (fun x =>
        (convert s.conversion.types .mysqlToSqlite (Script.tableName? (Script.body second)) x).warnings)
          = [] := by
      decide +kernel
    have hdefinitions : (layout .mysqlToSqlite second).definitions
        = ["id INT".toList] ++ "price DECIMAL(10,2)".toList :: [] := by
      decide +kernel
    have haccepted : ¬ Rejected .mysqlToSqlite second := by
      unfold Rejected
      decide +kernel
    rw [← hsaid]
    refine .lossy rfl haccepted hdefinitions ?_ (lossy?_convert_eq_some_iff.1 (by decide +kernel))
    intro x hx
    obtain rfl := List.mem_singleton.1 hx
    exact lossy?_convert_eq_none_iff.1 (by decide +kernel)
  have hfails : s.conversion.Fails input e [w] := by
    have hsaid : [first].flatMap s.conversion.itemWarnings ++ [] = [w] := by decide +kernel
    have hitems : scriptItems (first ++ '\n' :: second) = [first] ++ second :: [] := by
      decide +kernel
    rw [← hsaid]
    refine .script hitems ?_ (by decide +kernel) hsecond
    intro x hx _
    obtain rfl := List.mem_singleton.1 hx
    exact ⟨"CREATE TABLE a (\n  shape GEOMETRY\n);".toList, by decide +kernel⟩
  obtain ⟨hafter, hsame, hloss⟩ := (after_of_error s input e).2 _ hfails
  have haccepts : s.log.accepts w = true := by decide +kernel
  refine ⟨hfails, hafter, fun h => ?_, hloss rfl w (by simp)⟩
  rw [hsame.1 h w (by simp)] at haccepts
  cases haccepts

/-- An unknown type comes before the loss, and the log has it afterwards. -/
theorem after_ne_of_error :
    let s : Session := ⟨{ direction := .mysqlToSqlite, strict := true }, default⟩
    let sql := "CREATE TABLE t (\n  shape GEOMETRY,\n  price DECIMAL(10,2)\n);".toList
    (∃ e, s.conversion.error? (.statement sql) = some e) ∧ s.log.kept = []
      ∧ (s.after (.statement sql)).log.kept
        = [.unmappedType "GEOMETRY".toList (some "t".toList) (some "shape".toList)] := by
  intro s sql
  have herror : s.conversion.error? (.statement sql) = some (.lossyConversion
      (.lossyConversion "DECIMAL(10,2)".toList "REAL".toList (some "t".toList)
        (some "price".toList))) := by
    decide +kernel
  exact ⟨⟨_, herror⟩, rfl, by decide +kernel⟩

end Session

end SchemaDialects
