import SchemaDialects.Conversion.Session
import SchemaDialects.Proofs.Definition.Rewriting

/-!
# Strict conversion

A strict conversion and a lenient one refuse the same statements. Of the others
the lenient one converts every one, and the strict one stops at the first
definition that loses its type. Where there is none, the two runs are the same.
-/

namespace SchemaDialects.Conversion

open Text Definition

/-- The statement is no plain table definition, or something follows the first
parenthesis of its first line. -/
def Rejected (d : Direction) (sql : Text) : Prop :=
  Script.isPlainCreateTable (Script.body sql) = false ∨ (layout d sql).isCrowded = true

/-- The loss of the first definition that loses its type. -/
def FirstLoss (m : TypeMap) (d : Direction) (sql : Text) (w : Warning) : Prop :=
  ∃ before line after, (layout d sql).definitions = before ++ line :: after
    ∧ LosesType m d (Script.tableName? (Script.body sql)) line w
    ∧ ∀ x ∈ before, ∀ v, ¬ LosesType m d (Script.tableName? (Script.body sql)) x v

/-- The conversion with its strictness set. -/
def withStrict (c : Conversion) (strict : Bool) : Conversion := { c with strict := strict }

@[simp] theorem direction_withStrict (c : Conversion) (strict : Bool) :
    (c.withStrict strict).direction = c.direction := rfl

theorem not_rejected_iff {d : Direction} {sql : Text} :
    ¬ Rejected d sql ↔ Script.isPlainCreateTable (Script.body sql) = true
      ∧ (layout d sql).isCrowded = false := by
  rw [Rejected, not_or, Bool.not_eq_false, Bool.not_eq_true]

/-! ## The first loss -/

theorem firstLoss?_lenient {c : Conversion} (h : c.strict = false) (table? : Option Text)
    (l : Layout) : c.firstLoss? table? l = none := by
  rw [firstLoss?, h]
  rfl

theorem firstLoss?_strict {c : Conversion} (h : c.strict = true) {sql : Text} {w : Warning} :
    c.firstLoss? (Script.tableName? (Script.body sql)) (layout c.direction sql) = some w
      ↔ FirstLoss c.types c.direction sql w := by
  rw [firstLoss?, if_pos h, outcomes, List.findSome?_map, List.findSome?_eq_some_iff]
  simp only [Function.comp_apply, lossy?_convert_eq_some_iff, lossy?_convert_eq_none_iff]
  rfl

/-! ## Values -/

theorem value_of_rejected {c : Conversion} {sql : Text} (h : Rejected c.direction sql) :
    (c.statement sql).value = .error (.ofStatement sql) := by
  exact (value_statement c sql).trans (if_neg fun hp => not_rejected_iff.2 hp h)

theorem value_of_not_rejected {c : Conversion} {sql : Text} (h : ¬ Rejected c.direction sql) :
    (c.statement sql).value =
      match c.firstLoss? (Script.tableName? (Script.body sql)) (layout c.direction sql) with
      | some w => .error (.lossyConversion w)
      | none => .ok (c.output (layout c.direction sql)) := by
  exact (value_statement c sql).trans (if_pos (not_rejected_iff.1 h))

theorem unsupported_iff {c : Conversion} {sql : Text} :
    (∃ p, (c.statement sql).value = .error (.unsupportedStatement p))
      ↔ Rejected c.direction sql := by
  constructor
  · rintro ⟨p, hp⟩
    by_contra h
    rw [value_of_not_rejected h] at hp
    split at hp
    · cases hp
    · cases hp
  · exact fun h => ⟨_, value_of_rejected h⟩

theorem value_lenient {c : Conversion} (hc : c.strict = false) {sql : Text}
    (h : ¬ Rejected c.direction sql) :
    (c.statement sql).value = .ok (c.output (layout c.direction sql)) := by
  rw [value_of_not_rejected h, firstLoss?_lenient hc]

theorem error_strict_iff {c : Conversion} (hc : c.strict = true) {sql : Text}
    (h : ¬ Rejected c.direction sql) {w : Warning} :
    (c.statement sql).value = .error (.lossyConversion w)
      ↔ FirstLoss c.types c.direction sql w := by
  rw [← firstLoss?_strict hc, value_of_not_rejected h]
  cases c.firstLoss? (Script.tableName? (Script.body sql)) (layout c.direction sql) with
  | none => simp
  | some v => simp

/-! ## Notices -/

/-- Of a statement that is rejected no warning is given. -/
theorem warnings_of_rejected {c : Conversion} {sql : Text} (h : Rejected c.direction sql) :
    Notice.warnings (c.statement sql).notices = [] := by
  rw [statement_eq]
  by_cases hp : Script.isPlainCreateTable (Script.body sql) = true
  · have hc : (layout c.direction sql).isCrowded = true := by
      by_contra hc
      exact not_rejected_iff.2 ⟨hp, by simpa using hc⟩ h
    rw [if_pos hp, if_pos hc]
    rfl
  · rw [if_neg hp]
    rfl

theorem settle_of_lossless {o : Outcome} (h : o.lossy? = none) (b b' : Bool) :
    settle b o = settle b' o := by
  rw [settle, settle, h]

theorem forM_settle_of_lossless {os : List Outcome} (h : os.findSome? Outcome.lossy? = none)
    (b b' : Bool) : os.forM (settle b) = os.forM (settle b') := by
  induction os with
  | nil => rfl
  | cons o os ih =>
    have hall := List.findSome?_eq_none_iff.1 h
    have hos : os.findSome? Outcome.lossy? = none :=
      List.findSome?_eq_none_iff.2 fun x hx => hall x (List.mem_cons_of_mem _ hx)
    show (settle b o >>= fun _ => os.forM (settle b)) = (settle b' o >>= fun _ => os.forM (settle b'))
    rw [settle_of_lossless (hall o List.mem_cons_self) b b', ih hos]

theorem convertLayout_of_lossless {c : Conversion} {table? : Option Text} {l : Layout}
    (h : (c.outcomes table? l).findSome? Outcome.lossy? = none) (b b' : Bool) :
    (c.withStrict b).convertLayout table? l = (c.withStrict b').convertLayout table? l := by
  have hsettle := forM_settle_of_lossless h b b'
  rw [outcomes] at hsettle
  simp only [convertLayout, withStrict, hsettle]
  rfl

theorem statement_of_lossless {c : Conversion} {sql : Text}
    (h : (c.outcomes (Script.tableName? (Script.body sql)) (layout c.direction sql)).findSome?
      Outcome.lossy? = none) (b b' : Bool) :
    (c.withStrict b).statement sql = (c.withStrict b').statement sql := by
  rw [statement_eq, statement_eq]
  simp only [direction_withStrict, convertLayout_of_lossless h b b']
  rfl

theorem lossless_of_ok {c : Conversion} (hc : c.strict = true) {sql out : Text}
    (h : (c.statement sql).value = .ok out) :
    (c.outcomes (Script.tableName? (Script.body sql)) (layout c.direction sql)).findSome?
      Outcome.lossy? = none := by
  have hr : ¬ Rejected c.direction sql := by
    intro hr
    rw [value_of_rejected hr] at h
    cases h
  rw [value_of_not_rejected hr, firstLoss?, if_pos hc] at h
  split at h
  · cases h
  · next hl => exact hl

/-- What a strict conversion gives a result for is converted leniently in the same way. -/
theorem statement_lenient_of_ok {c : Conversion} {sql out : Text}
    (h : (c.statement sql).value = .ok out) :
    c.statement sql = (c.withStrict false).statement sql := by
  have hself : ∀ {b : Bool}, c.strict = b → c.withStrict b = c := by
    rintro b rfl
    rfl
  cases hc : c.strict with
  | false => rw [hself hc]
  | true =>
    have hsame := statement_of_lossless (lossless_of_ok hc h) true false
    rwa [hself hc] at hsame

/-! ## Two sessions -/

theorem log_absorb_of_no_warnings {α : Type} (s : Session) {x : Traced ConversionError α}
    (h : Notice.warnings x.notices = []) : (s.absorb x).session.log = s.log := by
  show (s.log.absorb x.notices).1 = s.log
  rw [WarningLog.absorb_fst, h]
  rfl

/-- Both conversions reject the same statements and keep the log then. A statement
that is not rejected is converted leniently, and the strict conversion fails
exactly with the first loss. What the strict one converts the lenient one
converts alike. -/
theorem strict_and_lenient (c : Conversion) (log : WarningLog) (sql : Text) :
    let strict := Session.statement ⟨c.withStrict true, log⟩ sql
    let lenient := Session.statement ⟨c.withStrict false, log⟩ sql
    (((∃ p, strict.value = .error (.unsupportedStatement p)) ↔ Rejected c.direction sql)
      ∧ ((∃ p, lenient.value = .error (.unsupportedStatement p)) ↔ Rejected c.direction sql)
      ∧ (Rejected c.direction sql → strict.session.log = log ∧ lenient.session.log = log))
    ∧ (¬ Rejected c.direction sql → (∃ out, lenient.value = .ok out)
      ∧ ∀ w, strict.value = .error (.lossyConversion w) ↔ FirstLoss c.types c.direction sql w)
    ∧ ∀ out, strict.value = .ok out → lenient.value = .ok out
      ∧ lenient.session.log = strict.session.log ∧ lenient.events = strict.events := by
  intro strict lenient
  have hstrict : strict.value = ((c.withStrict true).statement sql).value := rfl
  have hlenient : lenient.value = ((c.withStrict false).statement sql).value := rfl
  refine ⟨⟨?_, ?_, fun h => ⟨?_, ?_⟩⟩, fun h => ⟨?_, fun w => ?_⟩, fun out h => ?_⟩
  · rw [hstrict]
    exact unsupported_iff (c := c.withStrict true)
  · rw [hlenient]
    exact unsupported_iff (c := c.withStrict false)
  · exact log_absorb_of_no_warnings _ (warnings_of_rejected (c := c.withStrict true) h)
  · exact log_absorb_of_no_warnings _ (warnings_of_rejected (c := c.withStrict false) h)
  · rw [hlenient]
    exact ⟨_, value_lenient (c := c.withStrict false) rfl h⟩
  · rw [hstrict]
    exact error_strict_iff (c := c.withStrict true) rfl h
  · rw [hstrict] at h
    have heq : (c.withStrict false).statement sql = (c.withStrict true).statement sql :=
      statement_of_lossless (lossless_of_ok (c := c.withStrict true) rfl h) false true
    have hlog : lenient.session.log = strict.session.log := by
      show (log.absorb ((c.withStrict false).statement sql).notices).1 = _
      rw [heq]
      rfl
    have hevents : lenient.events = strict.events := by
      show (log.absorb ((c.withStrict false).statement sql).notices).2 = _
      rw [heq]
      rfl
    exact ⟨by rw [hlenient, heq, h], hlog, hevents⟩

end SchemaDialects.Conversion
