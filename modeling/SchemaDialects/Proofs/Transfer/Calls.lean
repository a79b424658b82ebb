import SchemaDialects.Proofs.Transfer.Losses

/-!
# The calls of a transfer

A transfer follows a plan: each call is answered by a database, and the answer
decides what comes next. The plan makes the calls that a transfer records, the
source's before the target's, and the target is told nothing until the source has
answered with columns. What goes wrong on either side is handed on as it is.
-/

namespace SchemaDialects.Transfer

/-! ## Plans -/

inductive Call where
  | read (table : Text)
  | create (table : Text) (columns : List Column)
  deriving DecidableEq

/-- The next call, and what each answer to it leads to. -/
inductive Plan (ε τ : Type) where
  | stop (outcome : Except (TransferError ε τ) Unit)
  | read (table : Text) (next : Except ε (List Column) → Plan ε τ)
  | create (table : Text) (columns : List Column) (next : Except τ Unit → Plan ε τ)

variable {ε τ : Type}

/-- The calls that a plan makes of two databases, in their order, and how it ends. -/
def Plan.perform (source : Source ε) (target : Target τ) :
    Plan ε τ → List Call × Except (TransferError ε τ) Unit
  | stop outcome => ([], outcome)
  | read table next =>
    let r := (next (source.columns table)).perform source target
    (.read table :: r.1, r.2)
  | create table columns next =>
    let r := (next (target.create table columns).2).perform source target
    (.create table columns :: r.1, r.2)

/-- The plan of a transfer from a database of the dialect `a` to one of `b`. -/
def plan (m : TypeMap) (table : Text) (a b : Dialect) : Plan ε τ :=
  match Direction.between? a b with
  | none => .stop (.error (.sameDialect a))
  | some d => .read table fun
    | .error e => .stop (.error (.source e))
    | .ok [] => .stop (.error (.emptyTable table))
    | .ok columns => .create table (Column.convertAll m d columns) fun answer =>
      .stop (answer.mapError .target)

/-- The calls that a transfer records. -/
def calls (t : Transfer ε τ) : List Call :=
  t.reads.map .read ++ t.creations.map fun c => .create c.1 c.2

/-! ## Runs by the source's answer -/

section
variable {m : TypeMap} {source : Source ε} {target : Target τ} {d : Direction} {table : Text}

theorem run_of_sameDialect (h : Direction.between? source.dialect target.dialect = none) :
    run m table source target = ⟨.error (.sameDialect source.dialect), [], [], []⟩ := by
  simp only [run, h]

theorem run_of_error {e : ε} (hd : Direction.between? source.dialect target.dialect = some d)
    (hc : source.columns table = .error e) :
    run m table source target = ⟨.error (.source e), [table], [], [.transferStarted table d]⟩ := by
  simp only [run, hd, hc]

theorem run_of_no_columns (hd : Direction.between? source.dialect target.dialect = some d)
    (hc : source.columns table = .ok []) :
    run m table source target
      = ⟨.error (.emptyTable table), [table], [], [.transferStarted table d]⟩ := by
  simp only [run, hd, hc]

theorem reads_toTarget (columns : List Column) :
    (toTarget (ε := ε) m d table columns target).reads = [table] := by
  simp only [toTarget]
  split
  · rfl
  · rfl

theorem calls_of_columns {columns : List Column}
    (hd : Direction.between? source.dialect target.dialect = some d)
    (hc : source.columns table = .ok columns) (hne : columns ≠ []) :
    (run m table source target).calls
      = [.read table, .create table (Column.convertAll m d columns)] := by
  have hreads : (toTarget (ε := ε) m d table columns target).reads = [table] := reads_toTarget columns
  have hcreations : (toTarget (ε := ε) m d table columns target).creations
      = [(table, Column.convertAll m d columns)] := creations_toTarget
  rw [run_of_columns hd hc hne, calls, hreads, hcreations]
  rfl

theorem outcome_of_columns {columns : List Column}
    (hd : Direction.between? source.dialect target.dialect = some d)
    (hc : source.columns table = .ok columns) (hne : columns ≠ []) :
    (run m table source target).outcome
      = (target.create table (Column.convertAll m d columns)).2.mapError .target := by
  rw [run_of_columns hd hc hne]
  exact outcome_toTarget

theorem perform_plan (m : TypeMap) (table : Text) (source : Source ε) (target : Target τ) :
    (plan m table source.dialect target.dialect).perform source target
      = ((run m table source target).calls, (run m table source target).outcome) := by
  unfold plan
  cases hd : Direction.between? source.dialect target.dialect with
  | none => rw [run_of_sameDialect hd]; rfl
  | some d =>
    cases hc : source.columns table with
    | error e => rw [run_of_error hd hc]; simp only [Plan.perform, hc]; rfl
    | ok columns =>
      cases columns with
      | nil => rw [run_of_no_columns hd hc]; simp only [Plan.perform, hc]; rfl
      | cons c cs =>
        rw [calls_of_columns hd hc (List.cons_ne_nil c cs),
          outcome_of_columns hd hc (List.cons_ne_nil c cs)]
        simp only [Plan.perform, hc]

end

/-! ## The transfer -/

theorem mapError_eq_ok_iff {α : Type} {f : τ → TransferError ε τ} {x : Except τ α} {a : α} :
    x.mapError f = .ok a ↔ x = .ok a := by
  cases x with
  | error e => exact iff_of_false nofun nofun
  | ok b => exact ⟨fun h => congrArg _ (Except.ok.inj h), fun h => congrArg _ (Except.ok.inj h)⟩

theorem between?_eq_some_iff {a b : Dialect} {d : Direction} :
    Direction.between? a b = some d ↔ d.source = a ∧ d.target = b := by
  cases a <;> cases b <;> cases d <;> decide

theorem outcome_eq_ok_iff (m : TypeMap) (table : Text) (source : Source ε) (target : Target τ) :
    (run m table source target).outcome = .ok () ↔ ∃ (d : Direction) (columns : List Column),
      d.source = source.dialect ∧ d.target = target.dialect
      ∧ source.columns table = .ok columns ∧ columns ≠ []
      ∧ (target.create table (Column.convertAll m d columns)).2 = .ok () := by
  constructor
  · intro hok
    cases hd : Direction.between? source.dialect target.dialect with
    | none => rw [run_of_sameDialect hd] at hok; cases hok
    | some d =>
      cases hc : source.columns table with
      | error e => rw [run_of_error hd hc] at hok; cases hok
      | ok columns =>
        by_cases hne : columns = []
        · subst hne
          rw [run_of_no_columns hd hc] at hok
          cases hok
        · obtain ⟨hs, ht⟩ := between?_eq_some_iff.1 hd
          rw [outcome_of_columns hd hc hne] at hok
          exact ⟨d, columns, hs, ht, rfl, hne, mapError_eq_ok_iff.1 hok⟩
  · rintro ⟨d, columns, hs, ht, hc, hne, hok⟩
    rw [outcome_of_columns (between?_eq_some_iff.2 ⟨hs, ht⟩) hc hne]
    exact mapError_eq_ok_iff.2 hok

/-- A transfer is all or nothing. It makes the calls of its plan, one after the
other: none within a dialect, otherwise one of the source, and one of the target
behind it exactly if the source answered with columns, which are converted on the
way. The first error is the outcome, and without one the table was created. -/
theorem run_all_or_nothing (m : TypeMap) (table : Text) (source : Source ε) (target : Target τ) :
    let r := run m table source target
    (plan m table source.dialect target.dialect).perform source target = (r.calls, r.outcome)
    ∧ (source.dialect = target.dialect →
      r.calls = [] ∧ r.outcome = .error (.sameDialect source.dialect))
    ∧ (source.dialect ≠ target.dialect → ∃ d : Direction,
      d.source = source.dialect ∧ d.target = target.dialect
      ∧ (∀ e, source.columns table = .error e →
        r.calls = [.read table] ∧ r.outcome = .error (.source e))
      ∧ (source.columns table = .ok [] →
        r.calls = [.read table] ∧ r.outcome = .error (.emptyTable table))
      ∧ ∀ columns, source.columns table = .ok columns → columns ≠ [] →
        r.calls = [.read table, .create table (Column.convertAll m d columns)]
        ∧ (∀ e, (target.create table (Column.convertAll m d columns)).2 = .error e →
          r.outcome = .error (.target e))
        ∧ ((target.create table (Column.convertAll m d columns)).2 = .ok () → r.outcome = .ok ()))
    ∧ (r.outcome = .ok () ↔ ∃ (d : Direction) (columns : List Column),
      d.source = source.dialect ∧ d.target = target.dialect
      ∧ source.columns table = .ok columns ∧ columns ≠ []
      ∧ (target.create table (Column.convertAll m d columns)).2 = .ok ()) := by
  intro r
  refine ⟨perform_plan m table source target, fun h => ?_, fun h => ?_,
    outcome_eq_ok_iff m table source target⟩
  · have hr : r = _ := run_of_sameDialect (Direction.between?_eq_none_iff.2 h)
    exact ⟨congrArg calls hr, congrArg Transfer.outcome hr⟩
  · obtain ⟨d, hd⟩ := Option.ne_none_iff_exists'.1 (mt Direction.between?_eq_none_iff.1 h)
    obtain ⟨hs, ht⟩ := between?_eq_some_iff.1 hd
    refine ⟨d, hs, ht, fun e hc => ?_, fun hc => ?_, fun columns hc hne => ?_⟩
    · have hr := run_of_error (m := m) hd hc
      exact ⟨congrArg calls hr, congrArg Transfer.outcome hr⟩
    · have hr := run_of_no_columns (m := m) hd hc
      exact ⟨congrArg calls hr, congrArg Transfer.outcome hr⟩
    · have hout : r.outcome = _ := outcome_of_columns hd hc hne
      refine ⟨calls_of_columns hd hc hne, fun e he => ?_, fun hok => ?_⟩
      · rw [hout, he]
        rfl
      · rw [hout, hok]
        rfl

end SchemaDialects.Transfer
