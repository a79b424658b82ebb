import SchemaDialects.Conversion.Session
import SchemaDialects.Proofs.Conversion.Lines
import SchemaDialects.Proofs.Script.Closed

/-!
# Converting a script in parts

A script is converted item by item. Where nothing is left open at the end of its
first part, the two parts can be converted one after the other on one session:
the first error is the same, and so are the warnings; without an error the counts
add up, and the output of the second part follows that of the first.
-/

namespace SchemaDialects

open Text

/-! ## Binds -/

namespace Traced

variable {ε α β : Type}

theorem value_bind_eq_ok {x : Traced ε α} {f : α → Traced ε β} {b : β}
    (h : (x >>= f).value = .ok b) : ∃ a, x.value = .ok a ∧ (f a).value = .ok b := by
  cases hx : x.value with
  | error e =>
    rw [bind_of_error hx] at h
    cases h
  | ok a =>
    rw [bind_of_ok hx] at h
    exact ⟨a, rfl, h⟩

theorem notices_bind_pure (x : Traced ε α) (f : α → β) :
    (x >>= fun a => pure (f a)).notices = x.notices := by
  cases h : x.value with
  | error e => rw [bind_of_error h]
  | ok a =>
    rw [bind_of_ok h]
    exact List.append_nil _

end Traced

/-! ## Runs over items -/

/-- The session `s` converts the items one after the other. A plain table definition
is converted to an output; any other item passes with a warning. -/
inductive Session.Converts : Session → List Text → List Text → Session → Prop
  | nil (s : Session) : Converts s [] [] s
  | convert {s s' : Session} {item out : Text} {items outs : List Text} :
    Script.isPlainCreateTable item = true → (s.statement item).value = .ok out →
    Converts (s.statement item).session items outs s' → Converts s (item :: items) (out :: outs) s'
  | skip {s s' : Session} {item : Text} {items outs : List Text} :
    Script.isPlainCreateTable item = false →
    Converts { s with log := s.log.add (Conversion.skippedWarning item) } items outs s' →
    Converts s (item :: items) outs s'

namespace Session

theorem session_absorb_bind {α β : Type} {s : Session} {x : Traced ConversionError α} {a : α}
    (h : x.value = .ok a) (f : α → Traced ConversionError β) :
    (s.absorb (x >>= f)).session = ((s.absorb x).session.absorb (f a)).session := by
  rw [Traced.bind_of_ok h, absorb, WarningLog.absorb_append]
  rfl

theorem session_absorb_congr {α β : Type} (s : Session) {x : Traced ConversionError α}
    {y : Traced ConversionError β} (h : Notice.warnings x.notices = Notice.warnings y.notices) :
    (s.absorb x).session = (s.absorb y).session := by
  unfold absorb
  simp only [WarningLog.absorb_fst, h]

end Session

namespace Conversion

section
variable {c : Conversion} {item : Text}

theorem scriptStatement_of_plain (h : Script.isPlainCreateTable item = true) :
    c.scriptStatement item = c.statement item >>= fun out => pure (some out) := by
  rw [scriptStatement, if_pos h, map_eq_pure_bind]

theorem scriptStatement_of_not_plain (h : Script.isPlainCreateTable item = false) :
    c.scriptStatement item = ⟨[.warning (skippedWarning item)], .ok none⟩ := by
  rw [scriptStatement, h]
  rfl

theorem finish_ne_nil (c : Conversion) (out : Text) : c.finish out ≠ [] := fun h => by
  have := getLast?_finish c out
  rw [h] at this
  cases this

theorem ne_nil_of_ok {sql out : Text} (h : (c.statement sql).value = .ok out) : out ≠ [] := by
  rw [eq_output_of_ok h]
  exact finish_ne_nil c _

end

theorem converts_cons {s s' : Session} {item : Text} {items outs : List Text} {r : Option Text}
    (hr : (s.conversion.scriptStatement item).value = .ok r)
    (h : (s.absorb (s.conversion.scriptStatement item)).session.Converts items outs s') :
    s.Converts (item :: items) (r.toList ++ outs) s' := by
  by_cases hp : Script.isPlainCreateTable item = true
  · rw [scriptStatement_of_plain hp] at hr h
    rw [Session.session_absorb_congr s
      (congrArg Notice.warnings (Traced.notices_bind_pure _ _))] at h
    obtain ⟨out, hout, hsome⟩ := Traced.value_bind_eq_ok hr
    obtain rfl : some out = r := Except.ok.inj hsome
    exact .convert hp hout h
  · rw [Bool.not_eq_true] at hp
    rw [scriptStatement_of_not_plain hp] at hr h
    obtain rfl : none = r := Except.ok.inj hr
    exact .skip hp h

theorem converts_of_ok {s : Session} {items : List Text} {results : List (Option Text)}
    (h : (items.mapM s.conversion.scriptStatement).value = .ok results) :
    s.Converts items (results.filterMap id)
      (s.absorb (items.mapM s.conversion.scriptStatement)).session := by
  induction items generalizing s results with
  | nil =>
    obtain rfl : [] = results := Except.ok.inj h
    exact .nil s
  | cons item items ih =>
    rw [List.mapM_cons] at h ⊢
    obtain ⟨r, hr, h⟩ := Traced.value_bind_eq_ok h
    obtain ⟨rs, hrs, h⟩ := Traced.value_bind_eq_ok h
    obtain rfl : r :: rs = results := Except.ok.inj h
    have hresults : (r :: rs).filterMap id = r.toList ++ rs.filterMap id := by
      cases r with
      | none => rfl
      | some out => rfl
    rw [hresults, Session.session_absorb_bind hr, Session.session_absorb_congr _
      (congrArg Notice.warnings (Traced.notices_bind_pure _ _))]
    exact converts_cons hr (ih hrs)

/-! ## Results -/

section
variable (c : Conversion)

theorem value_script (text : Text) : (c.script text).value =
    ((scriptItems text).mapM c.scriptStatement).value.map fun results =>
      ⟨joinStatements (results.filterMap id), (scriptItems text).length,
        (results.filterMap id).length, (scriptItems text).length - (results.filterMap id).length⟩ := by
  show (((scriptItems text).mapM c.scriptStatement) >>= _).value = _
  rw [Traced.value_bind]
  cases ((scriptItems text).mapM c.scriptStatement).value with
  | error e => rfl
  | ok results => rfl

theorem warnings_append (ms ns : List Notice) :
    Notice.warnings (ms ++ ns) = Notice.warnings ms ++ Notice.warnings ns :=
  List.filterMap_append

theorem warnings_script (text : Text) : Notice.warnings (c.script text).notices
    = Notice.warnings ((scriptItems text).mapM c.scriptStatement).notices := by
  show Notice.warnings (((scriptItems text).mapM c.scriptStatement) >>= _).notices = _
  cases h : ((scriptItems text).mapM c.scriptStatement).value with
  | error e => rw [Traced.bind_of_error h]
  | ok results =>
    rw [Traced.bind_of_ok h, warnings_append]
    exact List.append_nil _

end

theorem session_script (s : Session) (text : Text) : (s.script text).session
    = (s.absorb ((scriptItems text).mapM s.conversion.scriptStatement)).session :=
  Session.session_absorb_congr s (warnings_script s.conversion text)

end Conversion

namespace Session.Converts

variable {s s' : Session} {items outs : List Text}

theorem length_eq (h : Converts s items outs s') :
    outs.length = items.countP Script.isPlainCreateTable := by
  induction h with
  | nil s => rfl
  | convert hp _ _ ih => rw [List.length_cons, ih, List.countP_cons_of_pos hp]
  | skip hp _ ih => rw [ih, List.countP_cons_of_neg (by simp [hp])]

theorem length_le (h : Converts s items outs s') : outs.length ≤ items.length :=
  h.length_eq ▸ List.countP_le_length

theorem ne_nil (h : Converts s items outs s') : ∀ out ∈ outs, out ≠ [] := by
  induction h with
  | nil s => exact List.forall_mem_nil _
  | convert _ ho _ ih => exact List.forall_mem_cons.2 ⟨Conversion.ne_nil_of_ok ho, ih⟩
  | skip _ _ ih => exact ih

end Session.Converts

namespace Conversion

/-! ## Outputs -/

/-- The second output behind the first one, or the only one that holds something. -/
def joined (x y : Text) : Text := if x = [] then y else if y = [] then x else x ++ '\n' :: y

theorem join_append {sep : Text} {xs ys : List Text} (hx : xs ≠ []) (hy : ys ≠ []) :
    join sep (xs ++ ys) = join sep xs ++ sep ++ join sep ys := by
  obtain ⟨y, ys, rfl⟩ := List.exists_cons_of_ne_nil hy
  induction xs with
  | nil => exact absurd rfl hx
  | cons x xs ih =>
    cases xs with
    | nil => rfl
    | cons x' xs =>
      show x ++ sep ++ join sep (x' :: xs ++ y :: ys) = _
      rw [ih (List.cons_ne_nil _ _)]
      simp [join]

theorem join_ne_nil {sep : Text} {xs : List Text} (hx : xs ≠ []) (h : ∀ x ∈ xs, x ≠ []) :
    join sep xs ≠ [] := by
  obtain ⟨x, xs, rfl⟩ := List.exists_cons_of_ne_nil hx
  have hne := h x (by simp)
  cases xs with
  | nil => exact hne
  | cons y xs => simp [join, hne]

theorem joinStatements_of_ne_nil {xs : List Text} (hx : xs ≠ []) (h : ∀ x ∈ xs, x ≠ []) :
    joinStatements xs = join "\n\n".toList xs ++ ['\n'] := by
  have hne : join "\n\n".toList xs ≠ [] := join_ne_nil hx h
  unfold joinStatements
  split
  · next hj => exact absurd hj hne
  · rfl

theorem joinStatements_append {xs ys : List Text} (hx : ∀ x ∈ xs, x ≠ []) (hy : ∀ y ∈ ys, y ≠ []) :
    joinStatements (xs ++ ys) = joined (joinStatements xs) (joinStatements ys) := by
  by_cases hxs : xs = []
  · subst hxs
    rfl
  · have hjx := joinStatements_of_ne_nil hxs hx
    have hnx : joinStatements xs ≠ [] := by rw [hjx]; simp
    rw [joined, if_neg hnx]
    by_cases hys : ys = []
    · subst hys
      rw [List.append_nil]
      exact (if_pos rfl).symm
    · have hjy := joinStatements_of_ne_nil hys hy
      have hny : joinStatements ys ≠ [] := by rw [hjy]; simp
      have hall : ∀ z ∈ xs ++ ys, z ≠ [] := List.forall_mem_append.2 ⟨hx, hy⟩
      rw [if_neg hny, joinStatements_of_ne_nil (by simp [hxs]) hall, hjx, hjy, join_append hxs hys]
      simp

/-! ## Parts -/

theorem scriptItems_append {a : Text} (ha : Script.IsClosed a) (b : Text) :
    scriptItems (a ++ b) = scriptItems a ++ scriptItems b := by
  rw [scriptItems, Script.statements_append ha, List.filter_append]
  rfl

/-- The result of a script whose parts gave `r₁` and `r₂`. -/
def ScriptResult.followedBy (r₁ r₂ : ScriptResult) : ScriptResult :=
  ⟨joined r₁.sql r₂.sql, r₁.processed + r₂.processed, r₁.converted + r₂.converted,
    r₁.skipped + r₂.skipped⟩

theorem value_script_append (s : Session) {a : Text} (ha : Script.IsClosed a) (b : Text) :
    (s.script (a ++ b)).value
      = (s.script a).value.bind fun r₁ => (s.script b).value.map r₁.followedBy := by
  show (s.conversion.script (a ++ b)).value = (s.conversion.script a).value.bind fun r₁ =>
    (s.conversion.script b).value.map r₁.followedBy
  rw [value_script, value_script, value_script, scriptItems_append ha, List.mapM_append]
  cases hx : ((scriptItems a).mapM s.conversion.scriptStatement).value with
  | error e => rw [Traced.bind_of_error hx]; rfl
  | ok xs =>
    rw [Traced.bind_of_ok hx]
    cases hy : ((scriptItems b).mapM s.conversion.scriptStatement).value with
    | error e => rw [Traced.bind_of_error hy]; rfl
    | ok ys =>
      have hxs := converts_of_ok hx
      have hys := converts_of_ok hy
      have hlx := hxs.length_le
      have hly := hys.length_le
      have hsql := joinStatements_append hxs.ne_nil hys.ne_nil
      rw [Traced.bind_of_ok hy]
      show Except.ok _ = Except.ok _
      simp only [ScriptResult.followedBy, List.filterMap_append, List.length_append, hsql,
        Except.ok.injEq, ScriptResult.mk.injEq, true_and]
      omega

theorem session_script_append (s : Session) {a : Text} (ha : Script.IsClosed a) (b : Text) :
    (s.script (a ++ b)).session
      = match (s.script a).value with
        | .ok _ => ((s.script a).session.script b).session
        | .error _ => (s.script a).session := by
  have hvalue : (s.script a).value = _ := value_script s.conversion a
  rw [hvalue, session_script, session_script, session_script, scriptItems_append ha,
    List.mapM_append]
  cases hx : ((scriptItems a).mapM s.conversion.scriptStatement).value with
  | error e => rw [Traced.bind_of_error hx]; rfl
  | ok xs =>
    rw [Session.session_absorb_bind hx]
    exact Session.session_absorb_congr _
      (congrArg Notice.warnings (Traced.notices_bind_pure _ _))

/-- Every item of a script is converted to an output or skipped. -/
theorem converts_script {s : Session} {text : Text} {r : ScriptResult}
    (h : (s.script text).value = .ok r) :
    ∃ outs, s.Converts (scriptItems text) outs (s.script text).session ∧
      r = ⟨joinStatements outs, (scriptItems text).length, outs.length,
        (scriptItems text).length - outs.length⟩ := by
  have hvalue : (s.script text).value = _ := value_script s.conversion text
  rw [h] at hvalue
  cases hx : ((scriptItems text).mapM s.conversion.scriptStatement).value with
  | error e => rw [hx] at hvalue; cases hvalue
  | ok results =>
    rw [hx] at hvalue
    refine ⟨results.filterMap id, ?_, Except.ok.inj hvalue⟩
    rw [session_script]
    exact converts_of_ok hx

theorem bind_map_eq_error_iff {ε α β γ : Type} {x : Except ε α} {y : Except ε β} {f : α → β → γ}
    {e : ε} : (x.bind fun a => y.map (f a)) = .error e
      ↔ x = .error e ∨ (∃ a, x = .ok a) ∧ y = .error e := by
  cases x with
  | error e' => simp [Except.bind]
  | ok a => cases y <;> simp [Except.bind, Except.map]

/-- A closed script and the text behind it are converted as the two would be, one
after the other on one session. Without an error the items of a script are counted
as converted or skipped, and its output is that of its plain table definitions. -/
theorem script_append_closed (s : Session) :
    (∀ a b : Text, Script.IsClosed a →
      let first := s.script a
      let second := first.session.script b
      let both := s.script (a ++ b)
      (∀ e, both.value = .error e ↔
        first.value = .error e ∨ (∃ r, first.value = .ok r) ∧ second.value = .error e) ∧
      (∀ e, first.value = .error e → both.session = first.session) ∧
      (∀ r₁, first.value = .ok r₁ → both.session = second.session) ∧
      ∀ r₁ r₂, first.value = .ok r₁ → second.value = .ok r₂ →
        ∃ r, both.value = .ok r ∧ r.processed = r₁.processed + r₂.processed ∧
          r.converted = r₁.converted + r₂.converted ∧ r.skipped = r₁.skipped + r₂.skipped ∧
          r.sql = joined r₁.sql r₂.sql) ∧
    ∀ text r, (s.script text).value = .ok r →
      r.processed = r.converted + r.skipped ∧ r.processed = (scriptItems text).length ∧
      r.converted = (scriptItems text).countP Script.isPlainCreateTable ∧
      ∃ outs, s.Converts (scriptItems text) outs (s.script text).session ∧
        r.converted = outs.length ∧ r.sql = joinStatements outs := by
  constructor
  · intro a b ha first second both
    have hvalue : both.value = first.value.bind fun r₁ => second.value.map r₁.followedBy :=
      value_script_append s ha b
    have hsession : both.session = match first.value with
      | .ok _ => second.session
      | .error _ => first.session := session_script_append s ha b
    refine ⟨fun e => ?_, fun e hfirst => ?_, fun r₁ hfirst => ?_, fun r₁ r₂ hfirst hsecond => ?_⟩
    · rw [hvalue]
      exact bind_map_eq_error_iff
    · rw [hsession, hfirst]
    · rw [hsession, hfirst]
    · rw [hvalue, hfirst, hsecond]
      exact ⟨_, rfl, rfl, rfl, rfl, rfl⟩
  · intro text r hr
    obtain ⟨outs, houts, rfl⟩ := converts_script hr
    have hle := houts.length_le
    exact ⟨by simp only; omega, rfl, houts.length_eq, outs, houts, rfl, rfl⟩

theorem script_append_closed_table_and_insert :
    Script.IsClosed "CREATE TABLE a (\n  x TEXT\n);\n".toList ∧
    ∃ r, (Session.script ⟨⟨.mysqlToSqlite, default, default, false⟩, default⟩
        ("CREATE TABLE a (\n  x TEXT\n);\n".toList ++ "INSERT INTO a VALUES (';');".toList)).value
      = .ok r ∧ r.processed = 2 ∧ r.converted = 1 ∧ r.skipped = 1 ∧
        r.sql = "CREATE TABLE a (\n  x TEXT\n);\n".toList := by
  have hclosed : Script.IsClosed "CREATE TABLE a (\n  x TEXT\n);\n".toList :=
    .inr ⟨"CREATE TABLE a (\n  x TEXT\n)".toList, ['\n'], rfl, by decide, by decide⟩
  obtain ⟨r, hr, hp, hc, hs, hsql⟩ :=
    ((script_append_closed ⟨⟨.mysqlToSqlite, default, default, false⟩, default⟩).1 _
      "INSERT INTO a VALUES (';');".toList hclosed).2.2.2
        ⟨"CREATE TABLE a (\n  x TEXT\n);\n".toList, 1, 1, 0⟩ ⟨[], 1, 0, 1⟩
        (by decide +kernel) (by decide +kernel)
  exact ⟨hclosed, r, hr, hp, hc, hs, hsql⟩

end Conversion

end SchemaDialects
