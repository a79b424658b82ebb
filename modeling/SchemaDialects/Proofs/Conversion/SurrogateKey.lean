import Mathlib.Algebra.BigOperators.Group.List.Basic
import Mathlib.Algebra.GroupWithZero.Nat
import Mathlib.Data.List.Perm.Basic
import SchemaDialects.Proofs.Conversion.Lines
import SchemaDialects.Proofs.Definition.Literals
import SchemaDialects.Proofs.Definition.PrimaryKey

/-!
# The key of an auto-increment column

Going to SQLite the auto-increment column declares the primary key itself. A key
clause over that column says so a second time, and is to go. Main statement: the
lines of the output declare one key exactly where the clause is
`PRIMARY KEY (column)` and nothing else, with the column spelled as in its own
line.
-/

namespace SchemaDialects.Conversion

open Text Definition

/-- The definition `line` has the marker and is the line of the column `auto`.
Of the others `clause` alone declares a key. -/
structure HasSurrogateKey (m : TypeMap) (definitions : List Text) (auto line clause : Text)
    (others : List Text) : Prop where
  definitions : definitions.Perm (line :: clause :: others)
  column : autoColumn? m .mysqlToSqlite line = some auto
  once : DeclaresAtMostOnce
    (eraseAll (spacedMarker Dialect.mysql.marker) (retyped m .mysqlToSqlite line))
  unmarked : ∀ x ∈ clause :: others, isDropped .mysqlToSqlite x = false →
    occurs (spacedMarker Dialect.mysql.marker) (retyped m .mysqlToSqlite x) = false
  kept : isDropped .mysqlToSqlite clause = false
  declares : keyCount (rewritten m .mysqlToSqlite clause) ≠ 0
  others : ∀ x ∈ others, isDropped .mysqlToSqlite x = false →
    keyCount (rewritten m .mysqlToSqlite x) = 0

/-- The lines that the definitions become, key clauses included. -/
def rewrittenLines (m : TypeMap) (d : Direction) (definitions : List Text) : List Text :=
  (definitions.filter fun line => !isDropped d line).map (rewritten m d)

/-! ## Dropping the clause -/

theorem isSoleKeyOf_iff {auto line : Text} : isSoleKeyOf auto line = true ↔ IsKeyOver auto line := by
  rw [isSoleKeyOf, beq_iff_eq, keyClauseColumns?_eq_singleton_iff]

theorem perm_eraseLast {α : Type} {p : α → Bool} {x : α} {l l' : List α} (h : l.Perm (x :: l'))
    (hx : p x = true) (hl' : ∀ y ∈ l', p y = false) : (eraseLast p l).Perm l' := by
  have hpair : (x :: l').Pairwise fun a b => p a = true → p b = true → False := by
    have hno : ∀ y ∈ l', ¬ p y = true := fun y hy => by simp [hl' y hy]
    exact List.pairwise_cons.2 ⟨fun y hy _ hp => hno y hy hp,
      List.pairwise_of_forall_mem_list fun y hy _ _ hp _ => hno y hy hp⟩
  have herase := List.Perm.eraseP p hpair (h.symm.trans (List.reverse_perm l).symm)
  rw [List.eraseP_cons_of_pos hx] at herase
  exact (List.reverse_perm _).trans herase.symm

theorem findSome?_eq {α β : Type} {f : α → Option β} {l : List α} {x : α} {a : β} (hx : x ∈ l)
    (ha : f x = some a) (hl : ∀ y ∈ l, ∀ b, f y = some b → b = a) : l.findSome? f = some a := by
  cases h : l.findSome? f with
  | none =>
    rw [List.findSome?_eq_none_iff] at h
    rw [h x hx] at ha
    cases ha
  | some b =>
    obtain ⟨y, hy, hb⟩ := List.exists_of_findSome?_eq_some h
    rw [hl y hy b hb]

section
variable {m : TypeMap} {definitions others : List Text} {auto line clause : Text}
variable (h : HasSurrogateKey m definitions auto line clause others)
include h

theorem HasSurrogateKey.respelled : isDropped .mysqlToSqlite line = false
    ∧ respellMarker .mysqlToSqlite (retyped m .mysqlToSqlite line)
      = some (rewritten m .mysqlToSqlite line) := by
  have hcolumn := h.column
  unfold autoColumn? at hcolumn
  split at hcolumn
  · cases hcolumn
  · next hd =>
    obtain ⟨line', hline, -⟩ := Option.bind_eq_some_iff.1 hcolumn
    exact ⟨by simpa using hd, by rw [rewritten, hline, Option.getD_some]⟩

theorem HasSurrogateKey.findSome? :
    definitions.findSome? (autoColumn? m .mysqlToSqlite) = some auto := by
  refine findSome?_eq (h.definitions.mem_iff.2 (by simp)) h.column fun x hx name hname => ?_
  rcases List.mem_cons.1 (h.definitions.mem_iff.1 hx) with rfl | hx
  · exact Option.some.inj (hname.symm.trans h.column)
  · unfold autoColumn? at hname
    split at hname
    · cases hname
    · next hd =>
      have hnone : respellMarker .mysqlToSqlite (retyped m .mysqlToSqlite x) = none :=
        respellMarker_eq_none_iff.2 (h.unmarked x hx (by simpa using hd))
      rw [hnone] at hname
      cases hname

theorem HasSurrogateKey.perm_rewrittenLines :
    (rewrittenLines m .mysqlToSqlite definitions).Perm (rewritten m .mysqlToSqlite line
      :: rewritten m .mysqlToSqlite clause :: rewrittenLines m .mysqlToSqlite others) := by
  have hperm := (h.definitions.filter fun x => !isDropped .mysqlToSqlite x).map
    (rewritten m .mysqlToSqlite)
  simp only [List.filter_cons, h.respelled.1, h.kept, Bool.not_false, if_true, List.map_cons] at hperm
  exact hperm

theorem HasSurrogateKey.keyCount_of_mem {x : Text}
    (hx : x ∈ rewrittenLines m .mysqlToSqlite others) : keyCount x = 0 := by
  obtain ⟨y, hy, rfl⟩ := List.mem_map.1 hx
  obtain ⟨hmem, hd⟩ := List.mem_filter.1 hy
  exact h.others y hmem (by simpa using hd)

/-- No line but the clause is dropped as one. -/
theorem HasSurrogateKey.not_isKeyOver {x : Text} (hx : x ∈ rewritten m .mysqlToSqlite line
    :: rewrittenLines m .mysqlToSqlite others) : isSoleKeyOf auto x = false := by
  rw [Bool.eq_false_iff]
  intro hsole
  have hover := isSoleKeyOf_iff.1 hsole
  rcases List.mem_cons.1 hx with rfl | hx
  · have hnone := keyClauseColumns?_respelled h.respelled.2
    rw [keyClauseColumns?_eq_singleton_iff.2 hover] at hnone
    cases hnone
  · obtain ⟨inner, hclause, -⟩ := hover
    exact hclause.keyCount_ne_zero (h.keyCount_of_mem hx)

/-! ## Counting the keys -/

theorem HasSurrogateKey.sum_others :
    ((rewrittenLines m .mysqlToSqlite others).map keyCount).sum = 0 := by
  refine List.sum_eq_zero fun n hn => ?_
  obtain ⟨x, hx, rfl⟩ := List.mem_map.1 hn
  exact h.keyCount_of_mem hx

theorem HasSurrogateKey.keyCount_line : keyCount (rewritten m .mysqlToSqlite line) = 1 :=
  keyCount_respelled h.respelled.2 h.once

end

/-- The auto-increment column declares the key in its line. No other line does
exactly where the clause names the column as that line does and has nothing else
before or behind it, and then every other line is left as it was. -/
theorem one_key_iff {c : Conversion} (hd : c.direction = .mysqlToSqlite) {sql out : Text}
    {auto line clause : Text} {others : List Text}
    (h : HasSurrogateKey c.types (layout .mysqlToSqlite sql).definitions auto line clause others)
    (hout : (c.statement sql).value = .ok out) :
    ∃ lines, out = c.finish (assemble (layout .mysqlToSqlite sql).header lines
        (layout .mysqlToSqlite sql).closing?.isSome)
      ∧ rewritten c.types .mysqlToSqlite line ∈ lines
      ∧ keyCount (rewritten c.types .mysqlToSqlite line) = 1
      ∧ ((lines.map keyCount).sum = 1 ↔ IsKeyOver auto (rewritten c.types .mysqlToSqlite clause))
      ∧ (IsKeyOver auto (rewritten c.types .mysqlToSqlite clause) →
        lines.Perm (rewritten c.types .mysqlToSqlite line
          :: rewrittenLines c.types .mysqlToSqlite others)) := by
  have hperm := h.perm_rewrittenLines
  have hlines : keptLines (c.outcomes none (layout .mysqlToSqlite sql))
      = eraseLast (isSoleKeyOf auto)
        (rewrittenLines c.types .mysqlToSqlite (layout .mysqlToSqlite sql).definitions) := by
    rw [keptLines, filterMap_line?_outcomes, findSome?_autoColumn?_outcomes, hd, h.findSome?]
    rfl
  refine ⟨_, by rw [eq_output_of_ok hout, hd]; rfl, ?_⟩
  rw [hlines]
  by_cases hover : IsKeyOver auto (rewritten c.types .mysqlToSqlite clause)
  · have hkept := perm_eraseLast (hperm.trans (List.Perm.swap _ _ _)) (isSoleKeyOf_iff.2 hover)
      fun x hx => h.not_isKeyOver hx
    have hsum := (hkept.map keyCount).sum_eq
    rw [List.map_cons, List.sum_cons, h.keyCount_line, h.sum_others] at hsum
    exact ⟨hkept.mem_iff.2 (by simp), h.keyCount_line, iff_of_true hsum hover, fun _ => hkept⟩
  · have hnone : ∀ x ∈ rewrittenLines c.types .mysqlToSqlite (layout .mysqlToSqlite sql).definitions,
        isSoleKeyOf auto x = false := by
      intro x hx
      rcases List.mem_cons.1 ((hperm.trans (List.Perm.swap _ _ _)).mem_iff.1 hx) with rfl | hx
      · exact Bool.eq_false_iff.2 fun hsole => hover (isSoleKeyOf_iff.1 hsole)
      · exact h.not_isKeyOver hx
    rw [eraseLast_of_not_any (List.any_eq_false.2 fun x hx => by simp [hnone x hx])]
    have hsum := (hperm.map keyCount).sum_eq
    have hdeclares := h.declares
    rw [List.map_cons, List.sum_cons, List.map_cons, List.sum_cons, h.keyCount_line,
      h.sum_others] at hsum
    refine ⟨hperm.mem_iff.2 (by simp), h.keyCount_line, iff_of_false (fun hone => ?_) hover,
      fun hyes => absurd hyes hover⟩
    omega

theorem one_key_iff_users :
    let sql := "CREATE TABLE users (\n  `id` INT AUTO_INCREMENT,\n  n INT,\n  KEY k (n),\n".toList
      ++ "  primary  key ( `id` )\n);".toList
    let out := "CREATE TABLE users (\n  \"id\" INTEGER PRIMARY KEY AUTOINCREMENT,\n".toList
      ++ "  n INTEGER\n);".toList
    let c : Conversion := { direction := .mysqlToSqlite }
    let l := layout .mysqlToSqlite sql
    let line := "\"id\" INT AUTO_INCREMENT".toList
    let clause := "primary  key ( \"id\" )".toList
    let others := ["n INT".toList, "KEY k (n)".toList]
    HasSurrogateKey c.types l.definitions "id".toList line clause others
      ∧ (c.statement sql).value = .ok out
      ∧ ∃ lines, out = c.finish (assemble l.header lines l.closing?.isSome)
        ∧ (lines.map keyCount).sum = 1 := by
  intro sql out c l line clause others
  have hdefs : l.definitions = [line, "n INT".toList, "KEY k (n)".toList, clause] := by
    decide +kernel
  have hfind : find primaryKey none
      (eraseAll (spacedMarker Dialect.mysql.marker) (retyped c.types .mysqlToSqlite line)) = none := by
    decide +kernel
  have hover : IsKeyOver "id".toList (rewritten c.types .mysqlToSqlite clause) :=
    keyClauseColumns?_eq_singleton_iff.1 (by decide +kernel)
  have hkey : HasSurrogateKey c.types l.definitions "id".toList line clause others := by
    refine ⟨?_, by decide +kernel, ⟨?_, by decide +kernel, by decide +kernel⟩, by decide +kernel,
      by decide +kernel, by decide +kernel, by decide +kernel⟩
    · rw [hdefs]
      have hclause : (others ++ [clause]).Perm (clause :: others) := List.perm_append_comm
      exact hclause.cons line
    · intro lead rest h
      rw [hfind] at h
      cases h
  have hout : (c.statement sql).value = .ok out := by decide +kernel
  obtain ⟨lines, hlines, -, -, hone, -⟩ := one_key_iff (c := c) rfl hkey hout
  exact ⟨hkey, hout, lines, hlines, hone.2 hover⟩

/-- Over the same column, but with the column in capitals, with a name or with an
index type: the clause stays and the key is declared twice. -/
theorem not_one_key :
    let line := "id INT AUTO_INCREMENT".toList
    let line' := "id INTEGER PRIMARY KEY AUTOINCREMENT".toList
    let sql := fun clause : Text =>
      "CREATE TABLE t (\n  ".toList ++ line ++ ",\n  ".toList ++ clause ++ "\n);".toList
    let out := fun clause : Text =>
      "CREATE TABLE t (\n  ".toList ++ line' ++ ",\n  ".toList ++ clause ++ "\n);".toList
    let c : Conversion := { direction := .mysqlToSqlite }
    ∀ clause ∈ ["PRIMARY KEY (ID)".toList, "CONSTRAINT pk PRIMARY KEY (id)".toList,
        "PRIMARY KEY (id) USING BTREE".toList],
      (layout .mysqlToSqlite (sql clause)).definitions = [line, clause]
        ∧ autoColumn? c.types .mysqlToSqlite line = some "id".toList
        ∧ autoColumn? c.types .mysqlToSqlite clause = none
        ∧ (c.statement (sql clause)).value = .ok (out clause)
        ∧ keyCount line' = 1 ∧ keyCount clause = 1 := by
  decide +kernel

end SchemaDialects.Conversion
