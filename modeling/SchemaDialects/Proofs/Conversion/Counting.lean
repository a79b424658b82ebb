import SchemaDialects.Proofs.Conversion.Lines
import SchemaDialects.Proofs.Definition.Literals

/-!
# Equals signs of the output

Going to SQLite nothing that is put into a statement has an equals sign, so the
output has no more of them than the statement without its storage clause. Main
statement: what the output has of the lines is a part of what the statement has.
-/

namespace SchemaDialects.Conversion

open Text Definition

/-! ## Lines -/

theorem sublist_flatten {α : Type} {l₁ l₂ : List (List α)} (h : l₁.Sublist l₂) :
    l₁.flatten.Sublist l₂.flatten := by
  induction h with
  | slnil => exact .refl _
  | cons a _ ih => exact ih.trans (List.sublist_append_right _ _)
  | cons_cons a _ ih => exact (List.Sublist.refl a).append ih

theorem sublist_flatten_map {f : Text → Text} (h : ∀ line, (f line).Sublist line) (ls : List Text) :
    (ls.map f).flatten.Sublist ls.flatten := by
  induction ls with
  | nil => exact .refl _
  | cons line ls ih => exact (h line).append ih

theorem sublist_splitOn (sep : Char) (s : Text) : (splitOn sep s).flatten.Sublist s := by
  induction s with
  | nil => exact .refl _
  | cons c s ih =>
    rw [splitOn]
    split
    · exact ih.cons c
    · cases h : splitOn sep s with
      | nil => exact absurd h (splitOn_ne_nil sep s)
      | cons p ps =>
        rw [h] at ih
        exact ih.cons_cons c

theorem sublist_content (line : Text) : (content line).Sublist line :=
  (isPrefix_withoutComment _).sublist.trans
    ((isPrefix_dropEndWhile _ _).sublist.trans (List.dropWhile_sublist _))

theorem sublist_contentLines (s : Text) : (contentLines s).flatten.Sublist s := by
  rw [contentLines_eq]
  exact (sublist_flatten List.filter_sublist).trans
    ((sublist_flatten_map sublist_content _).trans (sublist_splitOn _ s))

theorem sublist_withoutComma (line : Text) : (withoutComma line).Sublist line :=
  ((isPrefix_dropEndWhile _ _).trans (isPrefix_dropEndWhile _ _)).sublist

theorem sublist_ofLines (ls : List Text) :
    ((Layout.ofLines ls).header ++ (Layout.ofLines ls).definitions.flatten).Sublist ls.flatten := by
  cases ls with
  | nil => exact .refl _
  | cons header ls =>
    refine (List.Sublist.refl header).append ?_
    exact (sublist_flatten_map sublist_withoutComma _).trans
      (sublist_flatten (List.takeWhile_sublist _))

theorem IsKept.sublist {m : TypeMap} {d : Direction} {definitions kept : List Text}
    (h : IsKept m d definitions kept) : kept.Sublist definitions := by
  rcases h with rfl | ⟨auto, before, clause, after, -, -, hl, rfl⟩
  · exact List.filter_sublist
  · refine List.Sublist.trans ?_ (hl ▸ List.filter_sublist)
    exact (List.Sublist.refl before).append (List.sublist_cons_self clause after)

/-! ## Counting -/

theorem count_cleaned_le (d : Direction) (line : Text) :
    (cleaned d line).count '=' ≤ line.count '=' := by
  cases d with
  | sqliteToMysql => exact Nat.le_refl _
  | mysqlToSqlite =>
    refine Nat.le_trans ((sublist_withoutAttributes _).count_le '=') ?_
    cases h : uniqueKey line with
    | none => rw [withoutUniqueName, h]
    | some rest =>
      obtain ⟨c, m, n, b, rfl, -⟩ := exists_of_uniqueKey h
      rw [withoutUniqueName, h]
      have : "UNIQUE (".toList.count '=' = 0 := by decide
      simp only [List.count_append, List.count_cons, this]
      omega

theorem count_convertType_le (m : TypeMap) (line : Text) :
    (convertType m .mysqlToSqlite none line).line.count '=' ≤ line.count '=' := by
  obtain hsame | ⟨lead, u, t, mapping, -, -, hm, hold, hnew⟩ :=
    line_convertType_cases m .mysqlToSqlite none line
  · rw [hsame]
  · have htarget : mapping.target.count '=' = 0 := by
      obtain ⟨c, hc⟩ := TypeMap.exists_name_eq_target hm
      rw [← hc]
      cases c <;> decide
    rw [hnew, hold]
    simp only [List.count_append, htarget]
    omega

theorem count_rewritten_le (m : TypeMap) (line : Text) :
    (rewritten m .mysqlToSqlite line).count '=' ≤ line.count '=' := by
  have htyped : (retyped m .mysqlToSqlite line).count '=' ≤ line.count '=' :=
    Nat.le_trans (count_convertType_le m _) (count_cleaned_le .mysqlToSqlite line)
  rw [rewritten]
  cases h : respellMarker .mysqlToSqlite (retyped m .mysqlToSqlite line) with
  | none => exact htyped
  | some line' =>
    refine Nat.le_trans ?_ htyped
    have hstrip := (sublist_eraseAll (spacedMarker Dialect.mysql.marker)
      (retyped m .mysqlToSqlite line)).count_le '='
    have hphrase : (keyPhrase .mysqlToSqlite).count '=' = 0 := by decide
    rw [Option.getD_some]
    obtain ⟨-, ⟨-, rfl⟩ | ⟨-, rfl⟩⟩ := respellMarker_cases h
    · have hle := count_replaceFirst_le suffix_of_primaryKey '=' (keyPhrase .mysqlToSqlite)
        (eraseAll (spacedMarker Dialect.mysql.marker) (retyped m .mysqlToSqlite line))
      rw [hphrase] at hle
      exact Nat.le_trans hle hstrip
    · rw [List.count_append, show (' ' :: keyPhrase .mysqlToSqlite).count '=' = 0 by decide]
      exact hstrip

theorem count_flatten_rewritten_le (m : TypeMap) (lines : List Text) :
    (lines.map (rewritten m .mysqlToSqlite)).flatten.count '=' ≤ lines.flatten.count '=' := by
  induction lines with
  | nil => exact Nat.le_refl _
  | cons line lines ih =>
    simp only [List.map_cons, List.flatten_cons, List.count_append]
    exact Nat.add_le_add (count_rewritten_le m line) ih

theorem count_join {x : Char} {sep : Text} (hx : sep.count x = 0) (lines : List Text) :
    (join sep lines).count x = lines.flatten.count x := by
  induction lines with
  | nil => rfl
  | cons line lines ih =>
    cases lines with
    | nil => simp [join]
    | cons line' lines =>
      have hjoin : join sep (line :: line' :: lines) = line ++ sep ++ join sep (line' :: lines) := rfl
      rw [hjoin, List.flatten_cons, List.count_append, List.count_append, List.count_append, ih, hx,
        Nat.add_zero]

theorem count_assemble (header : Text) (lines : List Text) (closed : Bool) :
    (assemble header lines closed).count '=' = header.count '=' + lines.flatten.count '=' := by
  have hclosed : (if closed then "\n)".toList else []).count '=' = 0 := by cases closed <;> decide
  rw [assemble, List.count_append, List.count_append, hclosed]
  split
  · next h => rw [h]; rfl
  · rw [List.count_append, count_join (by decide), show "\n  ".toList.count '=' = 0 by decide]
    omega

theorem count_output_le {c : Conversion} (hd : c.direction = .mysqlToSqlite) (sql : Text) :
    (c.output (layout c.direction sql)).count '='
      ≤ (requoted .mysqlToSqlite (Script.body sql)).count '=' := by
  obtain ⟨kept, hkept, hlines⟩ := exists_isKept c (layout c.direction sql)
  have hfinish : ∀ s : Text, (c.finish s).count '=' = s.count '=' := by
    intro s
    unfold finish
    rw [hd]
    simp only
    split
    · rfl
    · rw [List.count_append]
      rfl
  have hsub := sublist_ofLines (contentLines (requoted .mysqlToSqlite (Script.body sql)))
  have hle := (hsub.trans (sublist_contentLines _)).count_le '='
  have hkle := (sublist_flatten hkept.sublist).count_le '='
  have hmle := count_flatten_rewritten_le c.types kept
  rw [List.count_append] at hle
  rw [output, hfinish, count_assemble, hlines]
  rw [hd] at hkle ⊢
  exact Nat.le_trans (Nat.add_le_add_left (Nat.le_trans hmle hkle) _) hle

/-! ## The storage clause -/

theorem count_requoteAt {x old new : Char} (hold : x ≠ old) (hnew : x ≠ new) (q : Quoting)
    (s : Text) : (requoteAt old new q s).count x = s.count x := by
  induction s generalizing q with
  | nil => rfl
  | cons c s ih =>
    rw [requoteAt_cons]
    split
    · next h =>
      rw [List.count_cons_of_ne (Ne.symm hnew), ih, h.1, List.count_cons_of_ne (Ne.symm hold)]
    · simp only [List.count_cons, ih]

/-- A storage clause has an equals sign, which goes with it. -/
theorem count_dropClause_lt {s : Text} (h : occurs (anywhere storageClause) s = true) :
    (dropClause s).count '=' < s.count '=' := by
  rw [occurs_storageClause] at h
  obtain ⟨⟨lead, w⟩, hfind⟩ := Option.isSome_iff_exists.1 h
  obtain ⟨t, rfl, ht⟩ := append_of_find hfind
  rw [dropClause_of_some hfind]
  obtain ⟨u, hu, ht⟩ := Option.bind_eq_some_iff.1 (show clauseHead t = some w from ht)
  obtain ⟨v, hv, hw⟩ := Option.bind_eq_some_iff.1 ht
  have hsign : ('=' :: w) <:+ t := by
    rw [← exists_of_char hw]
    exact (blanks_suffix v).trans ((keyword_suffix _ hv).trans ((blanks_suffix u).trans
      (char_suffix _ hu)))
  have hafter : afterClause w <:+ w :=
    (optional_suffix (char_suffix ';') _).trans (List.dropWhile_suffix _)
  have hle := hsign.sublist.count_le '='
  have hle' := hafter.sublist.count_le '='
  rw [List.count_cons_self] at hle
  simp only [List.count_append, show ");".toList.count '=' = 0 by decide]
  omega

end SchemaDialects.Conversion
