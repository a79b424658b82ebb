import SchemaDialects.Proofs.Conversion.LineEnd

/-!
# Comments at the ends of lines

A comment that is put behind a line of a statement should not change what the
statement is converted to. It does not exactly where the comment is neutral.
-/

namespace SchemaDialects.Conversion

open Text Definition Script

/-! ## The same result -/

def sameKind : ConversionError → ConversionError → Bool
  | .unsupportedStatement _, .unsupportedStatement _ => true
  | .lossyConversion _, .lossyConversion _ => true
  | _, _ => false

/-- The same output, or errors of the same kind. -/
def SameResult : Except ConversionError Text → Except ConversionError Text → Prop
  | .ok a, .ok b => a = b
  | .error e, .error e' => sameKind e e' = true
  | _, _ => False

/-- Layouts that differ in their closing lines at most. -/
structure SameShape (l l' : Layout) : Prop where
  header : l.header = l'.header
  definitions : l.definitions = l'.definitions
  closing : l.closing?.isSome = l'.closing?.isSome

theorem SameShape.refl (l : Layout) : SameShape l l := ⟨rfl, rfl, rfl⟩

theorem isSome_lossy_convert (m : TypeMap) (d : Direction) (table : Option Text) (line : Text) :
    (convert m d table line).lossy?.isSome = (convert m d none line).lossy?.isSome := by
  cases d with
  | sqliteToMysql => exact (convertType_without_table m _ table line).2
  | mysqlToSqlite =>
    simp only [convert]
    split
    · rfl
    · exact (convertType_without_table m _ table _).2

theorem isSome_firstLoss {c : Conversion} {l l' : Layout} (h : l.definitions = l'.definitions)
    (table table' : Option Text) :
    (c.firstLoss? table l).isSome = (c.firstLoss? table' l').isSome := by
  have hlossy : ∀ table l, ((c.outcomes table l).findSome? Outcome.lossy?).isSome
      = l.definitions.any fun line => (convert c.types c.direction none line).lossy?.isSome := by
    intro table l
    rw [outcomes, List.findSome?_map, List.isSome_findSome?]
    exact congrArg (List.any l.definitions) (funext fun line => isSome_lossy_convert _ _ table line)
  unfold firstLoss?
  split
  · rw [hlossy, hlossy, h]
  · rfl

theorem output_of_shape {c : Conversion} {l l' : Layout} (h : SameShape l l') :
    c.output l = c.output l' := by
  rw [output, output, h.header, h.closing, outcomes, outcomes, h.definitions]

theorem sameResult_of_shape {c : Conversion} {sql sql' : Text}
    (hp : isPlainCreateTable sql = isPlainCreateTable sql')
    (hl : isPlainCreateTable sql = true →
      SameShape (layout c.direction sql) (layout c.direction sql')) :
    SameResult (c.statement sql).value (c.statement sql').value := by
  rw [value_statement, value_statement, isPlainCreateTable_body, isPlainCreateTable_body, ← hp]
  by_cases hplain : isPlainCreateTable sql = true
  · have hshape := hl hplain
    have hcrowded : (layout c.direction sql).isCrowded = (layout c.direction sql').isCrowded := by
      rw [Layout.isCrowded, Layout.isCrowded, hshape.header]
    rw [← hcrowded]
    split
    · have hloss := isSome_firstLoss (c := c) hshape.definitions (tableName? (body sql))
        (tableName? (body sql'))
      cases h : c.firstLoss? (tableName? (body sql)) (layout c.direction sql) with
      | none =>
        rw [h] at hloss
        have h' := Option.isSome_eq_false_iff.1 hloss.symm
        rw [Option.isNone_iff_eq_none.1 h']
        exact output_of_shape hshape
      | some w =>
        rw [h] at hloss
        obtain ⟨w', hw'⟩ := Option.isSome_iff_exists.1 hloss.symm
        rw [hw']
        rfl
    · rfl
  · rw [if_neg fun h => hplain h.1, if_neg fun h => hplain h.1]
    rfl

/-! ## Before the statement -/

theorem layout_eq (d : Direction) (sql : Text) :
    layout d sql = Layout.ofLines (contentLines (requoted d (skip .blanks sql))) := by
  rw [layout, body_eq, contentLines_requoted_trimEnd]

/-- So far there are blanks and comments only, and no block comment is open. -/
def IsUnstarted (p : Text) : Prop :=
  skip .blanks p = [] ∧ Skipping.after .blanks p ≠ .blockComment

theorem skip_lineComment {u : Text} (hu : '\n' ∉ u) (t : Text) :
    skip .lineComment (u ++ t) = skip .lineComment t := by
  induction u with
  | nil => rfl
  | cons c u ih =>
    have hc : c ≠ '\n' := fun hc => hu (by simp [hc])
    rw [List.cons_append, skip, if_neg hc, ih fun hm => hu (by simp [hm])]

theorem skip_comment {st : Skipping} (hst : st ≠ .blockComment) {x t : Text} (hx : '\n' ∉ x)
    (ht : EndsLine t) : skip st (" -- ".toList ++ x ++ t) = skip st t := by
  have hbreak : '\n' ∉ " -- ".toList ++ x := by simp [hx]
  have hbreak' : '\n' ∉ "- ".toList ++ x := by simp [hx]
  have hline : skip .lineComment t = skip .blanks t := by
    rcases ht with rfl | ⟨u, rfl⟩ | ⟨u, rfl⟩
    · rfl
    · rfl
    · rfl
  cases st with
  | blanks =>
    rw [← hline, ← skip_lineComment hbreak' t]
    rfl
  | lineComment => exact skip_lineComment hbreak t
  | blockComment => exact absurd rfl hst

/-! ## Where a comment can be put -/

/-- The end of a line that the splitter reads as plain text, `p` being the
statement up to there and `t` what follows: before the statement, in a statement
that is no plain table definition, behind the closing line, or where the line
shows the comment. -/
structure LineEnd (d : Direction) (p t : Text) : Prop where
  outside : (Lexical.plain.run p).isOutside = true
  ends : EndsLine t
  place : IsUnstarted p
    ∨ skip .blanks p ≠ [] ∧ isPlainCreateTable (p ++ t) = false
    ∨ isPlainCreateTable p = true ∧ (IsClosed d (skip .blanks p) ∨ IsOpen d (skip .blanks p) t)

theorem skip_append_of_plain {p y : Text} (h : isPlainCreateTable p = true)
    (hy : ∀ c ∈ y.head?, isBoundary c) : skip .blanks (p ++ y) = skip .blanks p ++ y := by
  obtain ⟨m, rest, hs, hw, -⟩ := (isPlainCreateTable_iff p).1 h
  have hne : skip .blanks p ≠ [] := by simp [hs, hw.ends.1]
  rw [skip_append hy, if_neg hne]

/-- A table definition starts with a letter, which requoting keeps. -/
theorem exists_requoted_cons {c : Char} (hc : foldsTo 'C' c = true) (d : Direction) (a : Text) :
    isBlank c = false ∧ c ≠ '-' ∧ ∃ w, requoted d (c :: a) = c :: w := by
  have hne : ∀ x ∈ ['-', ')', '\'', '"', '`'], c ≠ x := by
    intro x hx
    rintro rfl
    have hall : ∀ x ∈ ['-', ')', '\'', '"', '`'], foldsTo 'C' x = false := by decide
    rw [hall _ hx] at hc
    cases hc
  refine ⟨isBlank_of_foldsTo (by decide) hc, hne '-' (by simp), ?_⟩
  have hold : c ≠ oldQuote d := by
    cases d with
    | mysqlToSqlite => exact hne '`' (by simp)
    | sqliteToMysql => exact hne '"' (by simp)
  obtain ⟨a', ha'⟩ : ∃ a', unclaused d (c :: a) = c :: a' := by
    cases d with
    | sqliteToMysql => exact ⟨a, rfl⟩
    | mysqlToSqlite =>
      have hparen : ')' ∉ [c] := by simpa using (hne ')' (by simp)).symm
      exact ⟨_, dropClause_append_of_not_mem hparen a⟩
  rw [requoted_eq, ha', requoteAt_cons, if_neg fun hq => hold hq.1]
  exact ⟨_, rfl⟩

theorem exists_start_of_plain {p : Text} (h : isPlainCreateTable p = true) :
    ∃ c w, skip .blanks p = c :: w ∧ foldsTo 'C' c = true := by
  obtain ⟨m, rest, hm, hw, -⟩ := (isPlainCreateTable_iff p).1 h
  obtain ⟨c, m, rfl, hc⟩ := hw.head
  exact ⟨c, m ++ rest, hm, hc⟩

theorem contentLines_requoted_ne_nil {d : Direction} {p a t : Text}
    (h : isPlainCreateTable p = true) (hs : skip .blanks p = a ++ '\n' :: t) :
    contentLines (requoted d a) ≠ [] := by
  obtain ⟨c, w, hw, hc⟩ := exists_start_of_plain h
  rw [hw] at hs
  cases a with
  | nil =>
    obtain ⟨rfl, -⟩ := List.cons.inj hs
    exact absurd hc (by decide)
  | cons e a =>
    obtain ⟨rfl, -⟩ := List.cons.inj hs
    obtain ⟨hb, hdash, v, hv⟩ := exists_requoted_cons hc d a
    rw [hv]
    exact contentLines_ne_nil hb hdash v

theorem takeWhile_closing (ls : List Text) {cl : Text} (hc : isClosing cl = true)
    (rest : List Text) :
    (ls ++ cl :: rest).takeWhile (fun l => !isClosing l) = ls.takeWhile (fun l => !isClosing l)
      ∧ ((ls ++ cl :: rest).dropWhile fun l => !isClosing l).head?.isSome = true := by
  induction ls with
  | nil => simp [hc]
  | cons l ls ih =>
    by_cases hl : isClosing l = true
    · simp [hl]
    · simp only [List.cons_append]
      rw [List.takeWhile_cons_of_pos (by simpa using hl), List.takeWhile_cons_of_pos (by simpa using hl),
        List.dropWhile_cons_of_pos (by simpa using hl), ih.1]
      exact ⟨rfl, ih.2⟩

/-- The lines behind the closing one are no part of the layout. -/
theorem shape_of_closing {ls : List Text} (hne : ls ≠ []) {cl cl' : Text} (hc : isClosing cl = true)
    (hc' : isClosing cl' = true) (rest rest' : List Text) :
    SameShape (Layout.ofLines (ls ++ cl :: rest)) (Layout.ofLines (ls ++ cl' :: rest')) := by
  obtain ⟨h, ls, rfl⟩ := List.exists_cons_of_ne_nil hne
  obtain ⟨htake, hdrop⟩ := takeWhile_closing ls hc rest
  obtain ⟨htake', hdrop'⟩ := takeWhile_closing ls hc' rest'
  exact ⟨rfl, congrArg (List.map withoutComma) (htake.trans htake'.symm), hdrop.trans hdrop'.symm⟩

/-- Behind the end of a line a neutral comment does not count. -/
theorem sameResult_of_neutral (c : Conversion) {x p t : Text} (hbreak : '\n' ∉ x)
    (hx : IsNeutral c.direction x) (h : LineEnd c.direction p t) :
    SameResult (c.statement (p ++ (" -- ".toList ++ x ++ t))).value (c.statement (p ++ t)).value := by
  have hspace : ∀ e ∈ (" -- ".toList ++ x ++ t).head?, isBlank e = true := by
    intro e he
    obtain rfl := Option.some.inj he
    decide
  have hhead := head_of_endsLine h.ends
  rcases h.place with ⟨hnil, hafter⟩ | ⟨hne, hplain⟩ | ⟨hplain, hplace⟩
  · -- The comment is skipped with the others.
    have hskip : skip .blanks (p ++ (" -- ".toList ++ x ++ t)) = skip .blanks (p ++ t) := by
      rw [skip_append (isBoundary_of_head hspace) .blanks p, if_pos hnil,
        skip_append (isBoundary_of_head hhead) .blanks p, if_pos hnil,
        skip_comment hafter hbreak h.ends]
    have hbody : body (p ++ (" -- ".toList ++ x ++ t)) = body (p ++ t) := by
      rw [body_eq, body_eq, hskip]
    refine sameResult_of_shape ?_ fun _ => ?_
    · rw [isPlainCreateTable, isPlainCreateTable, hbody]
    · rw [layout, hbody]
      exact .refl _
  · have hplain' : isPlainCreateTable (p ++ (" -- ".toList ++ x ++ t)) = false := by
      rw [Bool.eq_false_iff]
      intro hp
      have := isPlainCreateTable_append_head (isPlainCreateTable_of_comment hne hp) hhead
      rw [hplain] at this
      cases this
    refine sameResult_of_shape (hplain'.trans hplain.symm) fun hp => ?_
    rw [hplain'] at hp
    cases hp
  · refine sameResult_of_shape ?_ fun _ => ?_
    · rw [isPlainCreateTable_append_head hplain hspace, isPlainCreateTable_append_head hplain hhead]
    · rw [layout_eq, layout_eq, skip_append_of_plain hplain (isBoundary_of_head hspace),
        skip_append_of_plain hplain (isBoundary_of_head hhead)]
      rcases hplace with hclosed | hopen
      · obtain ⟨a, ⟨u, hs⟩, hlines⟩ := contentLines_of_closed hclosed
        obtain ⟨cl, ls, hc, hcl⟩ := hlines (" -- ".toList ++ x ++ t)
        obtain ⟨cl', ls', hc', hcl'⟩ := hlines t
        rw [hcl, hcl']
        exact shape_of_closing (contentLines_requoted_ne_nil hplain hs) hc hc' ls ls'
      · rw [contentLines_of_open hopen hx hbreak h.ends]
        exact .refl _

/-- A comment with a literal in it, behind a definition with a quoted name. -/
theorem sameResult_of_neutral_literal :
    let c : Conversion := { direction := .mysqlToSqlite }
    let x := "the 'first' one".toList
    let p := "CREATE TABLE `t` (\n  `a` INT,".toList
    let t := "\n  `b` INT\n) ENGINE=InnoDB;".toList
    '\n' ∉ x ∧ IsNeutral c.direction x ∧ LineEnd c.direction p t
      ∧ SameResult (c.statement (p ++ (" -- ".toList ++ x ++ t))).value (c.statement (p ++ t)).value := by
  intro c x p t
  have hbreak : '\n' ∉ x := by decide
  have hx : IsNeutral c.direction x := ⟨by decide, fun _ => by decide +kernel⟩
  have hclause : ClauseClosed c.direction (skip .blanks p) := by
    intro _ lead w h
    have hnone : find (anywhere clauseHead) none (skip .blanks p) = none := by decide +kernel
    rw [hnone] at h
    cases h
  have hopen : IsOpen c.direction (skip .blanks p) t :=
    ⟨hclause, fun _ => by decide +kernel, by decide +kernel, by decide +kernel⟩
  have hplain : isPlainCreateTable p = true := by decide +kernel
  have hout : (Lexical.plain.run p).isOutside = true := by decide +kernel
  have hline : LineEnd c.direction p t :=
    ⟨hout, Or.inr (Or.inl ⟨_, rfl⟩), Or.inr (Or.inr ⟨hplain, Or.inr hopen⟩)⟩
  clear_value x p t
  exact ⟨hbreak, hx, hline, sameResult_of_neutral c hbreak hx hline⟩

/-- An apostrophe in a comment, and what becomes of the names behind it. -/
theorem not_sameResult_apostrophe :
    let c : Conversion := { direction := .mysqlToSqlite }
    let p := "CREATE TABLE `t` (\n  `a` INT,".toList
    let t := "\n  `b` INT\n);".toList
    (Lexical.plain.run p).isOutside = true ∧ EndsLine t
      ∧ (c.statement (p ++ t)).value
        = .ok "CREATE TABLE \"t\" (\n  \"a\" INTEGER,\n  \"b\" INTEGER\n);".toList
      ∧ (c.statement (p ++ (" -- it's".toList ++ t))).value
        = .ok "CREATE TABLE \"t\" (\n  \"a\" INTEGER,\n  `b` INTEGER\n);".toList
      ∧ ¬ SameResult (c.statement (p ++ (" -- it's".toList ++ t))).value
        (c.statement (p ++ t)).value := by
  intro c p t
  have hplain : (c.statement (p ++ t)).value
      = .ok "CREATE TABLE \"t\" (\n  \"a\" INTEGER,\n  \"b\" INTEGER\n);".toList := by
    decide +kernel
  have hcomment : (c.statement (p ++ (" -- it's".toList ++ t))).value
      = .ok "CREATE TABLE \"t\" (\n  \"a\" INTEGER,\n  `b` INTEGER\n);".toList := by
    decide +kernel
  refine ⟨by decide +kernel, Or.inr (Or.inl ⟨_, rfl⟩), hplain, hcomment, ?_⟩
  rw [hplain, hcomment]
  show ¬ (_ = _)
  decide +kernel

end SchemaDialects.Conversion
