import SchemaDialects.Proofs.Conversion.Comments
import SchemaDialects.Proofs.Conversion.Lines
import SchemaDialects.Proofs.Conversion.Strictness
import SchemaDialects.Proofs.Definition.ColumnQuotes

/-!
# Comment clauses in a statement

SQLite has no comments of columns, so a `COMMENT` clause behind a definition should
change nothing. It is taken out of its line last: before that the storage clause
has been dropped, the quotes have been changed, comments have been cut and
attributes taken out, each with a reading of its own of the clause's text. Main
statement: a clause does not count if none of these readers takes its text for
something else than a literal.
-/

namespace SchemaDialects.Conversion

open Text Definition Script

/-! ## The text of a clause -/

/-- The text of a literal as it is where backticks are double quotes. -/
def requotedText (t : Text) : Text := requoteAt '`' '"' ⟨true, false⟩ t

/-- A text that all readers of a statement take for that of a literal. -/
structure IsHarmless (t : Text) : Prop where
  clause : find (anywhere clauseHead) none t = none
  quotes : Quoting.run '`' ⟨true, false⟩ (t ++ ['\'']) = .closed
  literal : IsOneLiteral (requotedText t)
  cleaned : isLiteralText (eraseAll (anywhere onUpdate) (requotedText t)) = true

/-- In a literal with doubled quotes no name is open, so its backticks stay. -/
theorem requotedText_of_hasDoubledQuotes {t : Text} (h : hasDoubledQuotes t = true) :
    requotedText t = t ∧ Quoting.run '`' ⟨true, false⟩ t = ⟨true, false⟩ := by
  have hopen : Quoting.step '`' ⟨true, false⟩ '\'' = .closed := by decide
  have hquote : Quoting.step '`' .closed '\'' = ⟨true, false⟩ := by decide
  have hstep : ∀ {c : Char}, c ≠ '\'' → Quoting.step '`' ⟨true, false⟩ c = ⟨true, false⟩ := by
    intro c hc
    simp [Quoting.step, hc]
  unfold requotedText Quoting.run
  fun_induction hasDoubledQuotes t with
  | case1 => exact ⟨rfl, rfl⟩
  | case2 s ih =>
    obtain ⟨hkept, hrun⟩ := ih h
    rw [requoteAt_cons, requoteAt_cons, hopen, hquote, hkept, List.foldl_cons, List.foldl_cons, hopen,
      hquote]
    exact ⟨rfl, hrun⟩
  | case3 c s ih =>
    simp only [Bool.and_eq_true, bne_iff_ne] at h
    obtain ⟨hkept, hrun⟩ := ih h.2
    rw [requoteAt_cons, requoteAt_cons, hstep (by decide), hstep h.1.1, hkept, List.foldl_cons,
      List.foldl_cons, hstep (by decide), hstep h.1.1]
    exact ⟨by simp, hrun⟩
  | case4 c s _ _ ih =>
    simp only [Bool.and_eq_true, bne_iff_ne] at h
    obtain ⟨hkept, hrun⟩ := ih h.2
    rw [requoteAt_cons, hstep h.1.1.1, hkept, List.foldl_cons, hstep h.1.1.1]
    exact ⟨by simp, hrun⟩

/-- Doubled quotes do no harm, and neither does a backslash before another character
than a quote or a blank. -/
theorem isHarmless_of_hasDoubledQuotes {t : Text} (h : hasDoubledQuotes t = true)
    (hclause : find (anywhere clauseHead) none t = none) : IsHarmless t := by
  obtain ⟨hkept, hrun⟩ := requotedText_of_hasDoubledQuotes h
  refine ⟨hclause, ?_, ?_, ?_⟩
  · rw [Quoting.run_append, hrun]
    decide
  · rw [hkept]
    exact isOneLiteral_of_hasDoubledQuotes h
  · rw [hkept]
    exact isLiteralText_eraseFrom h none (by simp)

theorem commentOf_eq (t : Text) : commentOf t = " COMMENT '".toList ++ (t ++ ['\'']) := rfl

theorem requoteAt_commentOf (t : Text) :
    requoteAt '`' '"' .closed (commentOf t) = commentOf (requotedText t) := by
  have hopen : Quoting.closed.run '`' " COMMENT '".toList = ⟨true, false⟩ := by decide
  have hkept : requoteAt '`' '"' .closed " COMMENT '".toList = " COMMENT '".toList := by decide
  have hquote : ∀ q, requoteAt '`' '"' q ['\''] = ['\''] := fun q =>
    requoteAt_of_not_mem q (by decide)
  rw [commentOf_eq, commentOf_eq, requoteAt_append, requoteAt_append, hopen, hkept, hquote, requotedText]

theorem IsHarmless.run_commentOf {t : Text} (ht : IsHarmless t) :
    Quoting.closed.run '`' (commentOf t) = .closed := by
  have hopen : Quoting.closed.run '`' " COMMENT '".toList = ⟨true, false⟩ := by decide
  rw [commentOf_eq, Quoting.run_append, hopen, ht.quotes]

theorem IsHarmless.dropClause_commentOf {t : Text} (ht : IsHarmless t) (y : Text) :
    dropClause (commentOf t ++ y) = commentOf t ++ dropClause y := by
  have hends : wordEnds ('\'' :: y) = true := by
    simp [wordEnds]
    decide +kernel
  have hnext : continuesHead ('\'' :: y) = false := by
    rw [continuesHead, blanks_quote]
    rfl
  have hquote : dropClause ('\'' :: y) = '\'' :: dropClause y :=
    dropClause_append_of_not_mem (s := ['\'']) (by decide) y
  have htext : dropClause (t ++ '\'' :: y) = t ++ '\'' :: dropClause y := by
    rw [dropClause_append_of_none hends hnext ht.clause, hquote]
  have hword : ')' ∉ " COMMENT '".toList := by decide
  have hsplit : ∀ y, commentOf t ++ y = " COMMENT '".toList ++ (t ++ '\'' :: y) := fun y => by
    rw [commentOf_eq, List.append_assoc, List.append_assoc, List.singleton_append]
  rw [hsplit y, dropClause_append_of_not_mem hword, htext, hsplit]

theorem IsHarmless.dropClauseAfter_commentOf {t : Text} (ht : IsHarmless t) (s y : Text) :
    dropClauseAfter s (commentOf t ++ y) = commentOf t ++ dropClauseAfter s y := by
  unfold dropClauseAfter
  split
  · rfl
  · exact ht.dropClause_commentOf y

/-! ## Behind a definition -/

/-- What follows a definition on its line is blanks, a comma and a comment. -/
def EndsDefinition (e : Text) : Prop :=
  ∃ g z, e = g ++ z ∧ IsGap g ∧ (EndsLine z ∨ g ≠ [] ∧ "--".toList <+: z)

/-- A statement up to the end of a column definition, and the rest `e` of it. The
column is the last line so far; neither a storage clause nor a quote is open in front
of it. -/
structure IsColumnEnd (s e : Text) : Prop where
  plain : isPlainCreateTable s = true
  clause : ClauseEnds (skip .blanks s)
  next : continuesHead e = false
  ends : EndsDefinition e
  column : ∃ above indent column,
    dropClause (skip .blanks s) = above ++ '\n' :: (indent ++ column)
      ∧ Quoting.closed.run '`' above = .closed
      ∧ (∀ c ∈ indent, isBlank c = true ∧ c ≠ '\n') ∧ IsColumn column ∧ '"' ∉ column

theorem dropClause_dashes {z : Text} (h : "--".toList <+: z) : "--".toList <+: dropClause z := by
  obtain ⟨w, rfl⟩ := h
  exact ⟨_, (dropClause_append_of_not_mem (by decide) w).symm⟩

theorem requoteAt_dashes {z : Text} (h : "--".toList <+: z) (q : Quoting) :
    "--".toList <+: requoteAt '`' '"' q z := by
  obtain ⟨w, rfl⟩ := h
  rw [requoteAt_append, requoteAt_of_not_mem q (by decide)]
  exact List.prefix_append _ _

theorem EndsDefinition.rewritten {e : Text} (h : EndsDefinition e) (s : Text) (q : Quoting) :
    EndsDefinition (requoteAt '`' '"' q (dropClauseAfter s e)) := by
  obtain ⟨g, z, rfl, hg, hz⟩ := h
  have hnot : ∀ {x}, isBlank x = false → x ≠ ',' → x ∉ g := by
    intro x hx hcomma hm
    rcases (hg.chars x hm).1 with hb | hc
    · rw [hx] at hb
      cases hb
    · exact hcomma hc
  have hdrop : ∃ z', dropClauseAfter s (g ++ z) = g ++ z'
      ∧ (EndsLine z' ∨ g ≠ [] ∧ "--".toList <+: z') := by
    unfold dropClauseAfter
    split
    · exact ⟨z, rfl, hz⟩
    · refine ⟨dropClause z, dropClause_append_of_not_mem (hnot (by decide) (by decide)) z, ?_⟩
      exact hz.imp endsLine_dropClause (And.imp_right dropClause_dashes)
  obtain ⟨z', hz', hends⟩ := hdrop
  have hkept : requoteAt '`' '"' q g = g := requoteAt_of_not_mem q (hnot (by decide) (by decide))
  refine ⟨g, requoteAt '`' '"' (q.run '`' g) z', by rw [hz', requoteAt_append, hkept], hg, ?_⟩
  exact hends.imp (endsLine_requoteAt · .mysqlToSqlite _) (And.imp_right (requoteAt_dashes · _))

theorem EndsDefinition.head {e : Text} (h : EndsDefinition e) :
    (∀ c ∈ e.head?, isBoundary c) ∧ wordEnds e = true := by
  obtain ⟨g, z, rfl, hg, hz⟩ := h
  cases g with
  | nil =>
    rcases hz with hz | ⟨hne, -⟩
    · have hhead := head_of_endsLine hz
      exact ⟨isBoundary_of_head hhead, wordEnds_of_blank hhead⟩
    · exact absurd rfl hne
  | cons c g =>
    have hc := (hg.chars c (by simp)).1
    have hcomma : isBoundary ',' := ⟨by decide, by decide, by decide⟩
    have hword : isWord ',' = false := not_isWord_of_isAscii (by decide)
    rcases hc with hb | rfl
    · simp [isBoundary_of_isBlank hb, wordEnds, not_isWord_of_isBlank hb]
    · simp [hcomma, wordEnds, hword]

theorem EndsDefinition.split {e : Text} (h : EndsDefinition e) :
    ∃ g c rest, e = g ++ c ++ rest ∧ IsGap g ∧ '\n' ∉ c ∧ (c = [] ∨ g ≠ [] ∧ "--".toList <+: c)
      ∧ EndsLine rest := by
  obtain ⟨g, z, rfl, hg, hz⟩ := h
  rcases hz with hz | ⟨hne, hz⟩
  · exact ⟨g, [], z, by simp, hg, by simp, Or.inl rfl, hz⟩
  · obtain ⟨w, rfl⟩ := hz
    by_cases hw : '\n' ∈ w
    · obtain ⟨u, v, rfl, hu⟩ := List.eq_append_cons_of_mem hw
      exact ⟨g, "--".toList ++ u, '\n' :: v, by simp, hg, by simp [hu],
        Or.inr ⟨hne, List.prefix_append _ _⟩, Or.inr (Or.inl ⟨v, rfl⟩)⟩
    · exact ⟨g, "--".toList ++ w, [], by simp, hg, by simp [hw],
        Or.inr ⟨hne, List.prefix_append _ _⟩, Or.inl rfl⟩

/-! ## The lines of the statement -/

/-- Whatever the definition of a line is, the lines around it stay. -/
theorem exists_contentLines_definition (above : Text) {indent e : Text}
    (hi : ∀ c ∈ indent, isBlank c = true ∧ c ≠ '\n') (he : EndsDefinition e) :
    ∃ ls, ∀ column, IsDefinition column → column.foldl quoteAfter none = none →
      ∃ l, contentLines (above ++ '\n' :: (indent ++ (column ++ e))) = contentLines above ++ l :: ls
        ∧ isClosing l = false ∧ withoutComma l = column := by
  obtain ⟨g, c, rest, rfl, hg, hbreak, hc, hrest⟩ := he.split
  obtain ⟨ls, hls⟩ := hrest.contentLines
  refine ⟨ls, fun column hcolumn hclosed => ?_⟩
  have hl : withoutComma (content (indent ++ (column ++ (g ++ c)))) = column :=
    hcolumn.withoutComma_content hclosed hg hc fun x hx => (hi x hx).1
  have hline : '\n' ∉ indent ++ (column ++ (g ++ c)) := by
    have hindent : '\n' ∉ indent := fun hm => (hi _ hm).2 rfl
    have hgap : '\n' ∉ g := fun hm => (hg.chars _ hm).2 rfl
    simp [hindent, hcolumn.no_break, hgap, hbreak]
  generalize hcontent : content (indent ++ (column ++ (g ++ c))) = l at hl
  have hne : l ≠ [] := by
    rintro rfl
    exact hcolumn.ne_nil hl.symm
  have hclosing : isClosing l = false := by
    have hprefix : withoutComma l <+: l :=
      (isPrefix_dropEndWhile _ _).trans (isPrefix_dropEndWhile _ _)
    obtain ⟨u, hu⟩ := hprefix
    obtain ⟨x, column, rfl⟩ := List.exists_cons_of_ne_nil hcolumn.ne_nil
    rw [← hu, hl]
    exact hcolumn.not_closing
  refine ⟨l, ?_, hclosing, hl⟩
  have hsplit : indent ++ (column ++ (g ++ c ++ rest)) = indent ++ (column ++ (g ++ c)) ++ rest := by
    simp
  rw [hsplit, contentLines_append, hls, contentLines_of_line hline, hcontent, if_neg hne]
  rfl

/-- Two layouts that differ in one definition, which `f` does not tell apart. -/
structure SameUpTo (column column' : Text) (l l' : Layout) : Prop where
  header : l.header = l'.header
  closing : l.closing?.isSome = l'.closing?.isSome
  definitions : ∀ {α : Type} (f : Text → α), f column = f column' →
    l.definitions.map f = l'.definitions.map f

theorem sameUpTo_ofLines {pre : List Text} (post : List Text) (hne : pre ≠ []) {l l' : Text}
    (hl : isClosing l = false) (hl' : isClosing l' = false) :
    SameUpTo (withoutComma l) (withoutComma l') (Layout.ofLines (pre ++ l :: post))
      (Layout.ofLines (pre ++ l' :: post)) := by
  obtain ⟨h, pre, rfl⟩ := List.exists_cons_of_ne_nil hne
  refine ⟨rfl, ?_, fun f hf => ?_⟩
  · show ((pre ++ l :: post).dropWhile _).head?.isSome = ((pre ++ l' :: post).dropWhile _).head?.isSome
    induction pre with
    | nil => simp [hl, hl']
    | cons x pre ih =>
      by_cases hx : isClosing x = true
      · simp [hx]
      · simpa [hx] using ih (by simp)
  · show (((pre ++ l :: post).takeWhile _).map withoutComma).map f
      = (((pre ++ l' :: post).takeWhile _).map withoutComma).map f
    induction pre with
    | nil => simp [hl, hl', hf]
    | cons x pre ih =>
      by_cases hx : isClosing x = true
      · simp [hx]
      · simpa [hx] using ih (by simp)

theorem output_of_sameUpTo {c : Conversion} {column column' : Text} {l l' : Layout}
    (h : SameUpTo column column' l l')
    (hline : (convert c.types c.direction none column).line?
      = (convert c.types c.direction none column').line?)
    (hauto : (convert c.types c.direction none column).autoColumn?
      = (convert c.types c.direction none column').autoColumn?) : c.output l = c.output l' := by
  have hlines : (c.outcomes none l).map Outcome.line? = (c.outcomes none l').map Outcome.line? := by
    rw [outcomes, outcomes, List.map_map, List.map_map]
    exact h.definitions _ hline
  have hautos : (c.outcomes none l).map Outcome.autoColumn?
      = (c.outcomes none l').map Outcome.autoColumn? := by
    rw [outcomes, outcomes, List.map_map, List.map_map]
    exact h.definitions _ hauto
  have hkept : keptLines (c.outcomes none l) = keptLines (c.outcomes none l') := by
    have hfilter : ∀ os : List Outcome,
        os.filterMap Outcome.line? = (os.map Outcome.line?).filterMap id := fun os => by
      rw [List.filterMap_map]
      rfl
    have hfind : ∀ os : List Outcome,
        os.findSome? Outcome.autoColumn? = (os.map Outcome.autoColumn?).findSome? id := fun os => by
      rw [List.findSome?_map]
      rfl
    rw [keptLines, keptLines, hfilter, hfilter, hfind, hfind, hlines, hautos]
  rw [output, output, h.header, h.closing, hkept]

/-! ## The clause does not count -/

section
variable {s e t : Text} (h : IsColumnEnd s e) (ht : IsHarmless t)
include h

theorem IsColumnEnd.isPlainCreateTable {y : Text} (hy : ∀ c ∈ y.head?, isBoundary c)
    (hends : wordEnds y = true) : isPlainCreateTable (body (s ++ y)) = true := by
  rw [isPlainCreateTable_body]
  exact isPlainCreateTable_append h.plain hy hends

theorem IsColumnEnd.exists_requoted : ∃ above indent column,
    Conversion.requoted .mysqlToSqlite (skip .blanks s) = above ++ '\n' :: (indent ++ column)
      ∧ (∀ c ∈ indent, isBlank c = true ∧ c ≠ '\n') ∧ IsColumn column
      ∧ Quoting.closed.run '`' (dropClause (skip .blanks s)) = .closed := by
  obtain ⟨above, indent, column, hs, habove, hi, hcolumn, hquote⟩ := h.column
  obtain ⟨hrequoted, hclosed⟩ := hcolumn.requoteAt hquote
  have hgap : ∀ {x}, isBlank x = false → x ∉ '\n' :: indent := by
    intro x hx hm
    have hb : isBlank x = true := by
      rcases List.mem_cons.1 hm with rfl | hm
      · decide
      · exact (hi x hm).1
    rw [hx] at hb
    cases hb
  have hkept : requoteAt '`' '"' .closed ('\n' :: indent) = '\n' :: indent :=
    requoteAt_of_not_mem _ (hgap (by decide))
  have hrun : Quoting.closed.run '`' ('\n' :: indent) = .closed :=
    run_of_not_mem _ (hgap (by decide)) (hgap (by decide))
  rw [← List.cons_append] at hs
  refine ⟨requoteAt '`' '"' .closed above, indent, requoteAt '`' '"' .closed column, ?_, hi,
    hrequoted, ?_⟩
  · show requoteAt '`' '"' .closed (dropClause (skip .blanks s)) = _
    rw [hs, requoteAt_append, habove, requoteAt_append, hrun, hkept, List.cons_append]
  · rw [hs, Quoting.run_append, habove, Quoting.run_append, hrun, hclosed]

theorem IsColumnEnd.requoted {y : Text} (hy : ∀ c ∈ y.head?, isBoundary c)
    (hends : wordEnds y = true) (hnext : continuesHead y = false) :
    Conversion.requoted .mysqlToSqlite (skip .blanks (s ++ y))
      = Conversion.requoted .mysqlToSqlite (skip .blanks s)
        ++ requoteAt '`' '"' .closed (dropClauseAfter (skip .blanks s) y) := by
  obtain ⟨-, -, -, -, -, -, hclosed⟩ := h.exists_requoted
  rw [skip_append_of_plain h.plain hy]
  have happ := requoted_append (d := .mysqlToSqlite) (fun _ => h.clause) hends fun _ => hnext
  rw [happ]
  show _ ++ requoteAt '`' '"' (Quoting.closed.run '`' (dropClause (skip .blanks s)))
    (dropClauseAfter (skip .blanks s) y) = _
  rw [hclosed]

include ht

theorem IsColumnEnd.sameUpTo (hbreak : '\n' ∉ t) :
    ∃ column, IsColumn column ∧ SameUpTo column (column ++ commentOf (requotedText t))
      (layout .mysqlToSqlite (s ++ e)) (layout .mysqlToSqlite (s ++ (commentOf t ++ e))) := by
  obtain ⟨above, indent, column, hs, hi, hcolumn, -⟩ := h.exists_requoted
  refine ⟨column, hcolumn, ?_⟩
  have hends : EndsDefinition (requoteAt '`' '"' .closed (dropClauseAfter (skip .blanks s) e)) :=
    h.ends.rewritten _ _
  have hplain := h.requoted h.ends.head.1 h.ends.head.2 h.next
  have hclause := h.requoted (y := commentOf t ++ e) (by simp [commentOf_eq, isBoundary])
    (wordEnds_blank _) rfl
  rw [ht.dropClauseAfter_commentOf, requoteAt_append, ht.run_commentOf, requoteAt_commentOf] at hclause
  generalize requoteAt '`' '"' .closed (dropClauseAfter (skip .blanks s) e) = rest at hends hplain hclause
  have hsplit : ∀ y, above ++ '\n' :: (indent ++ column) ++ y
      = above ++ '\n' :: (indent ++ (column ++ y)) := by simp
  have hsplit' : ∀ x, indent ++ (column ++ (x ++ rest)) = indent ++ ((column ++ x) ++ rest) := by simp
  obtain ⟨ls, hls⟩ := exists_contentLines_definition above hi hends
  have hbreak' : '\n' ∉ requotedText t := not_mem_requoteAt (by decide) _ hbreak
  obtain ⟨hcommented, hclosed⟩ := hcolumn.append_commentOf ht.literal hbreak'
  obtain ⟨l, hlines, hclosing, hl⟩ := hls column hcolumn.toIsDefinition hcolumn.closed
  obtain ⟨l', hlines', hclosing', hl'⟩ := hls _ hcommented hclosed
  have hne : contentLines above ≠ [] := by
    obtain ⟨c, w, hw, hc⟩ := exists_start_of_plain h.plain
    obtain ⟨hb, hdash, v, hv⟩ := exists_requoted_cons hc .mysqlToSqlite w
    rw [hw, hv] at hs
    cases above with
    | nil =>
      obtain ⟨rfl, -⟩ := List.cons.inj hs
      exact absurd hc (by decide)
    | cons d above =>
      obtain ⟨rfl, -⟩ := List.cons.inj hs
      exact contentLines_ne_nil hb hdash above
  rw [layout_eq, layout_eq, hplain, hclause, hs, hsplit, hsplit, hsplit', hlines, hlines']
  have hsame := sameUpTo_ofLines ls hne hclosing hclosing'
  rwa [hl, hl'] at hsame

end

/-- Behind a definition line a comment clause leaves the output as it is, if all
readers take its text for that of a literal. -/
theorem value_commentOf {c : Conversion} (hd : c.direction = .mysqlToSqlite) (hs : c.strict = false)
    {s e t : Text} (h : IsColumnEnd s e) (htext : isLiteralText t = true) (ht : IsHarmless t)
    {out : Text} (hout : (c.statement (s ++ e)).value = .ok out) :
    (c.statement (s ++ (commentOf t ++ e))).value = .ok out := by
  obtain ⟨column, hcolumn, hsame⟩ := h.sameUpTo ht (not_mem_of_isLiteralText htext)
  obtain ⟨hline, hauto⟩ := convert_commentOf hcolumn ht.cleaned c.types
  rw [← hd] at hsame hline hauto
  have houtput := output_of_sameUpTo hsame hline.symm hauto.symm
  have hcrowded : (layout c.direction (s ++ (commentOf t ++ e))).isCrowded
      = (layout c.direction (s ++ e)).isCrowded := by
    rw [Layout.isCrowded, Layout.isCrowded, hsame.header]
  have hplain : Script.isPlainCreateTable (body (s ++ (commentOf t ++ e))) = true :=
    h.isPlainCreateTable (by simp [commentOf_eq, isBoundary]) (wordEnds_blank _)
  rw [value_statement, firstLoss?_lenient hs] at hout ⊢
  split at hout
  · next haccepted =>
    rw [if_pos ⟨hplain, hcrowded.trans haccepted.2⟩, ← houtput]
    exact hout
  · cases hout

/-- A text with an apostrophe, dashes, a backtick and what looks like an attribute. -/
theorem value_commentOf_doubled :
    let c : Conversion := { direction := .mysqlToSqlite }
    let s := "CREATE TABLE `t` (\n  `a` INT".toList
    let e := ", -- key\n  `b` INT\n) ENGINE=InnoDB;".toList
    let t := "it''s -- the `key` ON UPDATE CURRENT_TIMESTAMP(3)\\n".toList
    let out := "CREATE TABLE \"t\" (\n  \"a\" INTEGER,\n  \"b\" INTEGER\n);".toList
    c.direction = .mysqlToSqlite ∧ c.strict = false ∧ IsColumnEnd s e ∧ isLiteralText t = true
      ∧ IsHarmless t ∧ (c.statement (s ++ e)).value = .ok out
      ∧ (c.statement (s ++ (commentOf t ++ e))).value = .ok out := by
  intro c s e t out
  have hclause : ClauseEnds (skip .blanks s) := by
    intro lead w hf
    have hnone : find (anywhere clauseHead) none (skip .blanks s) = none := by decide +kernel
    rw [hnone] at hf
    cases hf
  have hends : EndsDefinition e :=
    ⟨", ".toList, "-- key\n  `b` INT\n) ENGINE=InnoDB;".toList, rfl,
      ⟨[], [','], [' '], rfl, by simp, Or.inr rfl, by decide⟩, Or.inr ⟨by decide, _, rfl⟩⟩
  have hcolumn : IsColumn "`a` INT".toList :=
    ⟨⟨⟨by decide, by decide, by decide, by decide, by decide⟩, by decide, by decide⟩, by decide,
      by decide, by decide +kernel⟩
  have hs : IsColumnEnd s e :=
    ⟨by decide +kernel, hclause, by decide +kernel, hends, "CREATE TABLE `t` (".toList, "  ".toList,
      "`a` INT".toList, by decide +kernel, by decide, by decide, hcolumn, by decide⟩
  have hdoubled : hasDoubledQuotes t = true := by decide +kernel
  have htext : isLiteralText t = true := isLiteralText_of_hasDoubledQuotes hdoubled
  have ht : IsHarmless t := isHarmless_of_hasDoubledQuotes hdoubled (by decide +kernel)
  have hout : (c.statement (s ++ e)).value = .ok out := by decide +kernel
  clear_value s e t out
  exact ⟨rfl, rfl, hs, htext, ht, hout, value_commentOf rfl rfl hs htext ht hout⟩

/-- An escaped quote in the text, and what becomes of the names behind it. -/
theorem value_commentOf_escaped_ne :
    let c : Conversion := { direction := .mysqlToSqlite }
    let s := "CREATE TABLE `t` (\n  `a` INT".toList
    let e := ",\n  `b` INT\n);".toList
    let t := "it\\'s".toList
    isLiteralText t = true ∧ '\'' ∉ s ++ e ∧ '"' ∉ s ++ e
      ∧ (c.statement (s ++ e)).value
        = .ok "CREATE TABLE \"t\" (\n  \"a\" INTEGER,\n  \"b\" INTEGER\n);".toList
      ∧ (c.statement (s ++ (commentOf t ++ e))).value
        = .ok "CREATE TABLE \"t\" (\n  \"a\" INTEGER,\n  `b` INTEGER\n);".toList
      ∧ (c.statement (s ++ (commentOf t ++ e))).value ≠ (c.statement (s ++ e)).value := by
  intro c s e t
  have hout : (c.statement (s ++ e)).value
      = .ok "CREATE TABLE \"t\" (\n  \"a\" INTEGER,\n  \"b\" INTEGER\n);".toList := by
    decide +kernel
  have hcomment : (c.statement (s ++ (commentOf t ++ e))).value
      = .ok "CREATE TABLE \"t\" (\n  \"a\" INTEGER,\n  `b` INTEGER\n);".toList := by
    decide +kernel
  refine ⟨by decide +kernel, by decide +kernel, by decide +kernel, hout, hcomment, ?_⟩
  rw [hout, hcomment]
  decide +kernel

end SchemaDialects.Conversion
