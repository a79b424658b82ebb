import SchemaDialects.Proofs.Definition.Literals
import SchemaDialects.Proofs.Definition.Trailing
import SchemaDialects.Proofs.Text.Stops

/-!
# Comments of columns

A column definition with a comment clause at its end. The clause is taken out of
the line, but only after its text has been searched for comments and attributes.
Main statement: where the text closes its quotes and is still a literal without
its attributes, the line is rewritten as it is without the clause.
-/

namespace SchemaDialects.Definition

open Text Script
open Dialect (isMarkerChar)

/-! ## Literals -/

/-- Whether `s` can stand between the quotes of a literal on one line: each quote
in it is doubled or has a backslash. -/
def isLiteralText : Text → Bool
  | [] => true
  | '\'' :: '\'' :: s => isLiteralText s
  | '\\' :: c :: s => c != '\n' && isLiteralText s
  | c :: s => c != '\'' && c != '\\' && c != '\n' && isLiteralText s

theorem isLiteralText_cons {c : Char} (hquote : c ≠ '\'') (hslash : c ≠ '\\') (hbreak : c ≠ '\n')
    (s : Text) : isLiteralText (c :: s) = isLiteralText s := by
  simp [isLiteralText, hquote, hslash, hbreak]

theorem literalRest_of_isLiteralText {s : Text} (h : isLiteralText s = true) :
    literalRest (s ++ ['\'']) = some [] := by
  fun_induction isLiteralText s with
  | case1 => rfl
  | case2 s ih => simp [literalRest, ih h]
  | case3 c s ih =>
    rw [Bool.and_eq_true, bne_iff_ne] at h
    simp [literalRest, h.1, ih h.2]
  | case4 c s hquote hslash ih =>
    simp only [Bool.and_eq_true, bne_iff_ne] at h
    simp [literalRest, h.1.1.1, h.1.1.2, ih h.2]

theorem not_mem_of_isLiteralText {s : Text} (h : isLiteralText s = true) : '\n' ∉ s := by
  fun_induction isLiteralText s with
  | case1 => simp
  | case2 s ih => simp [ih h]
  | case3 c s ih =>
    rw [Bool.and_eq_true, bne_iff_ne] at h
    simp [ih h.2, Ne.symm h.1]
  | case4 c s hquote hslash ih =>
    simp only [Bool.and_eq_true, bne_iff_ne] at h
    simp [ih h.2, Ne.symm h.1.2]

/-- The clause that gives a column the comment `s`, `s` spelled as in a literal. -/
def commentOf (s : Text) : Text := " COMMENT ".toList ++ stringLiteral s

theorem wordEnds_commentOf (s : Text) : wordEnds (commentOf s) = true := wordEnds_blank _

theorem commentClause_commentOf {s : Text} (h : isLiteralText s = true) :
    commentClause (commentOf s) = some [] := by
  have hclause : commentClause (commentOf s) = literalRest (s ++ ['\'']) := rfl
  rw [hclause, literalRest_of_isLiteralText h]

/-! ## Attributes before a place -/

theorem stopsBefore_word {k y : Text} {g : Scanner} (hne : k ≠ [])
    (hk : ∀ x ∈ k, isMarkerChar x = true) (hy : wordEnds y = true)
    (hnone : keyword k (blanks y) = none) (hg : g.StopsBefore y) :
    Scanner.StopsBefore (fun s => blanks1 s >>= fun s => keyword k s >>= g) y := by
  refine stopsBefore_blanks1 ((stopsBefore_keyword (foldsTo_of_wordEnds hk hy)).bind hg) ?_ ?_
  · obtain ⟨x, k, rfl⟩ := List.exists_cons_of_ne_nil hne
    rfl
  · rw [hnone]
    rfl

theorem stopsBefore_precision {y : Text}
    (hy : ∀ c ∈ y.head?, c ≠ '(' ∧ c ≠ ')' ∧ Text.isDigit c = false) :
    Scanner.StopsBefore precision y := by
  have hopen := stopsBefore_char fun c hc => (hy c hc).1
  have hclose := stopsBefore_char fun c hc => (hy c hc).2.1
  have hdigits : y.dropWhile Text.isDigit = y := by
    apply dropWhile_eq_self
    cases y with
    | nil => rfl
    | cons c y => exact (hy c rfl).2.2
  refine hopen.bind (stopsBefore_dropWhile hclose rfl ?_)
  rw [hdigits]
  exact hclose.nil rfl

def updateWords : List Text := ["ON".toList, "UPDATE".toList, "CURRENT_TIMESTAMP".toList]

theorem stopsBefore_onUpdate {y : Text} (hends : wordEnds y = true)
    (hy : ∀ c ∈ y.head?, c ≠ '(' ∧ c ≠ ')' ∧ Text.isDigit c = false)
    (hwords : ∀ k ∈ updateWords, keyword k (blanks y) = none) :
    Scanner.StopsBefore onUpdate y := by
  have heq : onUpdate = fun s => blanks1 s >>= fun s => keyword "ON".toList s >>= fun s =>
      blanks1 s >>= fun s => keyword "UPDATE".toList s >>= fun s =>
      blanks1 s >>= fun s => keyword "CURRENT_TIMESTAMP".toList s >>= fun s =>
      some (Text.optional precision s) := by
    funext s
    simp only [onUpdate, keywords, keywordBlanks, Option.bind_eq_bind, Option.bind_assoc,
      Option.bind_some]
  have hprecision : Scanner.StopsBefore (fun s => some (Text.optional precision s)) y := fun a =>
    congrArg some (stopsBefore_optional (stopsBefore_precision hy) a)
  rw [heq]
  refine stopsBefore_word (by decide) (by decide) hends (hwords _ (by decide)) ?_
  refine stopsBefore_word (by decide) (by decide) hends (hwords _ (by decide)) ?_
  exact stopsBefore_word (by decide) (by decide) hends (hwords _ (by decide)) hprecision

theorem stopsBefore_onUpdate_quote (w : Text) : Scanner.StopsBefore onUpdate ('\'' :: w) := by
  refine stopsBefore_onUpdate (wordEnds_of_isAscii (by decide) _) ?_ ?_
  · simp
    decide
  · rw [blanks_quote]
    simp only [updateWords, List.forall_mem_cons, List.not_mem_nil, false_implies, implies_true]
    exact ⟨rfl, rfl, rfl, trivial⟩

theorem stopsBefore_onUpdate_comment (w : Text) :
    Scanner.StopsBefore onUpdate (" COMMENT ".toList ++ w) := by
  refine stopsBefore_onUpdate (wordEnds_blank _) ?_ ?_
  · simp
    decide
  · have hblanks : blanks (" COMMENT ".toList ++ w) = "COMMENT ".toList ++ w := rfl
    rw [hblanks]
    simp only [updateWords, List.forall_mem_cons, List.not_mem_nil, false_implies, implies_true]
    exact ⟨rfl, rfl, rfl, trivial⟩

/-! ## The line without the clause -/

theorem eraseAll_onUpdate_commentOf (column s : Text) :
    eraseAll (anywhere onUpdate) (column ++ commentOf s)
      = eraseAll (anywhere onUpdate) column ++ commentOf (eraseAll (anywhere onUpdate) s) := by
  have hword : eraseAll (anywhere onUpdate) " COMMENT ".toList = " COMMENT ".toList := by decide +kernel
  have hquote : ∀ w, eraseAll (anywhere onUpdate) ('\'' :: w) = '\'' :: eraseAll (anywhere onUpdate) w :=
    fun w => eraseAll_cons_of_none (by rw [onUpdate, blanks1_of_not_blank (by decide)]; rfl)
  have hend : eraseAll (anywhere onUpdate) ['\''] = ['\''] := hquote []
  have hliteral : eraseAll (anywhere onUpdate) (stringLiteral s)
      = stringLiteral (eraseAll (anywhere onUpdate) s) := by
    rw [stringLiteral, hquote, eraseAll_append_of_stops (stopsBefore_onUpdate_quote []), hend,
      stringLiteral]
  have hclause : eraseAll (anywhere onUpdate) (commentOf s)
      = commentOf (eraseAll (anywhere onUpdate) s) := by
    have hstops : Scanner.StopsBefore onUpdate (stringLiteral s) := stopsBefore_onUpdate_quote _
    unfold commentOf
    rw [eraseAll_append_of_stops hstops, hword, hliteral]
  have hstops : Scanner.StopsBefore onUpdate (commentOf s) := stopsBefore_onUpdate_comment _
  rw [eraseAll_append_of_stops hstops, hclause]

theorem last_eraseAll_onUpdate {s : Text} (h : s.getLast?.any isBlank = false) :
    (eraseAll (anywhere onUpdate) s).getLast?.any isBlank = false := by
  refine last_eraseFrom (fun {c d s} hc hd => ?_) (fun {c s r} hr => ?_) h none 0
  · have hblanks : blanks1 (c :: d :: s) = blanks1 (d :: s) := by
      rw [blanks1, many1, many1, if_pos hc, if_pos hd, List.dropWhile_cons_of_pos hd]
    rw [onUpdate, hblanks, onUpdate]
  · by_contra hb
    rw [onUpdate, blanks1_of_not_blank (by simpa using hb)] at hr
    cases hr

theorem exists_words_of_commentClause {s rest : Text} (h : commentClause s = some rest) :
    ∃ b w b' t, s = (b ++ w ++ b') ++ '\'' :: t ∧ (∀ c ∈ b, isBlank c = true)
      ∧ (∀ c ∈ b', isBlank c = true)
      ∧ List.Forall₂ (fun x c => foldsTo x c = true) "COMMENT".toList w := by
  obtain ⟨u, hu, h⟩ := Option.bind_eq_some_iff.1 h
  obtain ⟨v, hv, h⟩ := Option.bind_eq_some_iff.1 h
  obtain ⟨t, ht, -⟩ := Option.bind_eq_some_iff.1 h
  obtain ⟨r, hr, hb'⟩ := Option.bind_eq_some_iff.1 hv
  obtain ⟨b, rfl, -, hb⟩ := exists_of_many1 hu
  obtain ⟨w, rfl, -, hw⟩ := exists_of_keyword hr
  obtain ⟨b', rfl, -, hb'⟩ := exists_of_many1 hb'
  exact ⟨b, w, b', t, by rw [exists_of_char ht]; simp, hb, hb', hw⟩

/-- A clause that is read up to the quote of a comment has the comment's own keyword, so all that
stands before it is blank. -/
theorem isBlank_of_commentClause_commentOf {z s rest : Text} (hquote : '\'' ∉ z)
    (h : commentClause (z ++ commentOf s) = some rest) : ∀ c ∈ z, isBlank c = true := by
  obtain ⟨b, w, b', t, hs, hb, hb', hw⟩ := exists_words_of_commentClause h
  have hword := isBlank_of_folds (by decide) hw
  have hparts : ∀ c ∈ b ++ w ++ b', isPart c := by
    intro c hc
    simp only [List.mem_append] at hc
    rcases hc with (hc | hc) | hc
    · exact isPart_of_isBlank (hb c hc)
    · exact Or.inl (isOrdinary_of_keyword (by decide) hw c hc)
    · exact isPart_of_isBlank (hb' c hc)
  have hquotes : ∀ c ∈ b ++ w ++ b', c ≠ '\'' := by
    rintro c hc rfl
    exact not_isPart (by simp) (hparts _ hc)
  have hquotes' : ∀ c ∈ z ++ " COMMENT ".toList, c ≠ '\'' := by
    have hclause : ∀ c ∈ " COMMENT ".toList, c ≠ '\'' := by decide
    rintro c hc rfl
    rcases List.mem_append.1 hc with hc | hc
    · exact hquote hc
    · exact hclause _ hc rfl
  have hsame : z ++ " COMMENT ".toList = b ++ w ++ b' := by
    have hs' : (z ++ " COMMENT ".toList) ++ '\'' :: (s ++ ['\'']) = b ++ w ++ b' ++ '\'' :: t := by
      rw [← hs, List.append_assoc]
      rfl
    exact (eq_of_parts hquotes' hquotes (by simp) (by simp) hs').1
  -- Without the blanks behind them the keywords are the same, and a blank is left.
  have htrim : z ++ " COMMENT".toList = b ++ w := by
    have hz' : trimEnd (z ++ " COMMENT ".toList) = z ++ " COMMENT".toList :=
      trimEnd_append_of_ne (t := " COMMENT ".toList) (by decide)
    have hbw : trimEnd (b ++ w ++ b') = b ++ w := by
      rw [trimEnd, dropEndWhile_append_of_all hb']
      refine dropEndWhile_eq_self ?_
      cases hw with
      | @cons _ c _ w _ _ =>
        rw [List.getLast?_append, List.getLast?_eq_some_getLast (by simp), Option.some_or]
        simpa using hword _ (List.getLast_mem _)
    rw [← hz', hsame, hbw]
  have hgap : z ++ [' '] = b := by
    have hsplit : (z ++ [' ']) ++ "COMMENT".toList = b ++ w := by
      rw [List.append_assoc]
      exact htrim
    exact List.append_inj_left' hsplit hw.length_eq
  exact fun c hc => hb c (hgap ▸ List.mem_append_left _ hc)

theorem passes_commentClause {column : Text} (hquote : '\'' ∉ column)
    (hlast : column.getLast?.any isBlank = false) (s : Text) :
    Passes (anywhere commentClause) none column (commentOf s) := by
  intro a z hz hne
  refine Option.eq_none_iff_forall_ne_some.2 fun rest hr => ?_
  have hblank := isBlank_of_commentClause_commentOf (fun hm => hquote (by simp [hz, hm])) hr
  rw [hz, List.getLast?_append, List.getLast?_eq_some_getLast hne, Option.some_or,
    Option.any_some, hblank _ (List.getLast_mem hne)] at hlast
  cases hlast

theorem eraseAll_commentClause_commentOf {column s : Text} (hquote : '\'' ∉ column)
    (hlast : column.getLast?.any isBlank = false) (hs : isLiteralText s = true) :
    eraseAll (anywhere commentClause) (column ++ commentOf s) = column := by
  have hread : anywhere commentClause (column.getLast?.or none) (commentOf s ++ []) = some [] := by
    rw [List.append_nil]
    exact commentClause_commentOf hs
  have hpass := passes_commentClause hquote hlast s
  rw [← List.append_nil (commentOf s)] at hpass
  have hne : commentOf s ≠ [] := List.cons_ne_nil _ _
  have herase := eraseFrom_reads hpass hread hne
  rw [List.append_nil] at herase
  rw [eraseAll, herase, eraseFrom, List.append_nil]

theorem eraseAll_commentClause_of_not_mem {s : Text} (h : '\'' ∉ s) :
    eraseAll (anywhere commentClause) s = s := by
  refine eraseAll_of_not_occurs (occurs_eq_false fun a b hs _ => ?_)
  refine Option.eq_none_iff_forall_ne_some.2 fun rest hr => ?_
  rw [List.append_nil] at hr
  obtain ⟨m, t, hb, -⟩ := exists_of_commentClause hr
  exact h (by simp [hs, hb])

/-- A column that a definition line is about. No quote of a literal is in it, and all
quotes of names are closed. -/
structure IsColumn (line : Text) : Prop extends IsDefinition line where
  no_literal : '\'' ∉ line
  closed : line.foldl quoteAfter none = none
  no_keyword : ∀ k ∈ constraintKeywords, keywordEnd k line = none

theorem keywordBlanks_append_of_none {k s y : Text} (hk : ∀ x ∈ k, isMarkerChar x = true)
    (hy : wordEnds y = true) (h : keywordEnd k s = none) : keywordBlanks k (s ++ y) = none := by
  have hread := stopsBefore_keyword (foldsTo_of_wordEnds hk hy) s
  refine Option.eq_none_iff_forall_ne_some.2 fun r hr => ?_
  obtain ⟨u, hu, hblanks⟩ := Option.bind_eq_some_iff.1 hr
  rw [hread] at hu
  obtain ⟨v, hv, rfl⟩ := Option.map_eq_some_iff.1 hu
  have happ := wordEnds_of_blanks1 hblanks
  have hends : wordEnds v = true := by
    cases v with
    | nil => rfl
    | cons c v => exact happ
  rw [keywordEnd, hv, Option.bind_eq_bind, Option.bind_some, if_pos hends] at h
  cases h

section
variable {line y : Text} (h : IsColumn line) (hy : wordEnds y = true)
include h hy

theorem IsColumn.keywordBlanks {k : Text} (hk : k ∈ constraintKeywords) :
    Text.keywordBlanks k (line ++ y) = none := by
  have hchars : ∀ k ∈ constraintKeywords, ∀ x ∈ k, isMarkerChar x = true := by decide
  exact keywordBlanks_append_of_none (hchars k hk) hy (h.no_keyword k hk)

theorem IsColumn.withoutUniqueName : Definition.withoutUniqueName (line ++ y) = line ++ y := by
  have hnone : uniqueKey (line ++ y) = none := by
    rw [uniqueKey, h.keywordBlanks hy (by decide)]
    rfl
  rw [Definition.withoutUniqueName, hnone]

theorem IsColumn.isInlineIndex : Definition.isInlineIndex (line ++ y) = false := by
  have hclass : Text.optional indexClass (line ++ y) = line ++ y := by
    rw [Text.optional, indexClass, h.keywordBlanks hy (by decide), h.keywordBlanks hy (by decide)]
    rfl
  have hname : inlineIndexName? (line ++ y) = none := by
    rw [inlineIndexName?, hclass, keyOrIndex, h.keywordBlanks hy (by decide),
      h.keywordBlanks hy (by decide)]
    rfl
  rw [Definition.isInlineIndex, hname]
  rfl

end

section
variable {line s : Text} (h : IsColumn line)
variable (hs : isLiteralText (eraseAll (anywhere onUpdate) s) = true)
include h hs

theorem cleaned_commentOf :
    cleaned .mysqlToSqlite (line ++ commentOf s) = cleaned .mysqlToSqlite line := by
  have hline := h.withoutUniqueName (y := []) rfl
  rw [List.append_nil] at hline
  have hquote := not_mem_eraseAll (anywhere onUpdate) h.no_literal
  rw [cleaned, cleaned, h.withoutUniqueName (wordEnds_commentOf s), hline, withoutAttributes,
    withoutAttributes, eraseAll_onUpdate_commentOf,
    eraseAll_commentClause_commentOf hquote (last_eraseAll_onUpdate h.last) hs,
    eraseAll_commentClause_of_not_mem hquote]

theorem convert_commentOf (m : TypeMap) :
    (convert m .mysqlToSqlite none (line ++ commentOf s)).line?
        = (convert m .mysqlToSqlite none line).line?
      ∧ (convert m .mysqlToSqlite none (line ++ commentOf s)).autoColumn?
        = (convert m .mysqlToSqlite none line).autoColumn? := by
  have hline := h.isInlineIndex (y := []) rfl
  rw [List.append_nil] at hline
  have hdropped : isDropped .mysqlToSqlite (line ++ commentOf s)
      = isDropped .mysqlToSqlite line := (h.isInlineIndex (wordEnds_commentOf s)).trans hline.symm
  have hretyped : retyped m .mysqlToSqlite (line ++ commentOf s) = retyped m .mysqlToSqlite line := by
    rw [retyped, retyped, cleaned_commentOf h hs]
  rw [line?_convert_eq, line?_convert_eq, autoColumn?_convert_eq, autoColumn?_convert_eq,
    autoColumn?, autoColumn?, rewritten, rewritten, hdropped, hretyped]
  exact ⟨rfl, rfl⟩

end

/-! ## The line as it is cut -/

/-- The text is read as one literal: no comment starts in it, and the quote behind it
closes the last that is open. -/
structure IsOneLiteral (s : Text) : Prop where
  no_comment : beforeComment (some '\'') (s ++ ['\'']) = none
  closed : (s ++ ['\'']).foldl quoteAfter (some '\'') = none

theorem IsColumn.append_commentOf {line s : Text} (h : IsColumn line) (hs : IsOneLiteral s)
    (hbreak : '\n' ∉ s) : IsDefinition (line ++ commentOf s)
      ∧ (line ++ commentOf s).foldl quoteAfter none = none := by
  have hsplit : commentOf s = " COMMENT ".toList ++ '\'' :: (s ++ ['\'']) := rfl
  have hnone : beforeComment none (commentOf s) = none := by
    have hopen : quoteAfter none '\'' = some '\'' := by simp [quoteAfter]
    rw [hsplit, beforeComment_unquoted (by decide), beforeComment_cons,
      if_neg fun hd => absurd hd.2.1 (by decide), hopen, hs.no_comment]
    rfl
  have hlast : (line ++ commentOf s).getLast? = some '\'' := by
    rw [hsplit, ← List.append_assoc, ← List.cons_append, ← List.append_assoc, List.getLast?_concat]
  refine ⟨⟨⟨by simp [h.ne_nil], by simp [hsplit, h.no_break, hbreak], ?_, by rw [hlast]; decide, ?_⟩,
    by rw [hlast]; decide, ?_⟩, ?_⟩
  · obtain ⟨c, line, rfl⟩ := List.exists_cons_of_ne_nil h.ne_nil
    exact h.head
  · rw [beforeComment_append_of_none h.no_comment (by simp [hsplit]), h.closed, hnone]
    rfl
  · obtain ⟨c, line, rfl⟩ := List.exists_cons_of_ne_nil h.ne_nil
    exact h.not_closing
  · rw [List.foldl_append, h.closed, hsplit, List.foldl_append, List.foldl_cons]
    exact hs.closed

/-- Blanks and at most one comma, all on one line. -/
def IsGap (g : Text) : Prop :=
  ∃ b comma b', g = b ++ comma ++ b' ∧ (∀ c ∈ b, isBlank c = true ∧ c ≠ '\n')
    ∧ (comma = [] ∨ comma = [',']) ∧ ∀ c ∈ b', isBlank c = true ∧ c ≠ '\n'

theorem IsGap.chars {g : Text} (h : IsGap g) : ∀ c ∈ g, (isBlank c = true ∨ c = ',') ∧ c ≠ '\n' := by
  obtain ⟨b, comma, b', rfl, hb, hcomma, hb'⟩ := h
  intro c hc
  simp only [List.mem_append] at hc
  rcases hc with (hc | hc) | hc
  · exact ⟨Or.inl (hb c hc).1, (hb c hc).2⟩
  · rcases hcomma with rfl | rfl
    · cases hc
    · rw [List.mem_singleton.1 hc]
      exact ⟨Or.inr rfl, by decide⟩
  · exact ⟨Or.inl (hb' c hc).1, (hb' c hc).2⟩

theorem IsDefinition.withoutComma_gap {s g : Text} (h : IsDefinition s) (hg : IsGap g) :
    withoutComma (trimEnd (s ++ g)) = s := by
  obtain ⟨b, comma, b', rfl, hb, hcomma, hb'⟩ := hg
  have hself : trimEnd s = s := trimEnd_eq_self h.last
  have htrim : trimEnd (s ++ b) = s := by
    rw [trimEnd, dropEndWhile_append_of_all fun c hc => (hb c hc).1]
    exact hself
  rw [← List.append_assoc, trimEnd, dropEndWhile_append_of_all fun c hc => (hb' c hc).1,
    ← List.append_assoc]
  rcases hcomma with rfl | rfl
  · rw [List.append_nil]
    show withoutComma (trimEnd (s ++ b)) = s
    rw [htrim, withoutComma_eq_self h]
  · have hlast : (s ++ b).getLast?.any (· == ',') = false := by
      cases hl : b.getLast? with
      | none => rw [List.getLast?_eq_none_iff.1 hl, List.append_nil, not_comma h]
      | some c =>
        have hc : c ≠ ',' := by
          rintro rfl
          exact absurd (hb ',' (List.mem_of_getLast? hl)).1 (by decide)
        simpa [List.getLast?_append, hl] using hc
    have hcut : dropEndWhile isBlank (s ++ b ++ [',']) = s ++ b ++ [','] := by
      refine dropEndWhile_eq_self ?_
      rw [List.getLast?_concat]
      decide
    rw [hcut, withoutComma, dropEndWhile_append_of_all (by simp), dropEndWhile_eq_self hlast, htrim]

theorem IsDefinition.withoutComma_content {s g c : Text} (h : IsDefinition s)
    (hclosed : s.foldl quoteAfter none = none) (hg : IsGap g)
    (hc : c = [] ∨ g ≠ [] ∧ "--".toList <+: c) {indent : Text}
    (hi : ∀ x ∈ indent, isBlank x = true) :
    withoutComma (content (indent ++ (s ++ (g ++ c)))) = s := by
  have hhead : (s ++ (g ++ c)).head?.any isBlank = false := by
    obtain ⟨x, s, rfl⟩ := List.exists_cons_of_ne_nil h.ne_nil
    exact h.head
  have hgap : ∀ x ∈ g, x ∉ ['-', '\'', '"', '`'] := by
    have hsigns : ∀ x ∈ ['-', '\'', '"', '`'], isBlank x = false ∧ x ≠ ',' := by decide
    intro x hx hm
    rcases (hg.chars x hx).1 with hb | hcomma
    · rw [(hsigns x hm).1] at hb
      cases hb
    · exact (hsigns x hm).2 hcomma
  have hdash : g.head? ≠ some '-' := fun hd => hgap '-' (List.mem_of_mem_head? hd) (by simp)
  have hcut : withoutComment (trimEnd (s ++ (g ++ c))) = trimEnd (s ++ g) := by
    rcases hc with rfl | ⟨hne, u, rfl⟩
    · have hnone : beforeComment none (s ++ g) = none := by
        have hg' := beforeComment_unquoted hgap []
        rw [List.append_nil] at hg'
        rw [beforeComment_append_of_none h.no_comment hdash, hclosed, hg']
        rfl
      have htrim : beforeComment none (trimEnd (s ++ g)) = none := by
        obtain ⟨e, he⟩ := isPrefix_dropEndWhile isBlank (s ++ g)
        refine Option.eq_none_iff_forall_ne_some.2 fun v hv => ?_
        have := beforeComment_append hv e
        rw [trimEnd, he, hnone] at this
        cases this
      rw [List.append_nil, withoutComment, htrim]
    · obtain ⟨z, hz⟩ := exists_trimEnd_dashes (s ++ g) u
      have hdash' : (g ++ ("--".toList ++ z)).head? ≠ some '-' := by
        obtain ⟨x, g, rfl⟩ := List.exists_cons_of_ne_nil hne
        exact hdash
      have hfound : beforeComment none ("--".toList ++ z) = some [] := rfl
      rw [← List.append_assoc, hz, withoutComment, List.append_assoc,
        beforeComment_append_of_none h.no_comment hdash', hclosed, beforeComment_unquoted hgap, hfound]
      simp
  rw [content, trim_append_of_blank hi, trim, trimStart_eq_self hhead, hcut, h.withoutComma_gap hg]

/-! ## Doubled quotes -/

/-- Whether each quote in the text of a literal is doubled, and no backslash stands
before a quote or a blank. -/
def hasDoubledQuotes : Text → Bool
  | [] => true
  | '\'' :: '\'' :: s => hasDoubledQuotes s
  | '\\' :: c :: s => c != '\'' && !isBlank c && hasDoubledQuotes s
  | c :: s => c != '\'' && c != '\\' && c != '\n' && hasDoubledQuotes s

theorem isLiteralText_of_hasDoubledQuotes {s : Text} (h : hasDoubledQuotes s = true) :
    isLiteralText s = true := by
  fun_induction hasDoubledQuotes s with
  | case1 => rfl
  | case2 s ih => simp [isLiteralText, ih h]
  | case3 c s ih =>
    simp only [Bool.and_eq_true, Bool.not_eq_true'] at h
    have hc : c ≠ '\n' := by
      rintro rfl
      exact absurd h.1.2 (by decide)
    simp [isLiteralText, hc, ih h.2]
  | case4 c s hquote hslash ih =>
    simp only [Bool.and_eq_true, bne_iff_ne] at h
    rw [isLiteralText_cons h.1.1.1 h.1.1.2 h.1.2, ih h.2]

theorem isOneLiteral_of_hasDoubledQuotes {s : Text} (h : hasDoubledQuotes s = true) :
    IsOneLiteral s := by
  have hinside : ∀ {c}, c ≠ '\'' → ∀ s, beforeComment (some '\'') s = none →
      beforeComment (some '\'') (c :: s) = none := by
    intro c hc s hs
    simp [beforeComment, hc, hs]
  fun_induction hasDoubledQuotes s with
  | case1 => exact ⟨rfl, rfl⟩
  | case2 s ih =>
    obtain ⟨hnone, hclosed⟩ := ih h
    refine ⟨?_, hclosed⟩
    simp [beforeComment, hnone]
  | case3 c s ih =>
    simp only [Bool.and_eq_true, bne_iff_ne] at h
    obtain ⟨hnone, hclosed⟩ := ih h.2
    refine ⟨hinside (by decide) _ (hinside h.1.1 _ hnone), ?_⟩
    simpa [quoteAfter, h.1.1] using hclosed
  | case4 c s hquote hslash ih =>
    simp only [Bool.and_eq_true, bne_iff_ne] at h
    obtain ⟨hnone, hclosed⟩ := ih h.2
    refine ⟨hinside h.1.1.1 _ hnone, ?_⟩
    simpa [quoteAfter, h.1.1.1] using hclosed

theorem exists_unquoted_of_onUpdate {s rest : Text} (h : onUpdate s = some rest) :
    ∃ m, s = m ++ rest ∧ m ≠ [] ∧ ∀ c ∈ m, c ≠ '\'' ∧ c ≠ '\\' := by
  have hpart : ∀ {c}, isPart c → c ≠ '\'' ∧ c ≠ '\\' := by
    intro c hc
    have hsigns : ∀ x ∈ ['\'', '\\'], isOrdinary x = false ∧ x ≠ '\n' := by decide
    have hnot : c ∉ ['\'', '\\'] := by
      intro hm
      rcases hc with ho | rfl
      · rw [(hsigns c hm).1] at ho
        cases ho
      · exact (hsigns _ hm).2 rfl
    simpa using hnot
  obtain ⟨m, g, rfl, hne, hm, hg⟩ := exists_of_onUpdate h
  refine ⟨m ++ g, by simp, by simp [hne], ?_⟩
  rcases hg with rfl | ⟨ds, rfl, hds⟩
  · rw [List.append_nil]
    exact fun c hc => hpart (hm c hc)
  · intro c hc
    simp only [List.mem_append, List.mem_cons, List.not_mem_nil, or_false] at hc
    rcases hc with hc | rfl | hc | rfl
    · exact hpart (hm c hc)
    · decide
    · exact hpart (Or.inl (hds c hc))
    · decide

theorem eraseFrom_onUpdate_of_not_blank {c : Char} (hc : isBlank c = false) (prev : Option Char)
    (s : Text) : eraseFrom (anywhere onUpdate) prev 0 (c :: s)
      = c :: eraseFrom (anywhere onUpdate) (some c) 0 s := by
  have hnone : anywhere onUpdate prev (c :: s) = none := by
    rw [anywhere, onUpdate, blanks1_of_not_blank hc]
    rfl
  rw [eraseFrom, hnone]

/-- What is erased has no quote and no backslash, and none of it stands behind a
backslash. The first `n` characters belong to something erased before. -/
theorem isLiteralText_eraseFrom {s : Text} (h : hasDoubledQuotes s = true) (prev : Option Char)
    {n : Nat} (hn : ∀ c ∈ s.take n, c ≠ '\'' ∧ c ≠ '\\') :
    isLiteralText (eraseFrom (anywhere onUpdate) prev n s) = true := by
  fun_induction hasDoubledQuotes s generalizing prev n with
  | case1 => rfl
  | case2 s ih =>
    cases n with
    | succ n => exact absurd rfl (hn '\'' (by simp)).1
    | zero =>
      rw [eraseFrom_onUpdate_of_not_blank (by decide), eraseFrom_onUpdate_of_not_blank (by decide)]
      exact ih h _ (by simp)
  | case3 c s ih =>
    simp only [Bool.and_eq_true, bne_iff_ne, Bool.not_eq_true'] at h
    cases n with
    | succ n => exact absurd rfl (hn '\\' (by simp)).2
    | zero =>
      have hc : c ≠ '\n' := by
        rintro rfl
        exact absurd h.1.2 (by decide)
      rw [eraseFrom_onUpdate_of_not_blank (by decide), eraseFrom_onUpdate_of_not_blank h.1.2]
      simp [isLiteralText, hc, ih h.2 (some c) (n := 0) (by simp)]
  | case4 c s hquote hslash ih =>
    simp only [Bool.and_eq_true, bne_iff_ne] at h
    cases n with
    | succ n =>
      rw [eraseFrom]
      exact ih h.2 _ fun d hd => hn d (by simp [hd])
    | zero =>
      rw [eraseFrom]
      cases hread : anywhere onUpdate prev (c :: s) with
      | none =>
        have hrest := ih h.2 (some c) (n := 0) (by simp)
        show isLiteralText (c :: eraseFrom (anywhere onUpdate) (some c) 0 s) = true
        rw [isLiteralText_cons h.1.1.1 h.1.1.2 h.1.2, hrest]
      | some rest =>
        obtain ⟨m, hm, hne, hchars⟩ := exists_unquoted_of_onUpdate hread
        obtain ⟨d, m, rfl⟩ := List.exists_cons_of_ne_nil hne
        obtain ⟨rfl, hsplit⟩ := List.cons.inj hm
        have htake : s.take (s.length - rest.length) = m := by simp [hsplit]
        refine ih h.2 (some c) fun d hd => hchars d ?_
        rw [htake] at hd
        exact List.mem_cons_of_mem _ hd

end SchemaDialects.Definition
