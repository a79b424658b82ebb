import SchemaDialects.Proofs.Conversion.ClauseHead
import SchemaDialects.Proofs.Conversion.Output

/-!
# Text behind a line of a statement

What the lines of a statement become when something is put behind one of them.
A comment is neutral if it closes the quotes that it opens and starts no
storage clause. Main statement: behind a line whose end is read as plain text a
neutral comment leaves the layout of the statement as it was.
-/

namespace SchemaDialects.Conversion

open Text Definition Script

/-! ## What a statement is rewritten to -/

/-- The quote around names in the source dialect. -/
def oldQuote : Direction → Char
  | .mysqlToSqlite => '`'
  | .sqliteToMysql => '"'

def newQuote : Direction → Char
  | .mysqlToSqlite => '"'
  | .sqliteToMysql => '`'

/-- The statement before its quotes are changed. -/
def unclaused : Direction → Text → Text
  | .mysqlToSqlite, s => dropClause s
  | .sqliteToMysql, s => s

theorem requoted_eq (d : Direction) (s : Text) :
    requoted d s = requoteAt (oldQuote d) (newQuote d) .closed (unclaused d s) := by
  cases d <;> rfl

/-- What becomes of `y` behind `s`. -/
def unclausedAfter : Direction → Text → Text → Text
  | .mysqlToSqlite, s, y => dropClauseAfter s y
  | .sqliteToMysql, _, y => y

theorem quotes_ne (d : Direction) {c : Char} (h : c ∉ ['\'', '"', '`']) :
    c ≠ oldQuote d ∧ c ≠ newQuote d := by
  simp only [List.mem_cons, List.not_mem_nil, or_false, not_or] at h
  cases d with
  | mysqlToSqlite => exact ⟨h.2.2, h.2.1⟩
  | sqliteToMysql => exact ⟨h.2.1, h.2.2⟩

theorem not_mem_of_blanks {b : Text} (hb : ∀ c ∈ b, isBlank c = true) {x : Char}
    (hx : isBlank x = false) : x ∉ b := by
  intro hm
  rw [hb x hm] at hx
  cases hx

theorem isBlank_oldQuote (d : Direction) : isBlank (oldQuote d) = false := by cases d <;> decide

theorem contentLines_requoted_trimEnd (d : Direction) (s : Text) :
    contentLines (requoted d (trimEnd s)) = contentLines (requoted d s) := by
  obtain ⟨b, hs, hb⟩ := exists_trimEnd s
  generalize trimEnd s = n at hs
  subst hs
  obtain ⟨b', hb', happ⟩ : ∃ b', (∀ c ∈ b', isBlank c = true)
      ∧ unclaused d (n ++ b) = unclaused d n ++ b' := by
    cases d with
    | mysqlToSqlite => exact dropClause_append_blanks n hb
    | sqliteToMysql => exact ⟨b, hb, rfl⟩
  rw [requoted_eq, requoted_eq, happ, requoteAt_append,
    requoteAt_of_not_mem _ (not_mem_of_blanks hb' (isBlank_oldQuote d)),
    contentLines_append_blanks _ hb']

/-! ## Places -/

/-- No storage clause is open behind `s`. -/
def ClauseClosed (d : Direction) (s : Text) : Prop := d = .mysqlToSqlite → ClauseEnds s

theorem requoted_append {d : Direction} {s y : Text} (hs : ClauseClosed d s)
    (hy : wordEnds y = true) (hc : d = .mysqlToSqlite → continuesHead y = false) :
    requoted d (s ++ y) = requoted d s ++ requoteAt (oldQuote d) (newQuote d)
      (Quoting.closed.run (oldQuote d) (unclaused d s)) (unclausedAfter d s y) := by
  have happ : unclaused d (s ++ y) = unclaused d s ++ unclausedAfter d s y := by
    cases d with
    | mysqlToSqlite => exact dropClause_append (hs rfl) hy (hc rfl)
    | sqliteToMysql => rfl
  rw [requoted_eq, requoted_eq, happ, requoteAt_append]

/-- Behind the part `s` of a statement a comment is read as one: its quotes are
closed and the last line shows the comment. The text `t` behind the line does
not go on with a clause. -/
structure IsOpen (d : Direction) (s t : Text) : Prop where
  clause : ClauseClosed d s
  next : d = .mysqlToSqlite → continuesHead t = false
  quotes : Quoting.closed.run (oldQuote d) (unclaused d s) = .closed
  shown : showsComment (lastLine (requoted d s)) = true

/-- The closing line of the definitions is in `s`. -/
def IsClosed (d : Direction) (s : Text) : Prop :=
  ∃ a b v, s = a ++ '\n' :: (b ++ ')' :: v) ∧ (∀ c ∈ b, isBlank c = true) ∧ ClauseClosed d a

/-- A text that closes its quotes and starts no storage clause. -/
structure IsNeutral (d : Direction) (x : Text) : Prop where
  quotes : Quoting.closed.run (oldQuote d) x = .closed
  clause : d = .mysqlToSqlite → find (anywhere clauseHead) none x = none

theorem endsLine_dropClause {t : Text} (h : EndsLine t) : EndsLine (dropClause t) := by
  rcases h with rfl | ⟨u, rfl⟩ | ⟨u, rfl⟩
  · exact Or.inl rfl
  · have := dropClause_append_of_not_mem (s := ['\n']) (by decide) u
    exact Or.inr (Or.inl ⟨_, this⟩)
  · have := dropClause_append_of_not_mem (s := ['\r', '\n']) (by decide) u
    exact Or.inr (Or.inr ⟨_, this⟩)

theorem endsLine_requoteAt {t : Text} (h : EndsLine t) (d : Direction) (q : Quoting) :
    EndsLine (requoteAt (oldQuote d) (newQuote d) q t) := by
  have hbreak := (quotes_ne d (c := '\n') (by decide)).1
  have hreturn := (quotes_ne d (c := '\r') (by decide)).1
  rcases h with rfl | ⟨u, rfl⟩ | ⟨u, rfl⟩
  · exact Or.inl rfl
  · exact Or.inr (Or.inl ⟨_, by rw [requoteAt_cons, if_neg fun hq => hbreak hq.1]⟩)
  · exact Or.inr (Or.inr ⟨_, by
      rw [requoteAt_cons, if_neg fun hq => hreturn hq.1, requoteAt_cons,
        if_neg fun hq => hbreak hq.1]⟩)

theorem head_of_endsLine {t : Text} (h : EndsLine t) : ∀ c ∈ t.head?, isBlank c = true := by
  rcases h with rfl | ⟨u, rfl⟩ | ⟨u, rfl⟩
  · simp
  · intro c hc
    obtain rfl := Option.some.inj hc
    decide
  · intro c hc
    obtain rfl := Option.some.inj hc
    decide

theorem contentLines_of_open {d : Direction} {s x t : Text} (h : IsOpen d s t)
    (hx : IsNeutral d x) (hbreak : '\n' ∉ x) (ht : EndsLine t) :
    contentLines (requoted d (s ++ (" -- ".toList ++ x ++ t))) = contentLines (requoted d (s ++ t)) := by
  have hhead := head_of_endsLine ht
  have hcomment : unclausedAfter d s (" -- ".toList ++ x ++ t)
      = " -- ".toList ++ x ++ unclausedAfter d s t := by
    cases d with
    | sqliteToMysql => rfl
    | mysqlToSqlite =>
      show dropClauseAfter s _ = _ ++ dropClauseAfter s t
      unfold dropClauseAfter
      split
      · rfl
      · rw [List.append_assoc, dropClause_append_of_not_mem (by decide),
          dropClause_append_of_none (wordEnds_of_blank hhead) (h.next rfl) (hx.clause rfl),
          List.append_assoc]
  have htail : EndsLine (unclausedAfter d s t) := by
    cases d with
    | sqliteToMysql => exact ht
    | mysqlToSqlite =>
      show EndsLine (dropClauseAfter s t)
      unfold dropClauseAfter
      split
      · exact ht
      · exact endsLine_dropClause ht
  have hdash : oldQuote d ∉ " -- ".toList ∧ '\'' ∉ " -- ".toList := by cases d <;> decide
  have hclosed : Quoting.closed.run (oldQuote d) (" -- ".toList ++ x) = .closed := by
    rw [Quoting.run_append, run_of_not_mem _ hdash.1 hdash.2, hx.quotes]
  have hkept : requoteAt (oldQuote d) (newQuote d) .closed " -- ".toList = " -- ".toList :=
    requoteAt_of_not_mem .closed hdash.1
  have hbreak' : '\n' ∉ requoteAt (oldQuote d) (newQuote d) .closed x :=
    not_mem_requoteAt (quotes_ne d (by decide)).2 .closed hbreak
  have hspace : wordEnds (" -- ".toList ++ x ++ t) = true := wordEnds_blank _
  rw [requoted_append h.clause hspace fun _ => rfl,
    requoted_append h.clause (wordEnds_of_blank hhead) h.next,
    hcomment, h.quotes, requoteAt_append, requoteAt_append, hclosed, hkept,
    run_of_not_mem _ hdash.1 hdash.2]
  exact contentLines_append_comment h.shown hbreak' (endsLine_requoteAt htail d _)

/-! ## Behind the closing line -/

theorem exists_dropClause_closing (w : Text) : ∃ w', dropClause (')' :: w) = ')' :: w' := by
  rw [dropClause, replaceFirst, find]
  cases anywhere storageClause none (')' :: w) with
  | some r => exact ⟨';' :: r, rfl⟩
  | none =>
    cases find (anywhere storageClause) (some ')') w with
    | none => exact ⟨w, rfl⟩
    | some r => exact ⟨r.1 ++ ");".toList ++ r.2, by simp⟩

theorem exists_requoted_closing {d : Direction} {a b : Text} (ha : ClauseClosed d a)
    (hb : ∀ c ∈ b, isBlank c = true) (w : Text) :
    ∃ w', requoted d (a ++ '\n' :: (b ++ ')' :: w)) = requoted d a ++ '\n' :: (b ++ ')' :: w') := by
  have hb' : ∀ c ∈ '\n' :: b, isBlank c = true := List.forall_mem_cons.2 ⟨by decide, hb⟩
  have hcont : continuesHead ('\n' :: (b ++ ')' :: w)) = false := by
    have hblanks : blanks ('\n' :: (b ++ ')' :: w)) = ')' :: w := by
      rw [← List.cons_append, blanks, trimStart_append_of_blank hb']
      exact trimStart_eq_self (show isBlank ')' = false by decide)
    rw [continuesHead, hblanks]
    rfl
  have hhead : wordEnds ('\n' :: (b ++ ')' :: w)) = true := by
    simp [wordEnds, not_isWord_of_isBlank (c := '\n') (by decide)]
  obtain ⟨w₁, hw₁⟩ : ∃ w₁, unclausedAfter d a ('\n' :: (b ++ ')' :: w)) = '\n' :: b ++ ')' :: w₁ := by
    cases d with
    | sqliteToMysql => exact ⟨w, rfl⟩
    | mysqlToSqlite =>
      show ∃ w₁, dropClauseAfter a _ = _
      unfold dropClauseAfter
      split
      · exact ⟨w, rfl⟩
      · obtain ⟨w₁, hw₁⟩ := exists_dropClause_closing w
        refine ⟨w₁, ?_⟩
        rw [← List.cons_append, dropClause_append_of_not_mem (not_mem_of_blanks hb' (by decide)), hw₁]
  have hparen := (quotes_ne d (c := ')') (by decide)).1
  rw [requoted_append ha hhead fun _ => hcont, hw₁, requoteAt_append,
    requoteAt_of_not_mem _ (not_mem_of_blanks hb' (isBlank_oldQuote d)), requoteAt_cons,
    if_neg fun hq => hparen hq.1]
  exact ⟨_, rfl⟩

theorem exists_contentLines_closing {b : Text} (hb : ∀ c ∈ b, isBlank c = true) (w : Text) :
    ∃ cl ls, contentLines (b ++ ')' :: w) = cl :: ls ∧ isClosing cl = true := by
  have hline : ∀ {b : Text}, (∀ c ∈ b, isBlank c = true) → '\n' ∉ b →
      ∃ cl ls, contentLines (b ++ ')' :: w) = cl :: ls ∧ isClosing cl = true := by
    intro b hb hn
    have hcontent : ∀ w, content (b ++ ')' :: w) = content (')' :: w) := fun w => by
      rw [content, content, trim_append_of_blank hb]
    by_cases hw : '\n' ∈ w
    · obtain ⟨v, u, rfl, hv⟩ := List.eq_append_cons_of_mem hw
      have hbreak : '\n' ∉ b ++ ')' :: v := by simp [hn, hv]
      refine ⟨content (')' :: v), contentLines u, ?_, isClosing_content v⟩
      rw [← List.cons_append, ← List.append_assoc, contentLines_append, contentLines_of_line hbreak,
        hcontent, if_neg (content_closing_ne_nil v)]
      rfl
    · have hbreak : '\n' ∉ b ++ ')' :: w := by simp [hn, hw]
      refine ⟨content (')' :: w), [], ?_, isClosing_content w⟩
      rw [contentLines_of_line hbreak, hcontent, if_neg (content_closing_ne_nil w)]
  obtain ⟨hn, hs | ⟨v, hs⟩⟩ := exists_lastLine b
  · rw [hs]
    exact hline (by rw [← hs]; exact hb) hn
  · have hlast : ∀ c ∈ lastLine b, isBlank c = true := fun c hc => hb c (by rw [hs]; simp [hc])
    have hv : ∀ c ∈ v, isBlank c = true := fun c hc => hb c (by rw [hs]; simp [hc])
    have hnil : contentLines v = [] := contentLines_append_blanks [] hv
    obtain ⟨cl, ls, hcl, hc⟩ := hline hlast hn
    refine ⟨cl, ls, ?_, hc⟩
    rw [hs, List.append_assoc, List.cons_append, contentLines_append, hnil, hcl]
    rfl

/-- What follows the closing line does not count. -/
theorem contentLines_of_closed {d : Direction} {s : Text} (h : IsClosed d s) :
    ∃ a, (∃ t, s = a ++ '\n' :: t) ∧ ∀ y, ∃ cl ls, isClosing cl = true
      ∧ contentLines (requoted d (s ++ y)) = contentLines (requoted d a) ++ cl :: ls := by
  obtain ⟨a, b, v, rfl, hb, ha⟩ := h
  refine ⟨a, ⟨_, rfl⟩, fun y => ?_⟩
  obtain ⟨w, hw⟩ := exists_requoted_closing ha hb (v ++ y)
  obtain ⟨cl, ls, hcl, hc⟩ := exists_contentLines_closing hb w
  have hs : a ++ '\n' :: (b ++ ')' :: v) ++ y = a ++ '\n' :: (b ++ ')' :: (v ++ y)) := by simp
  exact ⟨cl, ls, hc, by rw [hs, hw, contentLines_append, hcl]⟩

end SchemaDialects.Conversion
