import SchemaDialects.Proofs.Definition.Trailing
import SchemaDialects.Proofs.Script.Apart

/-!
# Statements put together again

The statements of a script are kept apart in every text that is put together from them:
each but the last ends at its own semicolon, and trimming takes nothing away that the
splitter has to know. So they come back, whatever blanks are put between them.
-/

namespace SchemaDialects.Script

open Text Lexical Definition

/-- Statements as a script splits into them: between their outer blanks, none of them
blank, and each but the last with its end in it. -/
structure IsSplit (ss : List Text) : Prop where
  trim_eq : ∀ s ∈ ss, trim s = s
  ne_nil : ∀ s ∈ ss, s ≠ []
  apart : SplitApart ss

/-! ## Texts without an end -/

section
variable {st : Lexical} {s t : Text}

theorem LeavesOpen.of_append (h : LeavesOpen st (s ++ t)) : LeavesOpen st s := by
  rcases ends_or_open st s with ⟨x, y, rfl, hx⟩ | hopen
  · -- An end in `s` would cut the longer text too.
    rw [List.append_assoc] at h
    exact absurd h (not_open_of_ends hx _)
  · exact hopen

theorem LeavesOpen.append_blanks (h : LeavesOpen st s) {b : Text}
    (hb : ∀ c ∈ b, isBlank c = true) : LeavesOpen st (s ++ b) := by
  intro u
  rw [List.append_assoc, h, pieces_append_of_not_mem (semicolon_not_mem_blanks hb), prepend_prepend,
    Lexical.run_append]

theorem statements_of_open (h : LeavesOpen plain s) :
    statements s = if trim s = [] then [] else [trim s] := by
  by_cases hs : s = []
  · subst hs
    rfl
  · show trimmed (pieces plain s) = _
    rw [pieces_of_open hs h, trimmed, List.map_singleton]
    split
    · next ht => simp [ht]
    · next ht => simp [ht]

theorem statements_append_of_ends (h : endsAtSemicolon Lexical.step plain s = true) (t : Text) :
    statements (s ++ t) = trim s :: statements t :=
  trimmed_pieces_append_of_ends h t

theorem ne_nil_of_ends (h : endsAtSemicolon Lexical.step st s = true) : s ≠ [] :=
  List.ne_nil_of_mem (List.mem_of_getLast? (getLast?_of_ends h))

theorem trim_of_ends (h : endsAtSemicolon Lexical.step st s = true)
    (hs : s.head?.any isBlank = false) : trim s = s := by
  refine trim_eq_self hs ?_
  rw [getLast?_of_ends h]
  rfl

end

/-! ## What a script splits into -/

section
variable {s : Text} {ss : List Text}

theorem isSplit_nil : IsSplit [] := ⟨nofun, nofun, trivial⟩

theorem isSplit_singleton (htrim : trim s = s) (hne : s ≠ []) (hs : pieces plain s = [s]) :
    IsSplit [s] :=
  ⟨by simpa using htrim, by simpa using hne, hs⟩

theorem IsSplit.cons (h : IsSplit ss) (hends : endsAtSemicolon Lexical.step plain s = true)
    (htrim : trim s = s) : IsSplit (s :: ss) where
  trim_eq := List.forall_mem_cons.2 ⟨htrim, h.trim_eq⟩
  ne_nil := List.forall_mem_cons.2 ⟨ne_nil_of_ends hends, h.ne_nil⟩
  apart := (splitApart_cons_of_ends hends ss).2 h.apart

theorem SplitApart.tail (h : SplitApart (s :: ss)) : SplitApart ss := by
  cases ss with
  | nil => trivial
  | cons t ss => exact h.2

theorem SplitApart.pieces_of_mem (h : SplitApart ss) (hs : s ∈ ss) : pieces plain s = [s] := by
  induction ss with
  | nil => cases hs
  | cons t ss ih =>
    rcases List.mem_cons.1 hs with rfl | hs
    · exact pieces_of_splitApart h
    · exact ih h.tail hs

theorem IsSplit.tail (h : IsSplit (s :: ss)) : IsSplit ss where
  trim_eq := fun t ht => h.trim_eq t (List.mem_cons_of_mem s ht)
  ne_nil := fun t ht => h.ne_nil t (List.mem_cons_of_mem s ht)
  apart := h.apart.tail

theorem IsSplit.of_mem (h : IsSplit ss) (hs : s ∈ ss) : IsSplit [s] :=
  isSplit_singleton (h.trim_eq s hs) (h.ne_nil s hs) (h.apart.pieces_of_mem hs)

theorem exists_statements_eq (script : Text) :
    ∃ t, t.length ≤ script.length ∧ t.head?.any isBlank = false ∧ statements script = statements t := by
  obtain ⟨b, hs, hb⟩ := exists_trimStart script
  refine ⟨trimStart script, (List.dropWhile_suffix isBlank).length_le, head_trimStart script, ?_⟩
  conv_lhs => rw [hs, statements_blanks_append hb]

theorem isSplit_of_open {t : Text} (h : LeavesOpen plain t) (hhead : t.head?.any isBlank = false) :
    IsSplit (statements t) := by
  rw [statements_of_open h]
  split
  · exact isSplit_nil
  · next hne =>
    have htrim : trim t = trimEnd t := by rw [trim, trimStart_eq_self hhead]
    obtain ⟨b, ht, -⟩ := exists_dropEndWhile isBlank t
    rw [ht] at h
    refine isSplit_singleton (trim_trim t) hne ?_
    rw [htrim] at hne ⊢
    exact pieces_of_open hne h.of_append

theorem isSplit_statements (script : Text) : IsSplit (statements script) := by
  -- The script has an end in it and goes on behind that, or it is one statement.
  induction hn : script.length using Nat.strong_induction_on generalizing script with
  | _ n ih =>
    obtain ⟨t, hlength, hhead, heq⟩ := exists_statements_eq script
    rw [heq]
    rcases ends_or_open plain t with ⟨x, y, rfl, hx⟩ | hopen
    · obtain ⟨c, x, rfl⟩ := List.exists_cons_of_ne_nil (ne_nil_of_ends hx)
      have htrim := trim_of_ends hx hhead
      rw [statements_append_of_ends hx, htrim]
      refine (ih y.length ?_ y rfl).cons hx htrim
      simp only [List.length_append, List.length_cons] at hlength
      omega
    · exact isSplit_of_open hopen hhead

/-! ## Putting statements together -/

theorem statements_last (h : IsSplit [s]) {b : Text} (hb : ∀ c ∈ b, isBlank c = true) :
    statements (s ++ b) = [s] := by
  have htrim := h.trim_eq s (by simp)
  have hone : pieces plain s = [s] := h.apart
  rcases ends_or_open plain s with ⟨x, y, hxy, hx⟩ | hopen
  · -- Nothing stands behind the end.
    rw [hxy, pieces_append_of_ends hx] at hone
    have hself : x = x ++ y := (List.cons.inj hone).1
    rw [← hself] at hxy
    rw [← hxy] at hx
    rw [statements_append_of_ends hx, htrim, statements_blanks hb]
  · rw [statements_of_open (hopen.append_blanks hb), trim_append_blank hb, htrim,
      if_neg (h.ne_nil s (by simp))]

theorem IsSplit.statements_eq (h : IsSplit ss) {script : Text} (hscript : ConsistsOf ss script) :
    statements script = ss := by
  induction hscript with
  | blanks hb => exact statements_blanks hb
  | @statement b s script ss hb hrest ih =>
    rw [statements_blanks_append hb]
    cases ss with
    | nil =>
      cases hrest with
      | blanks hblank => exact statements_last h hblank
    | cons t ss =>
      rw [statements_append_of_ends h.apart.1, h.trim_eq s (by simp), ih h.tail]

theorem consistsOf_singleton (s : Text) : ConsistsOf [s] s := by
  have h := ConsistsOf.statement (b := []) (s := s) nofun (.blanks (b := []) nofun)
  rwa [List.append_nil] at h

end

/-- Texts come back from what is put together from them, with any blanks in between or with
none, exactly if they are statements as a script splits into them. The statements of a script
are, so they all come back, and each comes back from itself. Behind a script that nothing is
left open in, or that is blank, a second one splits as it does on its own. -/
theorem statements_come_back (script a : Text) :
    (∀ ss joined, ConsistsOf ss joined → (statements joined = ss ↔ IsSplit ss)) ∧
    (∀ joined, ConsistsOf (statements script) joined → statements joined = statements script) ∧
    (∀ s ∈ statements script, statements s = [s]) ∧
    (IsClosed a → ∀ b, statements (a ++ b) = statements a ++ statements b) := by
  have hsplit := isSplit_statements script
  refine ⟨fun ss joined hjoined => ⟨?_, fun h => h.statements_eq hjoined⟩,
    fun joined hjoined => hsplit.statements_eq hjoined, fun s hs => ?_,
    fun ha b => statements_append ha b⟩
  · rintro rfl
    exact isSplit_statements joined
  · exact (hsplit.of_mem hs).statements_eq (consistsOf_singleton s)

/-- The last statement ends inside a literal, behind a quote that a backslash hides. -/
theorem statements_come_back_open :
    let first := "SELECT ';';".toList
    let second := "SELECT `a;b` -- c;\n  ;".toList
    let last := "SELECT 'it\\'s;".toList
    let script := ' ' :: (first ++ (second ++ ("\n\n".toList ++ (last ++ "\t\n".toList))))
    let joined := first ++ ('\n' :: (second ++ last))
    statements script = [first, second, last] ∧ ConsistsOf [first, second, last] joined
      ∧ statements joined = [first, second, last] ∧ statements last = [last]
      ∧ IsClosed (first ++ (second ++ "\n\n".toList))
      ∧ statements (first ++ (second ++ "\n\n".toList) ++ last)
        = statements (first ++ (second ++ "\n\n".toList)) ++ statements last := by
  intro first second last script joined
  have hscript : statements script = [first, second, last] := by decide
  have hjoined : ConsistsOf [first, second, last] joined :=
    .statement (b := []) (by decide) (.statement (b := ['\n']) (by decide)
      (consistsOf_singleton last))
  have hclosed : IsClosed (first ++ (second ++ "\n\n".toList)) := by
    refine .inr ⟨first ++ "SELECT `a;b` -- c;\n  ".toList, "\n\n".toList, ?_, ?_, ?_⟩
    · decide
    · decide
    · decide
  obtain ⟨-, hback, hself, happend⟩ :=
    statements_come_back script (first ++ (second ++ "\n\n".toList))
  rw [hscript] at hback hself
  exact ⟨hscript, hjoined, hback joined hjoined, hself last (by decide), hclosed,
    happend hclosed last⟩

end SchemaDialects.Script
