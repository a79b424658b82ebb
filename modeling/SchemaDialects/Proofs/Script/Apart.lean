import SchemaDialects.Proofs.Script.Closed

/-!
# Statements kept apart

A script that is put together from statements splits into the same statements
again exactly if the splitter finds the end of each but the last where it is, and
finds none earlier. Where it misses one, two statements become one.
-/

namespace SchemaDialects.Script

open Text Lexical

/-- Whether the first semicolon outside quotes and comments is the end of the text,
for a reader that takes `step` at each character. -/
def endsAtSemicolon (step : Lexical → Char → Lexical) (st : Lexical) : Text → Bool
  | [] => false
  | c :: s => if c = ';' ∧ st.isOutside then s.isEmpty else endsAtSemicolon step (step st c) s

/-- The splitter finds no end in the text, and reads on behind it. -/
def LeavesOpen (st : Lexical) (s : Text) : Prop :=
  ∀ u, pieces st (s ++ u) = prepend s (pieces (st.run s) u)

structure IsTerminated (s : Text) : Prop where
  trim_eq : trim s = s
  getLast_eq : s.getLast? = some ';'

/-- The statements stand in the script one after the other, and only blanks stand
around them. -/
inductive ConsistsOf : List Text → Text → Prop
  | blanks {b : Text} : (∀ c ∈ b, isBlank c = true) → ConsistsOf [] b
  | statement {b s script : Text} {ss : List Text} :
    (∀ c ∈ b, isBlank c = true) → ConsistsOf ss script → ConsistsOf (s :: ss) (b ++ (s ++ script))

/-- The splitter reads every statement but the last up to its end, and cuts none in
two. -/
def SplitApart : List Text → Prop
  | [] => True
  | [s] => pieces plain s = [s]
  | s :: t :: ss => endsAtSemicolon Lexical.step plain s = true ∧ SplitApart (t :: ss)

/-! ## Ends -/

section
variable {step : Lexical → Char → Lexical} {st : Lexical} {s : Text}

theorem getLast?_of_ends (h : endsAtSemicolon step st s = true) : s.getLast? = some ';' := by
  induction s generalizing st with
  | nil => cases h
  | cons c s ih =>
    rw [endsAtSemicolon] at h
    split at h
    · next hc =>
      rw [List.isEmpty_iff.1 h, hc.1]
      rfl
    · have hs := ih h
      rw [List.getLast?_cons, hs]
      rfl

theorem pieces_append_of_ends (h : endsAtSemicolon Lexical.step st s = true) (u : Text) :
    pieces st (s ++ u) = s :: pieces plain u := by
  induction s generalizing st with
  | nil => cases h
  | cons c s ih =>
    rw [endsAtSemicolon] at h
    rw [List.cons_append, pieces_cons]
    split at h
    · next hc =>
      rw [if_pos hc, List.isEmpty_iff.1 h]
      rfl
    · next hc =>
      rw [if_neg hc, ih h]
      rfl

theorem pieces_of_ends (h : endsAtSemicolon Lexical.step st s = true) : pieces st s = [s] := by
  have hs := pieces_append_of_ends h []
  rwa [List.append_nil] at hs

/-- The splitter finds an end in the text, or it reads on whatever follows. -/
theorem ends_or_open (st : Lexical) (s : Text) :
    (∃ x y, s = x ++ y ∧ endsAtSemicolon Lexical.step st x = true) ∨ LeavesOpen st s := by
  induction s generalizing st with
  | nil => exact .inr fun u => (prepend_nil _).symm
  | cons c s ih =>
    by_cases hc : c = ';' ∧ st.isOutside = true
    · exact .inl ⟨[c], s, rfl, by rw [endsAtSemicolon, if_pos hc]; rfl⟩
    · rcases ih (st.step c) with ⟨x, y, rfl, hx⟩ | hopen
      · exact .inl ⟨c :: x, y, rfl, by rwa [endsAtSemicolon, if_neg hc]⟩
      · refine .inr fun u => ?_
        rw [List.cons_append, pieces_cons, if_neg hc, hopen u, prepend_prepend]
        rfl

theorem ends_or_open_of_single (hs : ';' ∉ s.dropLast) (st : Lexical) :
    endsAtSemicolon Lexical.step st s = true ∨ LeavesOpen st s := by
  rcases ends_or_open st s with ⟨x, y, rfl, hx⟩ | hopen
  · by_cases hy : y = []
    · rw [hy, List.append_nil]
      exact .inl hx
    · rw [List.dropLast_append_of_ne_nil hy] at hs
      exact absurd (List.mem_append_left _ (List.mem_of_getLast? (getLast?_of_ends hx))) hs
  · exact .inr hopen

theorem not_open_of_ends (h : endsAtSemicolon Lexical.step st s = true) (t : Text) :
    ¬ LeavesOpen st (s ++ t) := by
  intro hopen
  have hcut := hopen ['x']
  rw [List.append_assoc, pieces_append_of_ends h, pieces_eq_cons plain (by simp),
    pieces_cons_of_ne (by decide)] at hcut
  exact absurd (congrArg List.length hcut) (by simp [pieces, prepend])

theorem not_ends_of_open (h : LeavesOpen st s) : ¬ endsAtSemicolon Lexical.step st s = true := by
  intro hends
  refine not_open_of_ends hends [] ?_
  rwa [List.append_nil]

theorem pieces_of_open (hne : s ≠ []) (h : LeavesOpen st s) : pieces st s = [s] := by
  have hs := h []
  rwa [List.append_nil, pieces, prepend, if_neg hne] at hs

theorem splitApart_cons_of_ends (h : endsAtSemicolon Lexical.step plain s = true)
    (ss : List Text) : SplitApart (s :: ss) ↔ SplitApart ss := by
  cases ss with
  | nil => exact iff_of_true (pieces_of_ends h) trivial
  | cons t ss => exact and_iff_right h

theorem pieces_of_splitApart {ss : List Text} (h : SplitApart (s :: ss)) : pieces plain s = [s] := by
  cases ss with
  | nil => exact h
  | cons t ss => exact pieces_of_ends h.1

end

/-! ## Blank pieces -/

theorem filter_blanks {b : Text} (hb : ∀ c ∈ b, isBlank c = true) :
    b.filter (! isBlank ·) = [] :=
  List.filter_eq_nil_iff.2 fun c hc => by simp [hb c hc]

theorem filter_trim (s : Text) : (trim s).filter (! isBlank ·) = s.filter (! isBlank ·) := by
  have hstart : (trimStart s).filter (! isBlank ·) = s.filter (! isBlank ·) := by
    conv_rhs => rw [← List.takeWhile_append_dropWhile (p := isBlank) (l := s), List.filter_append,
      filter_blanks fun c hc => List.mem_takeWhile_imp hc]
    rfl
  obtain ⟨b, hb, hblank⟩ := exists_dropEndWhile isBlank (trimStart s)
  rw [← hstart]
  conv_rhs => rw [hb, List.filter_append, filter_blanks hblank, List.append_nil]
  rfl

theorem blanks_of_filter_append {s t : Text}
    (h : (s ++ t).filter (! isBlank ·) = s.filter (! isBlank ·)) : ∀ c ∈ t, isBlank c = true := by
  rw [List.filter_append, List.append_right_eq_self, List.filter_eq_nil_iff] at h
  exact fun c hc => by simpa using h c hc

theorem trim_ne_nil {s : Text} {c : Char} (hc : c ∈ s) (hb : isBlank c = false) : trim s ≠ [] := by
  intro h
  have hs := filter_trim s
  rw [h, List.filter_nil] at hs
  simpa [hb] using List.filter_eq_nil_iff.1 hs.symm c hc

theorem trimmed_cons {p : Text} {c : Char} (hc : c ∈ p) (hb : isBlank c = false) (ps : List Text) :
    trimmed (p :: ps) = trim p :: trimmed ps := by
  rw [trimmed, List.map_cons, List.filter_cons_of_pos (by simpa using trim_ne_nil hc hb)]
  rfl

/-- Behind an end the splitter starts afresh, and what ends there is not blank. -/
theorem trimmed_pieces_append_of_ends {st : Lexical} {s : Text}
    (h : endsAtSemicolon Lexical.step st s = true) (u : Text) :
    trimmed (pieces st (s ++ u)) = trim s :: statements u := by
  rw [pieces_append_of_ends h, trimmed_cons (List.mem_of_getLast? (getLast?_of_ends h)) (by decide)]
  rfl

theorem exists_first_piece (st : Lexical) {u : Text} {c : Char} (hc : c ∈ u)
    (hb : isBlank c = false) :
    ∃ p ps, pieces st u = p :: ps ∧ ∃ d ∈ p, isBlank d = false := by
  induction u generalizing st c with
  | nil => cases hc
  | cons x u ih =>
    rw [pieces_cons]
    split
    · next hx => exact ⟨[x], _, rfl, ';', by simp [hx.1], by decide⟩
    · rcases List.mem_cons.1 hc with rfl | hc
      · cases pieces (st.step c) u with
        | nil => exact ⟨[c], [], rfl, c, by simp, hb⟩
        | cons p ps => exact ⟨c :: p, ps, rfl, c, by simp, hb⟩
      · obtain ⟨p, ps, hp, d, hd, hdb⟩ := ih (st.step x) hc hb
        exact ⟨x :: p, ps, by rw [hp]; rfl, d, by simp [hd], hdb⟩

/-! ## Splitting -/

section
variable {ss : List Text} {s script : Text}

theorem IsTerminated.mem (h : IsTerminated s) : ';' ∈ s := List.mem_of_getLast? h.getLast_eq

/-- A statement whose end the splitter misses is cut off at the end of the script. -/
theorem IsTerminated.trimmed_pieces (h : IsTerminated s) {st : Lexical}
    (hopen : LeavesOpen st s) {b : Text}
    (hb : ∀ c ∈ b, isBlank c = true) : trimmed (pieces st (s ++ b)) = [s] := by
  have hone := pieces_append_of_not_mem (semicolon_not_mem_blanks hb) (st.run s) []
  rw [List.append_nil] at hone
  rw [hopen, hone, prepend_prepend, pieces, prepend, if_neg (by simp [List.ne_nil_of_mem h.mem]),
    trimmed_cons (List.mem_append_left b h.mem) (by decide), trim_append_blank hb, h.trim_eq]
  rfl

theorem mem_of_consistsOf (h : ConsistsOf (s :: ss) script) (hs : IsTerminated s) :
    ';' ∈ script := by
  cases h with
  | statement hb hrest => simp [hs.mem]

/-- A script splits into the statements that it is put together from exactly if the
splitter keeps them apart. -/
theorem statements_eq_iff (h : ConsistsOf ss script) (hs : ∀ s ∈ ss, IsTerminated s) :
    statements script = ss ↔ SplitApart ss := by
  induction h with
  | blanks hb => exact iff_of_true (statements_blanks hb) trivial
  | @statement b s script ss hb hrest ih =>
    have hterm := hs s (by simp)
    have hterms := fun t ht => hs t (List.mem_cons_of_mem s ht)
    rw [statements_blanks_append hb]
    show trimmed (pieces plain (s ++ script)) = _ ↔ _
    rcases ends_or_open plain s with ⟨x, y, rfl, hx⟩ | hopen
    · rw [List.append_assoc, trimmed_pieces_append_of_ends hx]
      by_cases hy : y = []
      · subst hy
        rw [List.append_nil] at hterm ⊢
        rw [hterm.trim_eq, splitApart_cons_of_ends hx, ← ih hterms, List.cons.injEq,
          and_iff_right rfl]
        rfl
      · refine iff_of_false (fun heq => ?_) fun happart => ?_
        · have hink := filter_trim x
          rw [(List.cons.inj heq).1] at hink
          have hlast := hterm.getLast_eq
          rw [List.getLast?_append_of_ne_nil x hy] at hlast
          exact absurd (blanks_of_filter_append hink _ (List.mem_of_getLast? hlast)) (by decide)
        · have hsplit := pieces_of_splitApart happart
          rw [pieces_append_of_ends hx, List.cons.injEq] at hsplit
          exact hy (by simpa using hsplit.1)
    · rw [hopen script]
      cases ss with
      | nil =>
        cases hrest with
        | blanks hblank =>
          rw [← hopen script, hterm.trimmed_pieces hopen hblank]
          exact iff_of_true rfl (pieces_of_open (List.ne_nil_of_mem hterm.mem) hopen)
      | cons t ss =>
        obtain ⟨p, ps, hp, d, hd, hdb⟩ := exists_first_piece (plain.run s)
          (mem_of_consistsOf hrest (hterms t (by simp))) (by decide)
        refine iff_of_false (fun heq => ?_) fun happart => not_ends_of_open hopen happart.1
        rw [hp, prepend, trimmed_cons (List.mem_append_right s hd) hdb] at heq
        have hink := filter_trim (s ++ p)
        rw [(List.cons.inj heq).1] at hink
        exact absurd (blanks_of_filter_append hink.symm d hd) (by simp [hdb])

/-! ## Counting -/

theorem length_trimmed_prepend (m : Text) {st : Lexical} {u : Text} {c : Char} (hc : c ∈ u)
    (hb : isBlank c = false) :
    (trimmed (prepend m (pieces st u))).length = (trimmed (pieces st u)).length := by
  obtain ⟨p, ps, hp, d, hd, hdb⟩ := exists_first_piece st hc hb
  rw [hp, prepend, trimmed_cons hd hdb, trimmed_cons (List.mem_append_right m hd) hdb]
  rfl

/-- Wherever the splitter stands before a script whose only semicolons are at the
ends of its statements, it finds no more than these. -/
theorem length_trimmed_pieces_le (h : ConsistsOf ss script) (hs : ∀ s ∈ ss, IsTerminated s)
    (hsingle : ∀ s ∈ ss, ';' ∉ s.dropLast) (st : Lexical) :
    (trimmed (pieces st script)).length ≤ ss.length := by
  induction h generalizing st with
  | @blanks b hb =>
    have hone := pieces_append_of_not_mem (semicolon_not_mem_blanks hb) st []
    rw [List.append_nil] at hone
    rw [hone, trimmed_prepend_blanks hb]
    exact Nat.le_refl 0
  | @statement b s script ss hb hrest ih =>
    have hterm := hs s (by simp)
    have hterms := fun t ht => hs t (List.mem_cons_of_mem s ht)
    have hle := ih hterms fun t ht => hsingle t (List.mem_cons_of_mem s ht)
    rw [pieces_append_of_not_mem (semicolon_not_mem_blanks hb), trimmed_prepend_blanks hb]
    rcases ends_or_open_of_single (hsingle s (by simp)) (st.run b) with hends | hopen
    · rw [trimmed_pieces_append_of_ends hends]
      exact Nat.succ_le_succ (hle plain)
    · cases ss with
      | nil =>
        cases hrest with
        | blanks hblank =>
          rw [hterm.trimmed_pieces hopen hblank]
      | cons t ss =>
        rw [hopen, length_trimmed_prepend s (mem_of_consistsOf hrest (hterms t (by simp)))
          (by decide)]
        exact Nat.le_succ_of_le (hle _)

theorem splitApart_of_length (h : ConsistsOf ss script) (hs : ∀ s ∈ ss, IsTerminated s)
    (hsingle : ∀ s ∈ ss, ';' ∉ s.dropLast) (hlength : (statements script).length = ss.length) :
    SplitApart ss := by
  induction h with
  | blanks hb => trivial
  | @statement b s script ss hb hrest ih =>
    have hterm := hs s (by simp)
    have hterms := fun t ht => hs t (List.mem_cons_of_mem s ht)
    have hsingles := fun t ht => hsingle t (List.mem_cons_of_mem s ht)
    rw [statements_blanks_append hb] at hlength
    have hlength : (trimmed (pieces plain (s ++ script))).length = ss.length + 1 := hlength
    rcases ends_or_open_of_single (hsingle s (by simp)) plain with hends | hopen
    · rw [trimmed_pieces_append_of_ends hends] at hlength
      exact (splitApart_cons_of_ends hends ss).2 (ih hterms hsingles (Nat.succ.inj hlength))
    · cases ss with
      | nil => exact pieces_of_open (List.ne_nil_of_mem hterm.mem) hopen
      | cons t ss =>
        have hle := length_trimmed_pieces_le hrest hterms hsingles (plain.run s)
        rw [hopen, length_trimmed_prepend s (mem_of_consistsOf hrest (hterms t (by simp)))
          (by decide)] at hlength
        omega

end

end SchemaDialects.Script
