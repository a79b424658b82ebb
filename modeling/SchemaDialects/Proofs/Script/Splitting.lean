import SchemaDialects.Proofs.Script.Settled
import SchemaDialects.Proofs.Text.Scan

/-!
# The statements of a script by one reading

A script is read once from left to right, a quoted part or a comment at a time.
Cut behind the semicolons that stand between these parts, it falls into the
pieces that the splitter finds by starting afresh behind each semicolon.
-/

namespace SchemaDialects.Script

open Text Lexical

/-! ## Parts of a script -/

/-- What follows a quoted part whose opening quote has been read. -/
def afterQuoted (q : Quote) : Text → Text
  | [] => []
  | c :: s =>
    if c = '\\' ∧ q.escapes then
      match s with
      | [] => []
      | _ :: s => afterQuoted q s
    else if c = q.char then s
    else afterQuoted q s

/-- What follows a block comment whose two first characters have been read. -/
def afterBlock : Text → Text
  | '*' :: '/' :: s => s
  | _ :: s => afterBlock s
  | [] => []

/-- What follows the first part of a script: a quoted part, a comment, or a single
character. A line comment leaves its line break. -/
def afterPart : Text → Text
  | [] => []
  | c :: s =>
    match Quote.ofChar? c with
    | some q => afterQuoted q s
    | none =>
      if c = '-' ∧ s.head? = some '-' then s.dropWhile (· != '\n')
      else if c = '/' ∧ s.head? = some '*' then afterBlock s.tail
      else s

theorem afterQuoted_suffix (q : Quote) (s : Text) : afterQuoted q s <:+ s := by
  fun_induction afterQuoted q s with
  | case1 => simp
  | case2 c h => simp
  | case3 c h x s ih => exact (ih.trans (List.suffix_cons x s)).trans (List.suffix_cons c _)
  | case4 s h => exact List.suffix_cons q.char s
  | case5 c s h hc ih => exact ih.trans (List.suffix_cons c s)

theorem afterBlock_suffix (s : Text) : afterBlock s <:+ s := by
  fun_induction afterBlock s with
  | case1 s => exact (List.suffix_cons '/' s).trans (List.suffix_cons '*' _)
  | case2 c s h ih => exact ih.trans (List.suffix_cons c s)
  | case3 => simp

theorem afterPart_suffix (c : Char) (s : Text) : afterPart (c :: s) <:+ s := by
  simp only [afterPart]
  split
  · exact afterQuoted_suffix _ s
  · split
    · exact List.dropWhile_suffix _
    · split
      · exact (afterBlock_suffix s.tail).trans (List.tail_suffix s)
      · exact List.suffix_refl s

/-- The parts of a script, in one reading. -/
def parts (s : Text) : List Text :=
  match s with
  | [] => []
  | c :: s => before (c :: s) (afterPart (c :: s)) :: parts (afterPart (c :: s))
termination_by s.length
decreasing_by
  have h := (afterPart_suffix c s).length_le
  simp only [List.length_cons]
  omega

/-- Cuts a list behind the elements that satisfy `p`. -/
def cutBehind {α : Type} (p : α → Bool) : List α → List (List α)
  | [] => []
  | a :: l =>
    if p a then [a] :: cutBehind p l
    else match cutBehind p l with
      | [] => [[a]]
      | b :: bs => (a :: b) :: bs

/-- A script cut behind the semicolons that are parts of it. -/
def cutAtSemicolons (script : Text) : List Text :=
  (cutBehind (· == [';']) (parts script)).map List.flatten

/-! ## Starting afresh -/

/-- The length of the first statement for a reader in the state `st`. -/
def statementEnd (st : Lexical) : Text → Nat
  | [] => 0
  | c :: s => if c = ';' ∧ st.isOutside then 1 else statementEnd (st.step c) s + 1

/-- Cuts off one statement after the other, and reads each from the start. -/
def cutAfresh (s : Text) : List Text :=
  if s = [] then []
  else s.take (statementEnd plain s) :: cutAfresh (s.drop (statementEnd plain s))
termination_by s.length
decreasing_by
  rename_i h
  obtain ⟨c, s, rfl⟩ := List.exists_cons_of_ne_nil h
  have hpos : 0 < statementEnd plain (c :: s) := by
    unfold statementEnd
    split <;> omega
  simp only [List.length_drop, List.length_cons]
  omega

/-! ## Pieces -/

/-- Puts `m` before the first piece. -/
def prepend (m : Text) : List Text → List Text
  | [] => if m = [] then [] else [m]
  | p :: ps => (m ++ p) :: ps

@[simp] theorem prepend_nil (ps : List Text) : prepend [] ps = ps := by
  cases ps <;> simp [prepend]

theorem prepend_prepend (m n : Text) (ps : List Text) :
    prepend m (prepend n ps) = prepend (m ++ n) ps := by
  cases ps with
  | nil => by_cases hn : n = [] <;> simp [prepend, hn]
  | cons p ps => simp [prepend]

theorem pieces_cons (st : Lexical) (c : Char) (s : Text) :
    pieces st (c :: s) = if c = ';' ∧ st.isOutside then [c] :: pieces plain s
      else prepend [c] (pieces (st.step c) s) := by
  rw [pieces]
  split
  · rfl
  · cases pieces (st.step c) s <;> simp [prepend]

theorem pieces_cons_of_inside {st : Lexical} (h : st.isOutside = false) (c : Char) (s : Text) :
    pieces st (c :: s) = prepend [c] (pieces (st.step c) s) := by
  rw [pieces_cons, if_neg]
  simp [h]

theorem pieces_cons_of_ne {c : Char} (h : c ≠ ';') (st : Lexical) (s : Text) :
    pieces st (c :: s) = prepend [c] (pieces (st.step c) s) := by
  rw [pieces_cons, if_neg]
  simp [h]

/-- Two states that step apart at `x` alone, such as the one behind a dash and plain text, read the
same pieces of a text that starts with another character. -/
theorem pieces_of_head_ne {st st' : Lexical} {x : Char} (hstep : ∀ c, c ≠ x → st'.step c = st.step c)
    (hout : st'.isOutside = st.isOutside) {s : Text} (h : s.head? ≠ some x) :
    pieces st' s = pieces st s := by
  cases s with
  | nil => rfl
  | cons c s =>
    have hc : c ≠ x := by simpa using h
    rw [pieces_cons, pieces_cons, hout, hstep c hc]

/-- From `st` the splitter reads on to the end `rest` of the text without ending a piece, and reads
`rest` as plain text. -/
def ReadsTo (st : Lexical) (s rest : Text) : Prop :=
  ∃ m, s = m ++ rest ∧ pieces st s = prepend m (pieces plain rest)

theorem ReadsTo.refl (s : Text) : ReadsTo plain s s := ⟨[], rfl, (prepend_nil _).symm⟩

theorem ReadsTo.cons {st : Lexical} {c : Char} {s rest : Text} (hc : ¬(c = ';' ∧ st.isOutside))
    (h : ReadsTo (st.step c) s rest) : ReadsTo st (c :: s) rest := by
  obtain ⟨m, hs, hm⟩ := h
  refine ⟨c :: m, by rw [List.cons_append, ← hs], ?_⟩
  rw [pieces_cons, if_neg hc, hm, prepend_prepend]
  rfl

theorem ReadsTo.cons_of_inside {st : Lexical} (hin : st.isOutside = false) {c : Char} {s rest : Text}
    (h : ReadsTo (st.step c) s rest) : ReadsTo st (c :: s) rest :=
  h.cons (by simp [hin])

theorem ReadsTo.congr {st st' : Lexical} {s rest : Text} (h : ReadsTo st s rest)
    (he : pieces st' s = pieces st s) : ReadsTo st' s rest := by
  obtain ⟨m, hs, hm⟩ := h
  exact ⟨m, hs, he.trans hm⟩

theorem readsTo_quoted (q : Quote) (s : Text) : ReadsTo (quoted q) s (afterQuoted q s) := by
  fun_induction afterQuoted q s with
  | case1 => exact ⟨[], rfl, rfl⟩
  | case2 c h =>
    refine ⟨[c], rfl, ?_⟩
    rw [pieces_cons_of_inside rfl]
    rfl
  | case3 c h x s ih =>
    have hstep : (quoted q).step c = escaped q := if_pos h
    refine .cons_of_inside rfl ?_
    rw [hstep]
    exact .cons_of_inside rfl ih
  | case4 s h =>
    have hstep : (quoted q).step q.char = plain := by simp only [Lexical.step, if_neg h, if_true]
    refine .cons_of_inside rfl ?_
    rw [hstep]
    exact .refl s
  | case5 c s h hc ih =>
    have hstep : (quoted q).step c = quoted q := by simp only [Lexical.step, if_neg h, if_neg hc]
    refine .cons_of_inside rfl ?_
    rwa [hstep]

theorem readsTo_lineComment (s : Text) : ReadsTo lineComment s (s.dropWhile (· != '\n')) := by
  induction s with
  | nil => exact ⟨[], rfl, rfl⟩
  | cons c s ih =>
    by_cases hc : c = '\n'
    · subst hc
      rw [List.dropWhile_cons_of_neg (by decide)]
      exact ⟨[], rfl, (prepend_nil _).symm⟩
    · have hstep : lineComment.step c = lineComment := by simp [Lexical.step, hc]
      rw [List.dropWhile_cons_of_pos (by simpa using hc)]
      refine .cons_of_inside rfl ?_
      rwa [hstep]

theorem readsTo_blockComment (s : Text) : ReadsTo blockComment s (afterBlock s) := by
  fun_induction afterBlock s with
  | case1 s => exact .cons_of_inside rfl (.cons_of_inside rfl (.refl s))
  | case2 c s h ih =>
    refine .cons_of_inside rfl (ih.congr ?_)
    by_cases hc : c = '*'
    · subst hc
      have hstep : ∀ x, x ≠ '/' → blockStar.step x = blockComment.step x := fun x hx => if_neg hx
      refine pieces_of_head_ne hstep rfl fun hh => ?_
      obtain ⟨t, rfl⟩ := List.head?_eq_some_iff.1 hh
      exact h t rfl rfl
    · simp [Lexical.step, hc]
  | case3 => exact ⟨[], rfl, rfl⟩

/-- Behind the first part of a script the splitter stands in plain text again. -/
theorem readsTo_afterPart {c : Char} (hc : c ≠ ';') (s : Text) :
    ReadsTo plain (c :: s) (afterPart (c :: s)) := by
  refine .cons (fun h => hc h.1) ?_
  simp only [afterPart]
  split
  · next q hq =>
    have hdash : c ≠ '-' := by
      rintro rfl
      cases (show none = some q from hq)
    have hslash : c ≠ '/' := by
      rintro rfl
      cases (show none = some q from hq)
    have hstep : plain.step c = quoted q := by simp [Lexical.step, opening, hdash, hslash, hq]
    rw [hstep]
    exact readsTo_quoted q s
  · next hq =>
    split
    · next hd =>
      obtain ⟨rfl, hd⟩ := hd
      obtain ⟨t, rfl⟩ := List.head?_eq_some_iff.1 hd
      rw [List.dropWhile_cons_of_pos (by decide)]
      exact .cons (by decide) (readsTo_lineComment t)
    · next hd =>
      split
      · next hb =>
        obtain ⟨rfl, hb⟩ := hb
        obtain ⟨t, rfl⟩ := List.head?_eq_some_iff.1 hb
        exact .cons (by decide) (readsTo_blockComment t)
      · next hb =>
        refine (ReadsTo.refl s).congr ?_
        by_cases hdash : c = '-'
        · subst hdash
          have hstep : ∀ x, x ≠ '-' → dash.step x = plain.step x := fun x hx => if_neg hx
          exact pieces_of_head_ne hstep rfl fun h => hd ⟨rfl, h⟩
        · by_cases hslash : c = '/'
          · subst hslash
            have hstep : ∀ x, x ≠ '*' → slash.step x = plain.step x := fun x hx => if_neg hx
            exact pieces_of_head_ne hstep rfl fun h => hb ⟨rfl, h⟩
          · simp [Lexical.step, opening, hdash, hslash, hq]

/-! ## One reading and many -/

theorem map_flatten_cutBehind (p : Text → Bool) (a : Text) (ha : a ≠ []) (l : List Text) :
    (cutBehind p (a :: l)).map List.flatten = if p a then a :: (cutBehind p l).map List.flatten
      else prepend a ((cutBehind p l).map List.flatten) := by
  rw [cutBehind]
  split
  · simp
  · cases cutBehind p l <;> simp [prepend, ha]

theorem pieces_eq_cutAtSemicolons (s : Text) : pieces plain s = cutAtSemicolons s := by
  unfold cutAtSemicolons
  induction h : s.length using Nat.strong_induction_on generalizing s with
  | _ n ih =>
    cases s with
    | nil => simp [parts, cutBehind, pieces]
    | cons c s =>
      subst h
      have hlen := (afterPart_suffix c s).length_le
      have ih' := ih (afterPart (c :: s)).length (by simp only [List.length_cons]; omega) _ rfl
      by_cases hc : c = ';'
      · subst hc
        have hpart : afterPart (';' :: s) = s := rfl
        rw [hpart] at ih'
        have hbefore : before (';' :: s) s = [';'] := by simp [before]
        rw [parts, hpart, hbefore, map_flatten_cutBehind _ _ (by simp), ← ih', pieces_cons]
        rfl
      · obtain ⟨m, hs, hm⟩ := readsTo_afterPart hc s
        have hbefore : before (c :: s) (afterPart (c :: s)) = m := by
          generalize afterPart (c :: s) = rest at hs
          rw [hs, before_append_self]
        have hne : m ≠ [] := by
          rintro rfl
          have := congrArg List.length hs
          simp only [List.nil_append, List.length_cons] at this
          omega
        have hsemi : (m == [';']) = false := by
          rw [beq_eq_false_iff_ne]
          rintro rfl
          exact hc (List.cons.inj hs).1
        rw [parts, hbefore, map_flatten_cutBehind _ _ hne, hsemi, ← ih', hm]
        rfl

theorem pieces_eq_cons (st : Lexical) {s : Text} (h : s ≠ []) :
    pieces st s = s.take (statementEnd st s) :: pieces plain (s.drop (statementEnd st s)) := by
  induction s generalizing st with
  | nil => exact absurd rfl h
  | cons c s ih =>
    rw [pieces_cons, statementEnd]
    split
    · simp
    · by_cases hs : s = []
      · simp [hs, pieces, prepend, statementEnd]
      · rw [ih _ hs]
        simp [prepend]

theorem pieces_eq_cutAfresh (s : Text) : pieces plain s = cutAfresh s := by
  fun_induction cutAfresh s with
  | case1 => rfl
  | case2 s h ih => rw [pieces_eq_cons plain h, ih]

/-! ## Bytes -/

/-- The bytes of a text, each as the character of its number. -/
def bytes (s : Text) : Text :=
  s.flatMap fun c => (String.utf8EncodeChar c).map fun b => Char.ofNat b.toNat

theorem bytes_cons (c : Char) (s : Text) : bytes (c :: s) = bytes [c] ++ bytes s := by
  simp [bytes]

theorem bytes_of_ascii {c : Char} (h : c.toNat < 128) : bytes [c] = [c] := by
  have hle : c.val.toNat ≤ 127 := Nat.le_of_lt_succ h
  have hval : Char.ofNat (UInt8.ofNat c.val.toNat).toNat = c := by
    rw [UInt8.toNat_ofNat', Nat.mod_eq_of_lt (by omega)]
    exact Char.ofNat_toNat c
  rw [bytes, List.flatMap_singleton, String.utf8EncodeChar]
  simp only [if_pos hle, List.map_cons, List.map_nil, hval]

theorem isOrdinary_of_le {c : Char} (h : 128 ≤ c.toNat) : isOrdinary c = true := by
  have hall : ∀ x ∈ specials, x.toNat < 128 := by decide
  simp only [isOrdinary, Bool.not_eq_true', List.contains_eq_mem, decide_eq_false_iff_not]
  intro hm
  have := hall c hm
  omega

theorem bytes_of_le {c : Char} (h : 128 ≤ c.toNat) :
    ∃ b bs, bytes [c] = b :: bs ∧ ∀ x ∈ b :: bs, isOrdinary x = true := by
  have hbyte : ∀ n : Nat, 128 ≤ n → n < 256 →
      isOrdinary (Char.ofNat (UInt8.ofNat n).toNat) = true := by
    intro n hn hlt
    have hvalid : n.isValidChar := Or.inl (by omega)
    have hnat : (Char.ofNat n).toNat = n := by
      rw [Char.ofNat, dif_pos hvalid]
      rfl
    rw [UInt8.toNat_ofNat', Nat.mod_eq_of_lt hlt]
    refine isOrdinary_of_le ?_
    rwa [hnat]
  have hne : ¬ c.val.toNat ≤ 127 := by
    have : c.val.toNat = c.toNat := rfl
    omega
  simp only [bytes, List.flatMap_cons, List.flatMap_nil, List.append_nil, String.utf8EncodeChar,
    if_neg hne]
  split
  · exact ⟨_, _, rfl, by simp; constructor <;> apply hbyte <;> omega⟩
  · split
    · exact ⟨_, _, rfl, by simp; refine ⟨?_, ?_, ?_⟩ <;> apply hbyte <;> omega⟩
    · exact ⟨_, _, rfl, by simp; refine ⟨?_, ?_, ?_, ?_⟩ <;> apply hbyte <;> omega⟩

theorem steady_lexical (st : Lexical) : (st.step 'A').step 'A' = st.step 'A' :=
  congrArg Reading.lexical (Reading.steady_step ⟨st, .before⟩)

theorem pieces_ordinary (st : Lexical) {b : Char} {bs : Text}
    (h : ∀ x ∈ b :: bs, isOrdinary x = true) (s : Text) :
    pieces st (b :: bs ++ s) = prepend (b :: bs) (pieces (st.step 'A') s) := by
  have hne : ∀ x ∈ b :: bs, x ≠ ';' := fun x hx => ne_of_isOrdinary (h x hx) ';' (by decide)
  induction bs generalizing b st with
  | nil =>
    rw [List.cons_append, pieces_cons_of_ne (hne b (by simp)),
      lexical_step_of_isOrdinary (h b (by simp))]
    rfl
  | cons x bs ih =>
    rw [List.cons_append, pieces_cons_of_ne (hne b (by simp)),
      lexical_step_of_isOrdinary (h b (by simp)), ih _ (fun y hy => h y (by simp [hy]))
        (fun y hy => hne y (by simp [hy])), steady_lexical, prepend_prepend]
    rfl

theorem map_bytes_prepend (c : Char) (ps : List Text) :
    (prepend [c] ps).map bytes = prepend (bytes [c]) (ps.map bytes) := by
  cases ps with
  | nil =>
    have hne : bytes [c] ≠ [] := by
      by_cases h : c.toNat < 128
      · simp [bytes_of_ascii h]
      · obtain ⟨b, bs, hb, -⟩ := bytes_of_le (by omega : 128 ≤ c.toNat)
        simp [hb]
    simp [prepend, hne]
  | cons p ps => simp [prepend, bytes_cons c p]

/-- The splitter may read bytes as well as characters: it cuts between characters
only. -/
theorem pieces_bytes (st : Lexical) (s : Text) : pieces st (bytes s) = (pieces st s).map bytes := by
  induction s generalizing st with
  | nil => rfl
  | cons c s ih =>
    rw [bytes_cons, pieces_cons]
    by_cases h : c.toNat < 128
    · rw [bytes_of_ascii h, List.singleton_append, pieces_cons, ih, ih]
      split
      · rw [List.map_cons, bytes_of_ascii h]
      · rw [map_bytes_prepend, bytes_of_ascii h]
    · have hle : 128 ≤ c.toNat := by omega
      have hc := isOrdinary_of_le hle
      obtain ⟨b, bs, hb, hord⟩ := bytes_of_le hle
      rw [hb, pieces_ordinary st hord, ih, ← lexical_step_of_isOrdinary hc st, ← hb,
        ← map_bytes_prepend, if_neg]
      simp [ne_of_isOrdinary hc ';' (by decide)]

/-! ## Statements -/

/-- The statements of a script are its pieces between the semicolons that one
reading of it shows, without outer blanks and without the blank ones. A reader
that starts afresh behind each semicolon finds the same pieces, and so does one
that reads bytes. No piece is empty, and together they are the script. -/
theorem statements_eq_cutAtSemicolons (script : Text) :
    statements script = ((cutAtSemicolons script).map trim).filter (· ≠ [])
      ∧ cutAfresh script = cutAtSemicolons script
      ∧ (cutAtSemicolons script).flatten = script
      ∧ (∀ p ∈ cutAtSemicolons script, p ≠ [])
      ∧ cutAtSemicolons (bytes script) = (cutAtSemicolons script).map bytes := by
  have hpieces := pieces_eq_cutAtSemicolons script
  refine ⟨?_, ?_, ?_, ?_, ?_⟩
  · rw [statements, hpieces]
  · rw [← pieces_eq_cutAfresh, hpieces]
  · rw [← hpieces, flatten_pieces]
  · intro p hp
    rw [← hpieces] at hp
    exact ne_nil_of_mem_pieces hp
  · rw [← pieces_eq_cutAtSemicolons, pieces_bytes, hpieces]

end SchemaDialects.Script
