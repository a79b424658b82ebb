import SchemaDialects.Proofs.Definition.Trailing
import SchemaDialects.Proofs.Script.Sqlite

/-!
# Where the comment of a line starts

A line is cut at the first two dashes outside quotes, and to the reader that cuts
it a backslash is a character like any other. The splitter sees the comment at the
same place where every closing quote stands behind an even number of backslashes.
Behind the first quote that does not, a comment is cut that the splitter reads as
part of a literal.
-/

namespace SchemaDialects

/-! ## The first comment of a text -/

namespace Lexical

variable {step : Lexical → Char → Lexical} {st : Lexical} {s : Text}

/-- Two dashes stand at the place `i`, and a reader that takes `step` at each character
is outside quotes and comments there. -/
def OpensComment (step : Lexical → Char → Lexical) (st : Lexical) (s : Text) (i : Nat) : Prop :=
  ((s.take i).foldl step st).isOutside = true ∧ "--".toList <+: s.drop i

def OpensFirst (step : Lexical → Char → Lexical) (st : Lexical) (s : Text) (i : Nat) : Prop :=
  OpensComment step st s i ∧ ∀ j < i, ¬ OpensComment step st s j

def isBlock : Lexical → Bool
  | blockComment | blockStar => true
  | _ => false

/-- Whether the reader meets a block comment. -/
def meetsBlock (step : Lexical → Char → Lexical) (st : Lexical) : Text → Bool
  | [] => st.isBlock
  | c :: s => st.isBlock || meetsBlock step (step st c) s

theorem dashes_iff {c : Char} : "--".toList <+: c :: s ↔ c = '-' ∧ s.head? = some '-' := by
  cases s with
  | nil => simp
  | cons d s => simp [List.cons_prefix_cons, eq_comm]

theorem opensComment_zero {c : Char} :
    OpensComment step st (c :: s) 0 ↔ st.isOutside = true ∧ c = '-' ∧ s.head? = some '-' := by
  unfold OpensComment
  rw [List.take_zero, List.drop_zero, dashes_iff, List.foldl_nil]

theorem opensComment_succ {c : Char} {i : Nat} :
    OpensComment step st (c :: s) (i + 1) ↔ OpensComment step (step st c) s i := Iff.rfl

theorem OpensComment.of_append {t : Text} {i : Nat} (h : OpensComment step st (s ++ t) i)
    (hi : i + 2 ≤ s.length) : OpensComment step st s i := by
  obtain ⟨hout, hdashes⟩ := h
  rw [List.take_append_of_le_length (by omega)] at hout
  rw [List.drop_append_of_le_length (by omega)] at hdashes
  refine ⟨hout, List.prefix_of_prefix_length_le hdashes (List.prefix_append _ t) ?_⟩
  rw [List.length_drop]
  change 2 ≤ _
  omega

theorem not_opensComment_nil {i : Nat} : ¬ OpensComment step st [] i := by
  simp [OpensComment]

theorem opensFirst_zero {c : Char} :
    OpensFirst step st (c :: s) 0 ↔ st.isOutside = true ∧ c = '-' ∧ s.head? = some '-' := by
  simp [OpensFirst, opensComment_zero]

theorem opensFirst_succ {c : Char} {i : Nat} :
    OpensFirst step st (c :: s) (i + 1) ↔
      ¬ (st.isOutside = true ∧ c = '-' ∧ s.head? = some '-') ∧ OpensFirst step (step st c) s i := by
  unfold OpensFirst
  rw [opensComment_succ, Nat.forall_lt_succ_left, opensComment_zero]
  simp only [opensComment_succ]
  tauto

theorem isBlock_of_meetsBlock (h : meetsBlock step st s = false) : st.isBlock = false := by
  cases s with
  | nil => exact h
  | cons c s => exact (Bool.or_eq_false_iff.1 h).1

theorem meetsBlock_append_eq_false {s t : Text} : meetsBlock step st (s ++ t) = false ↔
    meetsBlock step st s = false ∧ meetsBlock step (s.foldl step st) t = false := by
  induction s generalizing st with
  | nil => exact ⟨fun h => ⟨isBlock_of_meetsBlock h, h⟩, And.right⟩
  | cons c s ih => simp [meetsBlock, ih, and_assoc]

theorem isBlock_foldl (h : meetsBlock step st s = false) : (s.foldl step st).isBlock = false := by
  rw [← List.append_nil s, meetsBlock_append_eq_false] at h
  exact h.2

end Lexical

namespace Definition

open Text Lexical

/-! ## The reader that cuts -/

/-- The place where a line is cut. -/
def cutPlace? (line : Text) : Option Nat := (beforeComment none line).map List.length

theorem withoutComment_eq (line : Text) : withoutComment line =
    ((cutPlace? line).map fun i => trimEnd (line.take i)).getD line := by
  unfold withoutComment cutPlace?
  cases h : beforeComment none line with
  | none => rfl
  | some u => simp [← List.prefix_iff_eq_take.1 (isPrefix_beforeComment h)]

/-- The quote that is open in a state. -/
def openQuote : Lexical → Option Char
  | .quoted q => some q.char
  | _ => none

theorem openQuote_opening (c : Char) : openQuote (opening c) = quoteAfter none c := by
  unfold opening quoteAfter
  by_cases hdash : c = '-'
  · simp [hdash, openQuote]
  · by_cases hslash : c = '/'
    · simp [hslash, openQuote]
    · simp only [hdash, hslash, if_false, Quote.ofChar?]
      by_cases hsingle : c = '\''
      · simp [hsingle, openQuote, Quote.char]
      · by_cases hdouble : c = '"'
        · simp [hdouble, openQuote, Quote.char]
        · by_cases htick : c = '`'
          · simp [htick, openQuote, Quote.char]
          · simp [hsingle, hdouble, htick, openQuote]

/-- The states of SQLite's reader before a comment: outside quotes, with no dash just
read that the text would complete, or in quotes. -/
def BeforeComments (st : Lexical) (s : Text) : Prop :=
  (st.isOutside = true ∧ (st = dash → s.head? ≠ some '-')) ∨ ∃ q, st = Lexical.quoted q

theorem beforeComments_plain (s : Text) : BeforeComments plain s := .inl ⟨rfl, nofun⟩

theorem beforeComments_opening {c : Char} {s : Text} (h : c = '-' → s.head? ≠ some '-') :
    BeforeComments (opening c) s := by
  unfold opening
  by_cases hdash : c = '-'
  · exact .inl ⟨by simp [hdash, isOutside], fun _ => h hdash⟩
  · by_cases hslash : c = '/'
    · exact .inl (by simp [hslash, isOutside])
    · simp only [hdash, hslash, if_false]
      cases Quote.ofChar? c with
      | none => exact .inl (by simp [isOutside])
      | some q => exact .inr ⟨q, rfl⟩

theorem openQuote_of_isOutside {st : Lexical} (h : st.isOutside = true) : openQuote st = none := by
  cases st with
  | quoted q => cases h
  | _ => rfl

theorem stepSqlite_of_isOutside {st : Lexical} (h : st.isOutside = true) {c : Char}
    (hdash : st = dash → c ≠ '-') (hblock : (st.stepSqlite c).isBlock = false) :
    st.stepSqlite c = opening c := by
  cases st with
  | plain => rfl
  | dash => exact if_neg (hdash rfl)
  | slash =>
    by_cases hc : c = '*'
    · subst hc
      cases hblock
    · exact if_neg hc
  | _ => cases h

/-- Where no comment opens the two readers go on with the same quotes. -/
theorem BeforeComments.step {st : Lexical} {c : Char} {s : Text} (h : BeforeComments st (c :: s))
    (hblock : (st.stepSqlite c).isBlock = false)
    (hno : ¬ (st.isOutside = true ∧ c = '-' ∧ s.head? = some '-')) :
    BeforeComments (st.stepSqlite c) s
      ∧ openQuote (st.stepSqlite c) = quoteAfter (openQuote st) c := by
  rcases h with ⟨hout, hdash⟩ | ⟨q, rfl⟩
  · have hopen : st.stepSqlite c = opening c :=
      stepSqlite_of_isOutside hout (fun h hc => hdash h (by rw [hc]; rfl)) hblock
    rw [hopen, openQuote_of_isOutside hout]
    exact ⟨beforeComments_opening fun hc hs => hno ⟨hout, hc, hs⟩, openQuote_opening c⟩
  · by_cases hc : c = q.char
    · have hstep : (Lexical.quoted q).stepSqlite c = plain := if_pos hc
      rw [hstep]
      exact ⟨.inl (by simp [isOutside]), by simp [openQuote, quoteAfter, hc]⟩
    · have hstep : (Lexical.quoted q).stepSqlite c = Lexical.quoted q := if_neg hc
      rw [hstep]
      exact ⟨.inr ⟨q, rfl⟩, by simp [openQuote, quoteAfter, hc]⟩

theorem cut_iff_opensFirst_from {st : Lexical} {s : Text} (h : BeforeComments st s)
    (hblock : meetsBlock stepSqlite st s = false) (i : Nat) :
    (beforeComment (openQuote st) s).map List.length = some i ↔ OpensFirst stepSqlite st s i := by
  induction s generalizing st i with
  | nil => simp [beforeComment, OpensFirst, not_opensComment_nil]
  | cons c s ih =>
    rw [meetsBlock, Bool.or_eq_false_iff] at hblock
    rw [beforeComment_cons]
    by_cases hc : st.isOutside = true ∧ c = '-' ∧ s.head? = some '-'
    · rw [if_pos ⟨openQuote_of_isOutside hc.1, hc.2⟩]
      cases i with
      | zero => simp [opensFirst_zero, hc]
      | succ i => simp [opensFirst_succ, hc]
    · obtain ⟨hnext, hquote⟩ := h.step (isBlock_of_meetsBlock hblock.2) hc
      have hcut : ¬ (openQuote st = none ∧ c = '-' ∧ s.head? = some '-') := by
        rintro ⟨hnone, hdashes⟩
        rcases h with ⟨hout, -⟩ | ⟨q, rfl⟩
        · exact hc ⟨hout, hdashes⟩
        · cases hnone
      rw [if_neg hcut, Option.map_map, ← hquote]
      cases i with
      | zero => simp [opensFirst_zero, hc]
      | succ i =>
        rw [opensFirst_succ, and_iff_right hc, ← ih hnext hblock.2]
        simp

/-! ## The splitter -/

open Script (closesEvenly)

theorem closesEvenly_append {st : Lexical} {odd : Bool} (s t : Text) :
    closesEvenly st odd (s ++ t) = (closesEvenly st odd s
      && closesEvenly (s.foldl stepSqlite st) (s.foldl oddBehind odd) t) := by
  induction s generalizing st odd with
  | nil => rfl
  | cons c s ih => simp [closesEvenly, ih, Bool.and_assoc]

theorem run_escapedIf {st : Lexical} (hst : st.isEscaped = false) {odd : Bool} {s : Text}
    (h : closesEvenly st odd s = true) :
    (st.escapedIf odd).run s = (s.foldl stepSqlite st).escapedIf (s.foldl oddBehind odd) := by
  induction s generalizing st odd with
  | nil => rfl
  | cons c s ih =>
    rw [closesEvenly, Bool.and_eq_true, Bool.not_eq_true'] at h
    rw [Lexical.run_cons, step_escapedIf hst h.1, ih (isEscaped_stepSqlite hst c) h.2]
    rfl

theorem meetsBlock_escapedIf {st : Lexical} (hst : st.isEscaped = false) {odd : Bool} {s : Text}
    (h : closesEvenly st odd s = true) :
    meetsBlock Lexical.step (st.escapedIf odd) s = meetsBlock stepSqlite st s := by
  have hblock (st : Lexical) (odd : Bool) : (st.escapedIf odd).isBlock = st.isBlock := by
    cases st with
    | quoted q => cases q <;> cases odd <;> rfl
    | _ => rfl
  induction s generalizing st odd with
  | nil => exact hblock st odd
  | cons c s ih =>
    rw [closesEvenly, Bool.and_eq_true, Bool.not_eq_true'] at h
    rw [meetsBlock, meetsBlock, step_escapedIf hst h.1, ih (isEscaped_stepSqlite hst c) h.2, hblock]

theorem opensComment_iff {s : Text} (h : closesEvenly .plain false s = true) (i : Nat) :
    OpensComment Lexical.step .plain s i ↔ OpensComment stepSqlite .plain s i := by
  have hpart : closesEvenly .plain false (s.take i) = true := by
    rw [← List.take_append_drop i s, closesEvenly_append, Bool.and_eq_true] at h
    exact h.1
  have hrun := run_escapedIf rfl hpart
  rw [escapedIf_false] at hrun
  unfold OpensComment
  change (Lexical.run _ _).isOutside = true ∧ _ ↔ _
  rw [hrun, isOutside_escapedIf]

/-- A quote that closes behind an odd number of backslashes has only even ones before
it, if it is the first. -/
theorem exists_odd {st : Lexical} {odd : Bool} {s : Text} (h : closesEvenly st odd s = false) :
    ∃ a c b, s = a ++ c :: b ∧ closesEvenly st odd a = true
      ∧ a.foldl oddBehind odd = true ∧ (a.foldl stepSqlite st).closes c = true := by
  induction s generalizing st odd with
  | nil => cases h
  | cons c s ih =>
    rw [closesEvenly, Bool.and_eq_false_iff, Bool.not_eq_false', Bool.and_eq_true] at h
    by_cases hc : odd = true ∧ st.closes c = true
    · exact ⟨[], c, s, rfl, rfl, hc⟩
    · obtain ⟨a, d, b, rfl, ha, hodd, hcloses⟩ := ih (h.resolve_left hc)
      refine ⟨c :: a, d, b, rfl, ?_, hodd, hcloses⟩
      rw [closesEvenly, ha, Bool.and_true, Bool.not_eq_true', Bool.and_eq_false_iff]
      simpa [Decidable.imp_iff_not_or] using hc

theorem exists_of_closes {st : Lexical} {c : Char} (h : st.closes c = true) :
    ∃ q, st = Lexical.quoted q ∧ q.escapes = true ∧ c = q.char := by
  cases st with
  | quoted q =>
    rw [closes, Bool.and_eq_true, beq_iff_eq] at h
    exact ⟨q, rfl, h⟩
  | _ => cases h

theorem foldl_lineComment {s : Text} (hs : '\n' ∉ s) :
    s.foldl stepSqlite lineComment = lineComment := by
  induction s with
  | nil => rfl
  | cons c s ih =>
    rw [List.mem_cons, not_or] at hs
    have hstep : lineComment.stepSqlite c = lineComment := if_neg (Ne.symm hs.1)
    rw [List.foldl_cons, hstep, ih hs.2]

theorem foldl_of_opensComment {s : Text} (hs : '\n' ∉ s) {i : Nat}
    (h : OpensComment stepSqlite plain s i) : s.foldl stepSqlite plain = lineComment := by
  obtain ⟨hout, t, ht⟩ := h
  have hsplit : s = s.take i ++ ('-' :: '-' :: t) := by
    conv_lhs => rw [← List.take_append_drop i s, ← ht]
    rfl
  have htwo (st : Lexical) (hst : st.isOutside = true) :
      (st.stepSqlite '-').stepSqlite '-' = lineComment := by
    cases st with
    | plain | dash | slash => rfl
    | _ => cases hst
  have hbreak : '\n' ∉ t := fun hm => hs (by rw [hsplit]; simp [hm])
  rw [hsplit, List.foldl_append, List.foldl_cons, List.foldl_cons, htwo _ hout]
  exact foldl_lineComment hbreak

/-- Dashes behind a line that leaves SQLite's reader in plain text are its first comment. -/
theorem opensFirst_append_dashes {s : Text} (hs : '\n' ∉ s)
    (hplain : s.foldl stepSqlite plain = plain) :
    OpensFirst stepSqlite plain (s ++ "--".toList) s.length := by
  refine ⟨⟨?_, ?_⟩, fun j hj hopen => ?_⟩
  · rw [List.take_left, hplain]
    rfl
  · simp only [List.drop_left, List.prefix_refl]
  · by_cases hlast : j + 1 = s.length
    · -- The first dash would be the last character of the line.
      have hlong : s.drop j ≠ [] := by simpa using hj
      have hdashes := hopen.2
      rw [List.drop_append_of_le_length (by omega)] at hdashes
      obtain ⟨c, t, ht⟩ := List.exists_cons_of_ne_nil hlong
      rw [ht, List.cons_append, dashes_iff] at hdashes
      obtain rfl := hdashes.1
      have hnil : t = [] := by
        have hlength := congrArg List.length ht
        rw [List.length_drop, List.length_cons] at hlength
        exact List.length_eq_zero_iff.1 (by omega)
      have hne (st : Lexical) : st.stepSqlite '-' ≠ plain := by
        cases st with
        | quoted q => cases q <;> nofun
        | _ => nofun
      rw [← List.take_append_drop j s, ht, hnil, List.foldl_append] at hplain
      exact hne _ hplain
    · have hcomment := foldl_of_opensComment hs (hopen.of_append (by omega))
      rw [hplain] at hcomment
      cases hcomment

/-! ## Agreement -/

/-- A line on which the splitter meets no block comment. -/
structure IsReadable (line : Text) : Prop where
  not_break : '\n' ∉ line
  not_block : meetsBlock Lexical.step plain line = false

/-- The line is cut where the splitter, outside quotes, first reads two dashes. -/
def IsCutAtComment (line : Text) : Prop :=
  ∀ i, cutPlace? line = some i ↔ OpensFirst Lexical.step plain line i

theorem isCutAtComment_of_closesEvenly {line : Text}
    (hblock : meetsBlock Lexical.step plain line = false)
    (h : closesEvenly plain false line = true) : IsCutAtComment line := by
  intro i
  have hblock' : meetsBlock stepSqlite plain line = false := by
    rw [← meetsBlock_escapedIf rfl h]
    exact hblock
  have hcut := cut_iff_opensFirst_from (beforeComments_plain line) hblock' i
  unfold OpensFirst at hcut ⊢
  simp only [opensComment_iff h]
  exact hcut

theorem closesEvenly_append_dashes {s : Text} (h : closesEvenly plain false s = true) :
    closesEvenly plain false (s ++ "--".toList) = true := by
  have hcloses (st : Lexical) : st.closes '-' = false := by
    cases st with
    | quoted q => cases q <;> rfl
    | _ => rfl
  rw [closesEvenly_append, h]
  simp [closesEvenly, hcloses]

theorem meetsBlock_append_dashes {s : Text} (h : meetsBlock Lexical.step plain s = false) :
    meetsBlock Lexical.step plain (s ++ "--".toList) = false := by
  have hdash (st : Lexical) (hst : st.isBlock = false) : (st.step '-').isBlock = false := by
    cases st with
    | blockComment | blockStar => cases hst
    | quoted q => cases q <;> rfl
    | _ => rfl
  have hlast := isBlock_foldl h
  rw [meetsBlock_append_eq_false]
  exact ⟨h, by simp [meetsBlock, hlast, hdash _ hlast, hdash _ (hdash _ hlast)]⟩

/-- Behind a quote that closes oddly only one of the two readers sees a comment. -/
theorem not_isCutAtComment_of_odd {a : Text} {c : Char} (hbreak : '\n' ∉ a)
    (hblock : meetsBlock Lexical.step plain a = false) (ha : closesEvenly plain false a = true)
    (hodd : a.foldl oddBehind false = true) (hc : (a.foldl stepSqlite plain).closes c = true) :
    ¬ IsCutAtComment (a ++ [c] ++ "--".toList) := by
  obtain ⟨q, hq, hescapes, rfl⟩ := exists_of_closes hc
  have hsqlite : (a ++ [q.char]).foldl stepSqlite plain = plain := by
    rw [List.foldl_append, hq]
    exact if_pos rfl
  have hsplitter : (a ++ [q.char]).foldl Lexical.step plain = Lexical.quoted q := by
    have hrun := run_escapedIf rfl ha
    rw [escapedIf_false, hq, hodd] at hrun
    rw [List.foldl_append]
    change (plain.run a).step q.char = Lexical.quoted q
    rw [hrun]
    simp [escapedIf, hescapes, Lexical.step]
  have hbreak' : '\n' ∉ a ++ [q.char] := by cases q <;> simp [Quote.char, hbreak]
  have hfirst := opensFirst_append_dashes hbreak' hsqlite
  have hblock' : meetsBlock stepSqlite plain (a ++ [q.char] ++ "--".toList) = false := by
    have ha' : meetsBlock stepSqlite plain a = false := by
      rw [← meetsBlock_escapedIf rfl ha]
      exact hblock
    rw [meetsBlock_append_eq_false, meetsBlock_append_eq_false, hsqlite, hq]
    refine ⟨⟨ha', ?_⟩, rfl⟩
    cases q <;> rfl
  intro h
  have hcut := (cut_iff_opensFirst_from (beforeComments_plain _) hblock' _).2 hfirst
  have hout := ((h _).1 hcut).1.1
  rw [List.take_left, hsplitter] at hout
  cases hout

/-- Exactly if every single or double quote that closes its part stands behind an even
number of backslashes, a line and all its beginnings, with a comment put behind them or
without, are cut where the splitter sees the comment. -/
theorem isCutAtComment_iff {line : Text} (h : IsReadable line) :
    withoutComment line = ((cutPlace? line).map fun i => trimEnd (line.take i)).getD line ∧
    (closesEvenly plain false line = true ↔
      ∀ a, a <+: line → IsCutAtComment a ∧ IsCutAtComment (a ++ "--".toList)) := by
  refine ⟨withoutComment_eq line, fun heven => ?_, fun hcut => ?_⟩
  · rintro a ⟨b, rfl⟩
    rw [closesEvenly_append, Bool.and_eq_true] at heven
    have hblock := (meetsBlock_append_eq_false.1 h.not_block).1
    exact ⟨isCutAtComment_of_closesEvenly hblock heven.1,
      isCutAtComment_of_closesEvenly (meetsBlock_append_dashes hblock)
        (closesEvenly_append_dashes heven.1)⟩
  · by_contra hodd
    rw [Bool.not_eq_true] at hodd
    obtain ⟨a, c, b, rfl, ha, hbehind, hcloses⟩ := exists_odd hodd
    have hbreak : '\n' ∉ a := fun hm => h.not_break (List.mem_append_left _ hm)
    have hblock := (meetsBlock_append_eq_false.1 h.not_block).1
    have hprefix : a ++ [c] <+: a ++ c :: b := ⟨b, by simp⟩
    exact not_isCutAtComment_of_odd hbreak hblock ha hbehind hcloses (hcut _ hprefix).2

theorem isCutAtComment_iff_doubled :
    let line := "note TEXT DEFAULT 'it''s -- \\\\' -- don't".toList
    IsReadable line ∧ closesEvenly plain false line = true ∧ IsCutAtComment line
      ∧ cutPlace? line = some 32 := by
  intro line
  have hline : IsReadable line := ⟨by decide, by decide⟩
  have heven : closesEvenly plain false line = true := by decide
  exact ⟨hline, heven, (((isCutAtComment_iff hline).2.1 heven) line (List.prefix_refl line)).1,
    by decide⟩

/-- The dashes stand in a literal with an escaped quote, and the line is cut there. -/
theorem not_isCutAtComment_escaped :
    let line := "note TEXT DEFAULT 'it\\'s -- here'".toList
    IsReadable line ∧ withoutComment line = "note TEXT DEFAULT 'it\\'s".toList
      ∧ ¬ IsCutAtComment line := by
  intro line
  refine ⟨⟨by decide, by decide⟩, by decide, fun h => ?_⟩
  have hopen := ((h 25).1 (by decide)).1.1
  revert hopen
  decide

end Definition

end SchemaDialects
