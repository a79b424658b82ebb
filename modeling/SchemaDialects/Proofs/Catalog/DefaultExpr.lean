import SchemaDialects.Proofs.Catalog.Literals
import SchemaDialects.Proofs.Definition.Chunks
import SchemaDialects.Proofs.Rendering.Lines
import SchemaDialects.Script.Lexical

/-!
# Defaults that are one expression

A value from MySQL's catalog is kept as it stands if it looks like an expression: if its
two ends do, or if every character is of the right class, in which the classes go beyond
ASCII. Most values become one literal, numeral, keyword or group in parentheses, and a
column's definition goes on behind them. Two literals with a definition's end between
them have the ends of one, and are kept too. What has become an expression is kept from
then on.
-/

namespace SchemaDialects

open Text

/-! ## Reading a definition -/

/-- Where a reader of a column definition stands, and under how many parentheses. -/
inductive Nesting where
  | plain (depth : Nat)
  | quoted (q : Quote) (depth : Nat)
  /-- In quotes, after a backslash. -/
  | escaped (q : Quote) (depth : Nat)
  deriving DecidableEq

namespace Nesting

def depth : Nesting → Nat
  | plain n | quoted _ n | escaped _ n => n

/-- Reads a character. A doubled quote closes the quotes and opens them again, and only
to MySQL a backslash takes the next character's meaning away. -/
def step (d : Dialect) : Nesting → Char → Nesting
  | plain n, c =>
    match Quote.ofChar? c with
    | some q => quoted q n
    | none => plain (if c = '(' then n + 1 else if c = ')' then n - 1 else n)
  | quoted q n, c =>
    if d = .mysql ∧ c = '\\' ∧ q.escapes = true then escaped q n
    else if c = q.char then plain n
    else quoted q n
  | escaped q n, _ => quoted q n

def run (d : Dialect) (st : Nesting) (s : Text) : Nesting := s.foldl (step d) st

/-- Whether the definition ends at the character: the next one starts behind it, or the
table or the statement is over. -/
def ends (st : Nesting) (c : Char) : Bool := st == plain 0 && ",);".toList.contains c

/-- Where the reader stands behind a text, if the definition does not end inside. -/
def readOn (d : Dialect) (st : Nesting) : Text → Option Nesting
  | [] => some st
  | c :: s => if st.ends c then none else readOn d (st.step d c) s

/-- A character that means nothing to the reader outside quotes. -/
def isInert (c : Char) : Bool := (Quote.ofChar? c).isNone && !"(),;".toList.contains c

variable {d : Dialect} {st : Nesting} {s t : Text}

theorem readOn_append (d : Dialect) (st : Nesting) (s t : Text) :
    readOn d st (s ++ t) = (readOn d st s).bind (readOn d · t) := by
  induction s generalizing st with
  | nil => rfl
  | cons c s ih =>
    rw [List.cons_append, readOn, readOn]
    split
    · rfl
    · exact ih (st.step d c)

theorem readOn_mysql (h : '\\' ∉ s) (st : Nesting) : readOn .mysql st s = readOn .sqlite st s := by
  induction s generalizing st with
  | nil => rfl
  | cons c s ih =>
    obtain ⟨hc, hs⟩ := not_or.1 (List.mem_cons.not.1 h)
    have hstep : st.step .mysql c = st.step .sqlite c := by
      cases st <;> simp [step, Ne.symm hc]
    rw [readOn, readOn, hstep, ih hs]

theorem readOn_of_inert (d : Dialect) (n : Nat) (h : ∀ c ∈ s, isInert c = true) :
    readOn d (plain n) s = some (plain n) := by
  induction s with
  | nil => rfl
  | cons c s ih =>
    have hc := h c (by simp)
    simp only [isInert, Bool.and_eq_true, Option.isNone_iff_eq_none, Bool.not_eq_true',
      List.contains_eq_mem, decide_eq_false_iff_not] at hc
    obtain ⟨hquote, hmem⟩ := hc
    have hne : c ≠ '(' ∧ c ≠ ')' ∧ c ≠ ',' ∧ c ≠ ';' := by
      simpa [not_or] using hmem
    have hends : (plain n).ends c = false := by simp [ends, hne]
    have hstep : (plain n).step d c = plain n := by simp [step, hquote, hne]
    rw [readOn, hends, hstep]
    exact ih fun x hx => h x (by simp [hx])

theorem readOn_group (d : Dialect) (n : Nat) (h : ∀ c ∈ s, isInert c = true) :
    readOn d (plain n) ('(' :: (s ++ [')'])) = some (plain n) := by
  have hopen : (plain n).ends '(' = false := by simp [ends]
  have hclose : (plain (n + 1)).ends ')' = false := by simp [ends]
  rw [readOn, hopen]
  show readOn d (plain (n + 1)) (s ++ [')']) = _
  rw [readOn_append, readOn_of_inert d (n + 1) h, Option.bind_some, readOn, hclose]
  rfl

theorem ends_quoted (q : Quote) (n : Nat) (c : Char) : (quoted q n).ends c = false := by
  simp [ends]

theorem step_quoted (q : Quote) (n : Nat) (c : Char) :
    (quoted q n).step .sqlite c = if c = q.char then plain n else quoted q n := by
  simp [step]

theorem step_char (q : Quote) (n : Nat) : (plain n).step d q.char = quoted q n := by
  cases q <;> rfl

theorem ends_char (q : Quote) (n : Nat) : (plain n).ends q.char = false := by
  cases q <;> simp [ends, Quote.char]

theorem readOn_double (q : Quote) (n : Nat) (s : Text) :
    readOn .sqlite (quoted q n) (double q.char s ++ [q.char]) = some (plain n) := by
  induction s with
  | nil => simp [readOn, ends_quoted, step_quoted]
  | cons c s ih =>
    by_cases hc : c = q.char
    · simp [double, hc, readOn, ends_quoted, step_quoted, ends_char, step_char, ih]
    · simp [double, hc, readOn, ends_quoted, step_quoted, ih]

theorem readOn_quoted (q : Quote) (n : Nat) (s : Text) :
    readOn .sqlite (plain n) (Text.quoted q.char s) = some (plain n) := by
  rw [Text.quoted, List.cons_append, readOn, ends_char, step_char]
  exact readOn_double q n s

theorem readOn_eq_run (h : ∀ a c b, s = a ++ c :: b → (run d st a).ends c = false) :
    readOn d st s = some (run d st s) := by
  induction s generalizing st with
  | nil => rfl
  | cons c s ih =>
    have hc : st.ends c = false := h [] c s rfl
    rw [readOn, hc]
    exact ih fun a x b hs => h (c :: a) x b (by rw [hs]; rfl)

end Nesting

namespace DefaultExpr

open Definition (exists_of_keyword)
open Nesting (readOn isInert)

/-! ## Kinds of expressions -/

/-- A keyword in any case, alone or with digits in parentheses. -/
def IsDefaultKeyword (s : Text) : Prop :=
  ∃ w p, upper w ∈ keywords ∧ (p = [] ∨ ∃ ds, (∀ c ∈ ds, c.isDigit = true) ∧ p = '(' :: (ds ++ [')']))
    ∧ s = w ++ p

/-- The first character is a parenthesis, and outside quotes it is closed by the last
character and not before. -/
structure IsEnclosed (s : Text) : Prop where
  head : s.head? = some '('
  closed : Nesting.run .sqlite (.plain 0) s = .plain 0
  opened : ∀ a b, s = a ++ b → a ≠ [] → b ≠ [] → (Nesting.run .sqlite (.plain 0) a).depth ≠ 0

theorem isEnclosed_iff {s : Text} : IsEnclosed s ↔ s.head? = some '('
    ∧ Nesting.run .sqlite (.plain 0) s = .plain 0
    ∧ ∀ n < s.length, n ≠ 0 → (Nesting.run .sqlite (.plain 0) (s.take n)).depth ≠ 0 := by
  constructor
  · rintro ⟨hhead, hclosed, hopened⟩
    refine ⟨hhead, hclosed, fun n hn hpos => ?_⟩
    apply hopened (s.take n) (s.drop n) (List.take_append_drop n s).symm
    · rw [← List.length_pos_iff, List.length_take]
      omega
    · rw [← List.length_pos_iff, List.length_drop]
      omega
  · rintro ⟨hhead, hclosed, hopened⟩
    refine ⟨hhead, hclosed, fun a b hs ha hb => ?_⟩
    have hlength : a.length < s.length := by
      rw [hs, List.length_append]
      have := List.length_pos_iff.2 hb
      omega
    have := hopened a.length hlength (by simpa using ha)
    rwa [hs, List.take_left] at this

instance (s : Text) : Decidable (IsEnclosed s) := decidable_of_iff' _ isEnclosed_iff

inductive Kind where
  | literal
  | numeral
  | keyword
  | enclosed
  deriving DecidableEq

namespace Kind

def Is : Kind → Text → Prop
  | literal, s => ∃ t, s = quoted '\'' t
  | numeral, s => IsNumericLiteral s
  | keyword, s => IsDefaultKeyword s
  | enclosed, s => IsEnclosed s

def ofHead (c : Char) : Kind :=
  if c = '\'' then literal
  else if c = '(' then enclosed
  else if c.isAlpha then keyword
  else numeral

end Kind

/-- A text that is all that it looks like from its ends, or to a reader of all digits and
letters. -/
structure IsWhatItSeems (s : Text) : Prop where
  ascii : isNumber s = true ∨ isKeyword s = true → IsAscii s
  quotes : isQuoted s = true → ∃ t, s = quoted '\'' t
  parentheses : isParenthesised s = true → IsEnclosed s

variable {s : Text}

/-! ## Keywords -/

theorem upper_of_folds {k m : Text} (hm : IsAscii m)
    (h : List.Forall₂ (fun x c => foldsTo x c = true) k m) : upper m = k := by
  induction h with
  | nil => rfl
  | @cons x c k m hc _ ih =>
    obtain ⟨hascii, hm⟩ := hm.of_cons
    rw [foldsTo_of_isAscii hascii, beq_iff_eq] at hc
    rw [upper_cons, hc, ih hm]

theorem exists_of_precision {r : Text} (h : precision s = some r) :
    ∃ ds, s = '(' :: (ds ++ ')' :: r) ∧ ∀ c ∈ ds, isDigit c = true := by
  obtain ⟨t, ht, hr⟩ := Option.bind_eq_some_iff.1 h
  refine ⟨t.takeWhile isDigit, ?_, fun c hc => List.all_eq_true.1 List.all_takeWhile c hc⟩
  rw [exists_of_char ht, ← exists_of_char hr, List.takeWhile_append_dropWhile]

theorem isDefaultKeyword_of_isKeyword (ha : IsAscii s) (h : isKeyword s = true) :
    IsDefaultKeyword s := by
  obtain ⟨k, hk, hrest⟩ := List.any_eq_true.1 h
  obtain ⟨rest, hread, hend⟩ := (Option.any_eq_true _ _).1 hrest
  obtain ⟨w, rfl, -, hfolds⟩ := exists_of_keyword hread
  have hw : upper w = k := upper_of_folds (fun c hc => ha c (by simp [hc])) hfolds
  refine ⟨w, rest, hw ▸ hk, ?_, rfl⟩
  rw [Bool.or_eq_true, List.isEmpty_iff, beq_iff_eq] at hend
  refine hend.imp_right fun hp => ?_
  obtain ⟨ds, rfl, hds⟩ := exists_of_precision hp
  refine ⟨ds, fun c hc => ?_, rfl⟩
  have hc' := hds c hc
  rwa [isDigit_of_isAscii (ha c (by simp [hc]))] at hc'

theorem isMarkerChar_of_mem_keywords {w : Text} (h : upper w ∈ keywords) :
    ∀ c ∈ w, Dialect.isMarkerChar c = true := by
  have hall : ∀ k ∈ keywords, ∀ x ∈ k, Dialect.isMarkerChar x = true := by decide
  intro c hc
  have hupper := hall _ h c.toUpper (List.mem_map_of_mem hc)
  rcases toUpper_eq_or_isAlpha c with he | ha
  · rwa [he] at hupper
  · exact isMarkerChar_of_isAlpha ha

theorem exists_cons_of_mem_keywords {w : Text} (h : upper w ∈ keywords) :
    ∃ c r, w = c :: r ∧ c.isAlpha = true := by
  have hall : ∀ k ∈ keywords, k.head?.any Char.isAlpha = true := by decide
  have hhead := hall _ h
  cases w with
  | nil => cases hhead
  | cons c r => exact ⟨c, r, rfl, isAlpha_of_toUpper (by simpa [upper] using hhead)⟩

/-! ## The first character -/

theorem Kind.ofHead_of_digit {c : Char} (h : c.isDigit = true ∨ c = '.') :
    Kind.ofHead c = .numeral := by
  rcases h with h | rfl
  · have hlt : c.toNat < 128 := lt_of_isNumericChar (by simp [isNumericChar, h])
    exact forall_ascii (p := fun c => c.isDigit = true → Kind.ofHead c = .numeral)
      (by decide) hlt h
  · rfl

theorem Kind.ofHead_of_alpha {c : Char} (h : c.isAlpha = true) : Kind.ofHead c = .keyword := by
  have hne : c ≠ '\'' ∧ c ≠ '(' := by
    constructor
    · rintro rfl; revert h; decide
    · rintro rfl; revert h; decide
  simp [ofHead, hne, h]

/-- The kinds differ in their first characters. -/
theorem Kind.Is.ofHead {k : Kind} (h : k.Is s) : s.head?.map Kind.ofHead = some k := by
  cases k with
  | literal =>
    obtain ⟨t, rfl⟩ := h
    rfl
  | numeral =>
    obtain ⟨a, m, x, ha, hm, -, rfl⟩ := h
    obtain ⟨c, n, hcn⟩ := List.exists_cons_of_ne_nil hm.ne_nil
    have hc := Kind.ofHead_of_digit (hm.chars c (by simp [hcn]))
    rcases ha with rfl | rfl | rfl
    · simp [hcn, hc]
    · rfl
    · rfl
  | keyword =>
    obtain ⟨w, p, hw, -, rfl⟩ := h
    obtain ⟨c, r, rfl, hc⟩ := exists_cons_of_mem_keywords hw
    simp [Kind.ofHead_of_alpha hc]
  | enclosed =>
    rw [h.head]
    rfl

theorem Kind.eq_of_head {k : Kind} {c : Char} (h : k.Is s) (hc : s.head? = some c) :
    k = Kind.ofHead c := by
  have := h.ofHead
  rw [hc] at this
  exact (Option.some.inj this).symm

theorem Kind.existsUnique_iff : (∃! k : Kind, k.Is s) ↔ ∃ k : Kind, k.Is s := by
  refine ⟨fun ⟨k, hk, _⟩ => ⟨k, hk⟩, fun ⟨k, hk⟩ => ⟨k, hk, fun j hj => ?_⟩⟩
  exact Option.some.inj (hj.ofHead.symm.trans hk.ofHead)

theorem not_isNumber_or_isKeyword {c : Char} (hc : c = '\'' ∨ c = '(') (s : Text) :
    ¬ (isNumber (c :: s) = true ∨ isKeyword (c :: s) = true) := by
  have hdigit : isDigit c = false ∧ c ≠ '+' ∧ c ≠ '-' ∧ c ≠ '.' := by
    rcases hc with rfl | rfl <;> decide
  have hfold : ∀ k ∈ keywords, ∃ x r, k = x :: r ∧ foldsTo x c = false := by
    intro k hk
    have hhead : ∀ k ∈ keywords, k.head?.any (foldsTo · c) = false ∧ k ≠ [] := by
      rcases hc with rfl | rfl <;> decide
    obtain ⟨h, hne⟩ := hhead k hk
    obtain ⟨x, r, rfl⟩ := List.exists_cons_of_ne_nil hne
    exact ⟨x, r, rfl, by simpa using h⟩
  rintro (h | h)
  · simp [isNumber, magnitude, Text.optional, sign, many1, char, hdigit] at h
  · obtain ⟨k, hk, hread⟩ := List.any_eq_true.1 h
    obtain ⟨x, r, rfl, hx⟩ := hfold k hk
    rw [keyword_of_head hx] at hread
    cases hread

theorem isAscii_of_isNumericLiteral (h : IsNumericLiteral s) : IsAscii s :=
  fun c hc => lt_of_isNumericChar (isNumericChar_of_isNumeralChar (h.chars c hc))

theorem isAscii_of_isDefaultKeyword (h : IsDefaultKeyword s) : IsAscii s := by
  obtain ⟨w, p, hw, hp, rfl⟩ := h
  refine IsAscii.append (fun c hc => lt_of_isMarkerChar (isMarkerChar_of_mem_keywords hw c hc)) ?_
  rcases hp with rfl | ⟨ds, hds, rfl⟩
  · exact isAscii_nil
  · refine IsAscii.cons (by decide) (IsAscii.append (fun c hc => ?_) (by decide))
    exact lt_of_isNumericChar (by simp [isNumericChar, hds c hc])

/-! ## Kept values -/

theorem ofRaw_of_isExpression {raw : Text} (h : isExpression (trim raw) = true) :
    ofRaw raw = trim raw := if_pos h

theorem head?_of_isQuoted (h : isQuoted s = true) : s.head? = some '\'' := by
  simp only [isQuoted, Bool.and_eq_true, beq_iff_eq] at h
  exact h.1.2

theorem head?_of_isParenthesised (h : isParenthesised s = true) : s.head? = some '(' := by
  simp only [isParenthesised, Bool.and_eq_true, beq_iff_eq] at h
  exact h.1

theorem Kind.Is.isWhatItSeems {k : Kind} (h : k.Is s) : IsWhatItSeems s where
  ascii hseems := by
    cases k with
    | literal =>
      obtain ⟨t, rfl⟩ := h
      exact absurd hseems (not_isNumber_or_isKeyword (Or.inl rfl) _)
    | numeral => exact isAscii_of_isNumericLiteral h
    | keyword => exact isAscii_of_isDefaultKeyword h
    | enclosed =>
      obtain ⟨t, rfl⟩ := List.head?_eq_some_iff.1 h.head
      exact absurd hseems (not_isNumber_or_isKeyword (Or.inr rfl) _)
  quotes hquoted := by
    obtain rfl : k = .literal := Kind.eq_of_head h (head?_of_isQuoted hquoted)
    exact h
  parentheses hparen := by
    obtain rfl : k = .enclosed := Kind.eq_of_head h (head?_of_isParenthesised hparen)
    exact h

theorem IsWhatItSeems.exists_kind (h : IsWhatItSeems s) (he : isExpression s = true) :
    ∃ k : Kind, k.Is s := by
  simp only [isExpression, Bool.or_eq_true] at he
  rcases he with ((hn | hk) | hq) | hp
  · exact ⟨.numeral, IsNumeral.isNumericLiteral ⟨h.ascii (Or.inl hn), hn⟩⟩
  · exact ⟨.keyword, isDefaultKeyword_of_isKeyword (h.ascii (Or.inr hk)) hk⟩
  · exact ⟨.literal, h.quotes hq⟩
  · exact ⟨.enclosed, h.parentheses hp⟩

theorem isWhatItSeems_of_not_isExpression (h : ¬ isExpression s = true) : IsWhatItSeems s := by
  simp only [isExpression, Bool.or_eq_true, not_or] at h
  obtain ⟨⟨⟨hn, hk⟩, hq⟩, hp⟩ := h
  exact ⟨fun hs => absurd hs (not_or.2 ⟨hn, hk⟩), fun hs => absurd hs hq, fun hs => absurd hs hp⟩

theorem exists_kind_ofRaw_iff (raw : Text) :
    (∃ k : Kind, k.Is (ofRaw raw)) ↔ IsWhatItSeems (trim raw) := by
  by_cases he : isExpression (trim raw) = true
  · rw [ofRaw_of_isExpression he]
    exact ⟨fun ⟨_, hk⟩ => hk.isWhatItSeems, fun h => h.exists_kind he⟩
  · rw [ofRaw, if_neg he]
    exact ⟨fun _ => isWhatItSeems_of_not_isExpression he, fun _ => ⟨.literal, raw, rfl⟩⟩

/-! ## Rendered columns -/

theorem isInert_of_isNumeralChar {c : Char} (h : isNumeralChar c = true) : isInert c = true :=
  forall_ascii (p := fun c => isNumeralChar c = true → isInert c = true) (by decide)
    (lt_of_isNumericChar (isNumericChar_of_isNumeralChar h)) h

theorem isInert_of_isMarkerChar {c : Char} (h : Dialect.isMarkerChar c = true) : isInert c = true :=
  forall_ascii (p := fun c => Dialect.isMarkerChar c = true → isInert c = true) (by decide)
    (lt_of_isMarkerChar h) h

theorem readOn_of_isDefaultKeyword (h : IsDefaultKeyword s) (d : Dialect) :
    readOn d (.plain 0) s = some (.plain 0) := by
  obtain ⟨w, p, hw, hp, rfl⟩ := h
  have hword := isMarkerChar_of_mem_keywords hw
  rw [Nesting.readOn_append, Nesting.readOn_of_inert d 0 fun c hc => isInert_of_isMarkerChar (hword c hc)]
  rcases hp with rfl | ⟨ds, hds, rfl⟩
  · rfl
  · exact Nesting.readOn_group d 0 fun c hc =>
      isInert_of_isNumeralChar (isNumeralChar_of_digit (hds c hc))

theorem readOn_of_isEnclosed (h : IsEnclosed s) : readOn .sqlite (.plain 0) s = some (.plain 0) := by
  rw [Nesting.readOn_eq_run, h.closed]
  intro a c b hs
  cases a with
  | nil =>
    obtain rfl : c = '(' := by
      have hhead := h.head
      rw [hs] at hhead
      exact Option.some.inj hhead
    rfl
  | cons x a =>
    have hdepth := h.opened (x :: a) (c :: b) hs (by simp) (by simp)
    unfold Nesting.ends
    rw [beq_eq_false_iff_ne.2, Bool.false_and]
    intro he
    rw [he] at hdepth
    exact hdepth rfl

theorem Kind.Is.readOn {k : Kind} (h : k.Is s) : readOn .sqlite (.plain 0) s = some (.plain 0) := by
  cases k with
  | literal =>
    obtain ⟨t, rfl⟩ := h
    exact Nesting.readOn_quoted .single 0 t
  | numeral => exact Nesting.readOn_of_inert _ 0 fun c hc => isInert_of_isNumeralChar (h.chars c hc)
  | keyword => exact readOn_of_isDefaultKeyword h _
  | enclosed => exact readOn_of_isEnclosed h

theorem isInert_keyAttributes (r : Renderer) (c : Column) (inline : Bool) :
    ∀ x ∈ r.keyAttributes c inline, isInert x = true := by
  have hmarker : ∀ d : Dialect, ∀ x ∈ ' ' :: d.marker, isInert x = true := by
    intro d
    cases d <;> decide
  exact Renderer.forall_keyAttributes hmarker (by decide) r c inline

theorem column_of_default {c : Column} {expr : Text} (h : c.default? = some expr) (r : Renderer)
    (inline : Bool) :
    ∃ front, r.column c inline
      = front ++ (" DEFAULT ".toList ++ (expr ++ r.keyAttributes c inline)) := by
  refine ⟨r.dialect.quote c.name ++ ' ' :: c.declaredType
    ++ (if c.nullable then [] else " NOT NULL".toList), ?_⟩
  rw [Renderer.column, h, Option.elim_some]
  simp only [List.append_assoc]

theorem readOn_behind_default {k : Kind} (h : k.Is s) {r : Renderer}
    (hescape : r.dialect = .mysql → '\\' ∉ s) (c : Column) (inline : Bool) :
    readOn r.dialect (.plain 0) (s ++ r.keyAttributes c inline) = some (.plain 0) := by
  have hdefault : readOn r.dialect (.plain 0) s = some (.plain 0) := by
    cases r with
    | mysql storage => exact (Nesting.readOn_mysql (hescape rfl) _).trans h.readOn
    | sqlite => exact h.readOn
  rw [Nesting.readOn_append, hdefault]
  exact Nesting.readOn_of_inert _ 0 (isInert_keyAttributes r c inline)

/-- A value becomes one expression of one kind exactly if it is what it seems. In a column
with that default, in MySQL without a backslash, the definition then goes on to its end. -/
theorem ofRaw_one_kind_iff (raw : Text) :
    ((∃! k : Kind, k.Is (ofRaw raw)) ↔ IsWhatItSeems (trim raw)) ∧
      (IsWhatItSeems (trim raw) → ∀ (r : Renderer) (c : Column) (inline : Bool),
        c.default? = some (ofRaw raw) → (r.dialect = .mysql → '\\' ∉ ofRaw raw) →
          ∃ front, r.column c inline
              = front ++ (" DEFAULT ".toList ++ (ofRaw raw ++ r.keyAttributes c inline)) ∧
            readOn r.dialect (.plain 0) (ofRaw raw ++ r.keyAttributes c inline) = some (.plain 0)) := by
  refine ⟨Kind.existsUnique_iff.trans (exists_kind_ofRaw_iff raw), fun h r c inline hc hescape => ?_⟩
  obtain ⟨k, hk⟩ := (exists_kind_ofRaw_iff raw).2 h
  obtain ⟨front, hfront⟩ := column_of_default hc r inline
  exact ⟨front, hfront, readOn_behind_default hk hescape c inline⟩

/-- A call in parentheses is one expression, and its column goes on behind it. -/
theorem ofRaw_one_kind_iff_uuid :
    let raw := "(uuid())".toList
    let c := (Column.ofType "id".toList "TEXT".toList).withDefault (ofRaw raw)
    (∃! k : Kind, k.Is (ofRaw raw)) ∧ ∃ front,
      Renderer.sqlite.column c false = front ++ " DEFAULT (uuid())".toList
        ∧ readOn .sqlite (.plain 0) "(uuid())".toList = some (.plain 0) := by
  intro raw c
  have hseems : IsWhatItSeems (trim raw) :=
    ⟨fun _ => by decide +kernel, fun h => absurd h (by decide +kernel), fun _ => by decide +kernel⟩
  obtain ⟨hkind, hcolumn⟩ := ofRaw_one_kind_iff raw
  obtain ⟨front, hfront, hread⟩ := hcolumn hseems .sqlite c false rfl (fun h => by cases h)
  exact ⟨hkind.2 hseems, front, hfront, hread⟩

/-- Two literals have the ends of one. The definition ends between them, and the next
column is the value's. -/
theorem ofRaw_adds_column :
    let raw := "'a', b INT DEFAULT 'c'".toList
    (¬ ∃! k : Kind, k.Is (ofRaw raw)) ∧ readOn .sqlite (.plain 0) (ofRaw raw) = none := by
  refine ⟨fun h => ?_, by decide +kernel⟩
  obtain ⟨t, ht⟩ := ((exists_kind_ofRaw_iff _).1 h.exists).quotes (by decide +kernel)
  have hread : readQuoted '\'' (quoted '\'' t ++ []) = some (t, []) :=
    readQuoted_quoted '\'' t (by simp)
  rw [List.append_nil, ← ht] at hread
  have hfirst : readQuoted '\'' (trim "'a', b INT DEFAULT 'c'".toList)
      = some ("a".toList, ", b INT DEFAULT 'c'".toList) := by decide +kernel
  rw [hfirst] at hread
  exact absurd (Prod.mk.inj (Option.some.inj hread)).2 (by decide)

/-! ## Expressions again -/

theorem getLast?_literal (s : Text) : (literal s).getLast? = some '\'' := List.getLast?_concat

theorem isExpression_literal (s : Text) : isExpression (literal s) = true := by
  have hlength : 2 ≤ (literal s).length := by
    rw [literal, quoted, List.cons_append, List.length_cons, List.length_append,
      List.length_singleton]
    omega
  have hquoted : isQuoted (literal s) = true := by
    rw [isQuoted, getLast?_literal, decide_eq_true hlength]
    rfl
  rw [isExpression, hquoted, Bool.or_true, Bool.true_or]

theorem trim_literal (s : Text) : trim (literal s) = literal s := by
  refine trim_eq_self (show isBlank '\'' = false by decide) ?_
  rw [getLast?_literal]
  decide

/-- Each of the two results is an expression without outer blanks. -/
theorem ofRaw_ofRaw (raw : Text) : ofRaw (ofRaw raw) = ofRaw raw := by
  have hsettled {s : Text} (he : isExpression s = true) (ht : trim s = s) : ofRaw s = s := by
    rw [ofRaw_of_isExpression (by rwa [ht]), ht]
  by_cases he : isExpression (trim raw) = true
  · rw [ofRaw_of_isExpression he]
    exact hsettled he (Definition.trim_trim raw)
  · have hraw : ofRaw raw = literal raw := if_neg he
    rw [hraw]
    exact hsettled (isExpression_literal raw) (trim_literal raw)

/-- A value is turned into the same expression once and twice. One that is not taken for an
expression becomes a single literal, from which it is read back with the blanks around it. -/
theorem ofRaw_settles_and_reads_back (raw : Text) :
    ofRaw (ofRaw raw) = ofRaw raw ∧
      (isNumber (trim raw) = false → isKeyword (trim raw) = false → isQuoted (trim raw) = false →
        isParenthesised (trim raw) = false →
          ofRaw raw = quoted '\'' raw ∧ readQuoted '\'' (ofRaw raw) = some (raw, []) ∧
            ∀ rest, readQuoted '\'' (ofRaw raw ++ rest) = some (raw, rest) ↔
              rest.head? ≠ some '\'') := by
  refine ⟨ofRaw_ofRaw raw, fun hn hk hq hp => ?_⟩
  have hraw : ofRaw raw = quoted '\'' raw := by
    rw [ofRaw, isExpression, hn, hk, hq, hp]
    rfl
  have hread := readQuoted_quoted_iff '\'' raw
  rw [hraw]
  refine ⟨rfl, ?_, hread⟩
  have hend := (hread []).2 (by simp)
  rwa [List.append_nil] at hend

/-- Blanks around the value, and quotes at its end. -/
theorem ofRaw_settles_and_reads_back_oclock :
    let raw := " o'clock'' ".toList
    isNumber (trim raw) = false ∧ isKeyword (trim raw) = false ∧ isQuoted (trim raw) = false
      ∧ isParenthesised (trim raw) = false ∧ ofRaw raw = "' o''clock'''' '".toList
      ∧ ofRaw (ofRaw raw) = ofRaw raw ∧ readQuoted '\'' (ofRaw raw) = some (raw, []) := by
  intro raw
  have hn : isNumber (trim raw) = false := by decide +kernel
  have hk : isKeyword (trim raw) = false := by decide +kernel
  have hq : isQuoted (trim raw) = false := by decide +kernel
  have hp : isParenthesised (trim raw) = false := by decide +kernel
  obtain ⟨htwice, hback⟩ := ofRaw_settles_and_reads_back raw
  obtain ⟨hraw, hread, -⟩ := hback hn hk hq hp
  exact ⟨hn, hk, hq, hp, hraw.trans (by decide +kernel), htwice, hread⟩

end DefaultExpr

end SchemaDialects
