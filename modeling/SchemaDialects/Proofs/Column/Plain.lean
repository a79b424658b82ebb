import Mathlib.Data.List.Chain
import SchemaDialects.Catalog.Row
import SchemaDialects.Proofs.Text.Scan
import SchemaDialects.Proofs.Text.Words

/-!
# Plain columns

Columns that both kinds of conversion understand: the name is a bare identifier,
the type a keyword of the dialect with a size or without, and the default a
number or one of two keywords. The words of such a column, its name aside, are
none that a definition is searched for.
-/

namespace SchemaDialects

open Text
open Dialect (isMarkerChar markerWords)

/-! ## Definitions -/

def IsDigits (s : Text) : Prop := s ≠ [] ∧ ∀ c ∈ s, c.isDigit = true

/-- Nothing, or one or two numbers between parentheses. -/
def IsSize (s : Text) : Prop :=
  s = [] ∨ (∃ n, IsDigits n ∧ s = '(' :: n ++ [')']) ∨
    ∃ n k, IsDigits n ∧ IsDigits k ∧ s = '(' :: n ++ ',' :: k ++ [')']

/-- Whether a word of any case is a type keyword of the dialect. -/
def Dialect.hasTypeKeyword (d : Dialect) (w : Text) : Bool :=
  match d with
  | .mysql => (MysqlType.ofName? (upper w)).isSome
  | .sqlite => (StorageClass.ofName? (upper w)).isSome

theorem TypeMap.isSome_ofKeyword? (m : TypeMap) (d : Direction) (w : Text) :
    (m.ofKeyword? d (upper w)).isSome = d.source.hasTypeKeyword w := by
  cases d with
  | mysqlToSqlite => exact Option.isSome_map
  | sqliteToMysql => exact Option.isSome_map

def IsPlainType (d : Dialect) (s : Text) : Prop :=
  ∃ w size, d.hasTypeKeyword w = true ∧ IsSize size ∧ s = w ++ size

def IsNumeral (s : Text) : Prop := IsAscii s ∧ DefaultExpr.isNumber s = true

def IsPlainDefault (s : Text) : Prop :=
  IsNumeral s ∨ s = "NULL".toList ∨ s = "CURRENT_TIMESTAMP".toList

/-- A bare identifier that is neither dialect's marker in any case. -/
structure IsPlainName (name : Text) : Prop where
  bare : Settings.isBareIdentifier name = true
  not_marker : ∀ d : Dialect, upper name ≠ d.marker

structure Column.IsPlain (d : Dialect) (c : Column) : Prop where
  name : IsPlainName c.name
  type : IsPlainType d c.declaredType
  default : ∀ v ∈ c.default?, IsPlainDefault v

theorem chars_of_isBareIdentifier {s : Text} (h : Settings.isBareIdentifier s = true) :
    s ≠ [] ∧ ∀ c ∈ s, isMarkerChar c = true := by
  rw [Settings.isBareIdentifier, Bool.and_eq_true, List.all_eq_true] at h
  exact ⟨by simpa using h.1, h.2⟩

theorem IsPlainName.ne_nil {name : Text} (h : IsPlainName name) : name ≠ [] :=
  (chars_of_isBareIdentifier h.bare).1

theorem IsPlainName.chars {name : Text} (h : IsPlainName name) :
    ∀ c ∈ name, isMarkerChar c = true :=
  (chars_of_isBareIdentifier h.bare).2

/-! ## Atoms -/

def isAtomChar (c : Char) : Bool := isMarkerChar c || "(),.+-".toList.contains c

def NoDashes (s : Text) : Prop := s.IsChain fun a b => ¬ (a = '-' ∧ b = '-')

/-- A part of a definition between two blanks. -/
structure IsAtom (s : Text) : Prop where
  ne_nil : s ≠ []
  chars : ∀ c ∈ s, isAtomChar c = true
  no_dashes : NoDashes s
  head : s.head? ≠ some '('
  last : s.getLast? ≠ some ','

/-- None of the words of `s` is in `ks`, whatever the case. -/
def Avoids (ks : List Text) (s : Text) : Prop := ∀ k ∈ ks, k ∉ markerWords (upper s)

theorem lt_of_isAtomChar {c : Char} (h : isAtomChar c = true) : c.toNat < 128 := by
  rw [isAtomChar, Bool.or_eq_true] at h
  rcases h with h | h
  · exact lt_of_isMarkerChar h
  · have hall : ∀ c ∈ "(),.+-".toList, c.toNat < 128 := by decide
    exact hall c (by simpa using h)

theorem IsAtom.isAscii {s : Text} (h : IsAtom s) : IsAscii s :=
  fun c hc => lt_of_isAtomChar (h.chars c hc)

theorem isBlank_of_isAtomChar {c : Char} (h : isAtomChar c = true) : isBlank c = false :=
  forall_ascii (p := fun c => isAtomChar c = true → isBlank c = false) (by decide)
    (lt_of_isAtomChar h) h

theorem IsAtom.not_blank {s : Text} (h : IsAtom s) {c : Char} (hc : c ∈ s) : isBlank c = false :=
  isBlank_of_isAtomChar (h.chars c hc)

theorem NoDashes.of_not_mem {s : Text} (h : '-' ∉ s) : NoDashes s := by
  induction s with
  | nil => exact List.isChain_nil
  | cons c s ih =>
    have hc : c ≠ '-' := fun e => h (by simp [e])
    refine List.isChain_cons.2 ⟨fun _ _ hd => hc hd.1, ih fun hs => h (by simp [hs])⟩

theorem NoDashes.append {s t : Text} (hs : NoDashes s) (ht : NoDashes t)
    (h : s.getLast? ≠ some '-' ∨ t.head? ≠ some '-') : NoDashes (s ++ t) := by
  refine List.IsChain.append hs ht ?_
  rintro a ha b hb ⟨rfl, rfl⟩
  rcases h with h | h
  · exact h ha
  · exact h hb

theorem mem_of_mem_markerWords {s k : Text} (h : k ∈ markerWords s) : ∀ c ∈ k, c ∈ s := by
  induction s generalizing k with
  | nil =>
    rw [markerWords, List.mem_singleton] at h
    simp [h]
  | cons d s ih =>
    by_cases hd : isMarkerChar d = true
    · obtain ⟨w, ws, hw⟩ := List.exists_cons_of_ne_nil (markerWords_ne_nil s)
      rw [markerWords_cons_of_char hd hw] at h
      rcases List.mem_cons.1 h with rfl | h
      · intro c hc
        rcases List.mem_cons.1 hc with rfl | hc
        · simp
        · exact List.mem_cons_of_mem _ (ih (by simp [hw]) c hc)
      · exact fun c hc => List.mem_cons_of_mem _ (ih (by simp [hw, h]) c hc)
    · rw [markerWords_cons_of_sep (by simpa using hd)] at h
      rcases List.mem_cons.1 h with rfl | h
      · simp
      · exact fun c hc => List.mem_cons_of_mem _ (ih h c hc)

theorem Avoids.mono {ks ls : List Text} {s : Text} (h : Avoids ks s) (hs : ls ⊆ ks) :
    Avoids ls s :=
  fun k hk => h k (hs hk)

theorem Avoids.of_not_mem {ks : List Text} {s : Text}
    (h : ∀ k ∈ ks, ∃ c ∈ k, c ∉ upper s) : Avoids ks s := by
  intro k hk hm
  obtain ⟨c, hc, hn⟩ := h k hk
  exact hn (mem_of_mem_markerWords hm c hc)

theorem Avoids.append_cons {ks : List Text} {c : Char} {s t : Text}
    (hc : isMarkerChar c.toUpper = false) (hs : Avoids ks s) (ht : Avoids ks t) :
    Avoids ks (s ++ c :: t) := by
  intro k hk hm
  rw [upper_append_cons, markerWords_append hc] at hm
  rcases List.mem_append.1 hm with hm | hm
  · exact hs k hk hm
  · exact ht k hk hm

theorem Avoids.cons {ks : List Text} {c : Char} {s : Text} (hc : isMarkerChar c.toUpper = false)
    (hk : [] ∉ ks) (hs : Avoids ks s) : Avoids ks (c :: s) := by
  refine Avoids.append_cons (s := []) hc (fun k hm => ?_) hs
  rw [show markerWords (upper []) = [[]] from rfl, List.mem_singleton]
  rintro rfl
  exact hk hm

theorem Avoids.of_word {ks : List Text} {w : Text} (hw : ∀ c ∈ w, isMarkerChar c = true)
    (h : upper w ∉ ks) : Avoids ks w := by
  have hu : ∀ c ∈ upper w, isMarkerChar c = true := by
    intro c hc
    obtain ⟨d, hd, rfl⟩ := List.mem_map.1 hc
    rw [isMarkerChar_toUpper (lt_of_isMarkerChar (hw d hd))]
    exact hw d hd
  intro k hk hm
  rw [markerWords_of_word hu, List.mem_singleton] at hm
  exact h (hm ▸ hk)

/-! ## Numerals -/

/-- The words that definitions are searched for. -/
def attributeWords : List Text :=
  ["ON".toList, "COMMENT".toList, "UNSIGNED".toList, "ZEROFILL".toList, "CHARACTER".toList,
   "COLLATE".toList]

def reservedWords : List Text :=
  attributeWords ++ [Dialect.mysql.marker, Dialect.sqlite.marker, "PRIMARY".toList]

def isNumericChar (c : Char) : Bool := c.isDigit || "(),.+-eE".toList.contains c

theorem lt_of_isNumericChar {c : Char} (h : isNumericChar c = true) : c.toNat < 128 := by
  rw [isNumericChar, Bool.or_eq_true] at h
  rcases h with h | h
  · exact lt_of_isMarkerChar (by simp [isMarkerChar, Char.isAlphanum, h])
  · have hall : ∀ c ∈ "(),.+-eE".toList, c.toNat < 128 := by decide
    exact hall c (by simpa using h)

theorem isAtomChar_of_isNumericChar {c : Char} (h : isNumericChar c = true) : isAtomChar c = true :=
  forall_ascii (p := fun c => isNumericChar c = true → isAtomChar c = true) (by decide)
    (lt_of_isNumericChar h) h

theorem Avoids.of_numeric {s : Text} (h : ∀ c ∈ s, isNumericChar c = true) :
    Avoids reservedWords s := by
  have hk : ∀ k ∈ reservedWords, ∃ c ∈ k, isNumericChar c = false := by decide
  have hu : ∀ c : Char, c.toNat < 128 → isNumericChar c = true → isNumericChar c.toUpper = true :=
    fun c hc => forall_ascii
      (p := fun c => isNumericChar c = true → isNumericChar c.toUpper = true) (by decide) hc
  refine Avoids.of_not_mem fun k hm => ?_
  obtain ⟨c, hc, hn⟩ := hk k hm
  refine ⟨c, hc, fun hmem => ?_⟩
  obtain ⟨d, hd, rfl⟩ := List.mem_map.1 hmem
  rw [hu d (lt_of_isNumericChar (h d hd)) (h d hd)] at hn
  cases hn

theorem digitRanges_not_ascii : ∀ r ∈ digitRanges, 128 ≤ r.1 := by decide

theorem isDigit_of_isAscii {c : Char} (h : c.toNat < 128) : Text.isDigit c = c.isDigit := by
  simp [Text.isDigit, not_contains_of_isAscii digitRanges_not_ascii h]

def IsSign (s : Text) : Prop := s = [] ∨ s = ['+'] ∨ s = ['-']

theorem exists_optional_sign (s : Text) :
    ∃ a, s = a ++ Text.optional DefaultExpr.sign s ∧ IsSign a := by
  rcases s with _ | ⟨c, s⟩
  · exact ⟨[], rfl, Or.inl rfl⟩
  · by_cases hc : c = '+' ∨ c = '-'
    · refine ⟨[c], by simp [Text.optional, DefaultExpr.sign, hc], ?_⟩
      rcases hc with rfl | rfl
      · exact Or.inr (Or.inl rfl)
      · exact Or.inr (Or.inr rfl)
    · exact ⟨[], by simp [Text.optional, DefaultExpr.sign, hc], Or.inl rfl⟩

/-- Digits of the class `p` with an optional fraction, or a fraction alone. -/
def IsDecimal (p : Char → Bool) (s : Text) : Prop :=
  (∃ a, a ≠ [] ∧ (∀ c ∈ a, p c = true) ∧ (s = a ∨ ∃ b, (∀ c ∈ b, p c = true) ∧ s = a ++ '.' :: b)) ∨
    ∃ b, b ≠ [] ∧ (∀ c ∈ b, p c = true) ∧ s = '.' :: b

def IsExponent (p : Char → Bool) (s : Text) : Prop :=
  s = [] ∨ ∃ e a b, (e = 'e' ∨ e = 'E') ∧ IsSign a ∧ b ≠ [] ∧ (∀ c ∈ b, p c = true) ∧ s = e :: (a ++ b)

def IsNumericLiteral (s : Text) : Prop :=
  ∃ a m x, IsSign a ∧ IsDecimal Char.isDigit m ∧ IsExponent Char.isDigit x ∧ s = a ++ (m ++ x)

section
variable {p q : Char → Bool} {s : Text}

theorem IsDecimal.ne_nil (h : IsDecimal p s) : s ≠ [] := by
  rcases h with ⟨a, hne, -, rfl | ⟨b, -, rfl⟩⟩ | ⟨b, -, -, rfl⟩
  · exact hne
  · simp
  · simp

theorem IsDecimal.chars (h : IsDecimal p s) : ∀ c ∈ s, p c = true ∨ c = '.' := by
  have hfraction : ∀ {b : Text}, (∀ c ∈ b, p c = true) → ∀ c ∈ '.' :: b, p c = true ∨ c = '.' := by
    intro b hb c hc
    rcases List.mem_cons.1 hc with hc | hc
    · exact Or.inr hc
    · exact Or.inl (hb c hc)
  rcases h with ⟨a, -, ha, rfl | ⟨b, hb, rfl⟩⟩ | ⟨b, -, hb, rfl⟩
  · exact fun c hc => Or.inl (ha c hc)
  · intro c hc
    rcases List.mem_append.1 hc with hc | hc
    · exact Or.inl (ha c hc)
    · exact hfraction hb c hc
  · exact hfraction hb

theorem IsDecimal.mono (h : IsDecimal p s) (hp : ∀ c ∈ s, p c = true → q c = true) :
    IsDecimal q s := by
  rcases h with ⟨a, hne, ha, rfl | ⟨b, hb, rfl⟩⟩ | ⟨b, hne, hb, rfl⟩
  · exact Or.inl ⟨s, hne, fun c hc => hp c hc (ha c hc), Or.inl rfl⟩
  · refine Or.inl ⟨a, hne, fun c hc => hp c (by simp [hc]) (ha c hc), Or.inr ⟨b, ?_, rfl⟩⟩
    exact fun c hc => hp c (by simp [hc]) (hb c hc)
  · exact Or.inr ⟨b, hne, fun c hc => hp c (by simp [hc]) (hb c hc), rfl⟩

theorem IsExponent.mono (h : IsExponent p s) (hp : ∀ c ∈ s, p c = true → q c = true) :
    IsExponent q s := by
  rcases h with rfl | ⟨e, a, b, he, ha, hne, hb, rfl⟩
  · exact Or.inl rfl
  · exact Or.inr ⟨e, a, b, he, ha, hne, fun c hc => hp c (by simp [hc]) (hb c hc), rfl⟩

end

theorem exists_of_magnitude {s r : Text} (h : DefaultExpr.magnitude s = some r) :
    ∃ a, s = a ++ r ∧ IsDecimal Text.isDigit a := by
  unfold DefaultExpr.magnitude at h
  cases hm : many1 Text.isDigit s with
  | some u =>
    rw [hm] at h
    obtain ⟨a, rfl, hne, ha⟩ := exists_of_many1 hm
    obtain rfl := Option.some.inj h
    have hwhole : IsDecimal Text.isDigit a := Or.inl ⟨a, hne, ha, Or.inl rfl⟩
    rcases u with _ | ⟨c, u⟩
    · exact ⟨a, by simp [Text.optional, char], hwhole⟩
    · by_cases hc : c = '.'
      · subst hc
        refine ⟨a ++ '.' :: u.takeWhile Text.isDigit, by simp [Text.optional, char], ?_⟩
        exact Or.inl ⟨a, hne, ha, Or.inr ⟨_, fun c hc => List.all_eq_true.1 List.all_takeWhile c hc, rfl⟩⟩
      · exact ⟨a, by simp [Text.optional, char, hc], hwhole⟩
  | none =>
    rw [hm] at h
    obtain ⟨t, ht, hr⟩ := Option.bind_eq_some_iff.1 h
    obtain ⟨a, rfl, hne, ha⟩ := exists_of_many1 hr
    exact ⟨'.' :: a, exists_of_char ht, Or.inr ⟨a, hne, ha, rfl⟩⟩

theorem isExponent_of_optional {s : Text}
    (h : (Text.optional DefaultExpr.exponent s).isEmpty = true) : IsExponent Text.isDigit s := by
  rcases s with _ | ⟨e, s⟩
  · exact Or.inl rfl
  · refine Or.inr ?_
    rw [List.isEmpty_iff, Text.optional] at h
    cases hx : DefaultExpr.exponent (e :: s) with
    | none => simp [hx] at h
    | some r =>
      obtain rfl : r = [] := by simpa [hx] using h
      rw [DefaultExpr.exponent] at hx
      split at hx
      · next he =>
        obtain ⟨ds, hs, hne, hds⟩ := exists_of_many1 hx
        obtain ⟨a, ha, hsign⟩ := exists_optional_sign s
        refine ⟨e, a, ds, he, hsign, hne, hds, ?_⟩
        rw [List.append_nil] at hs
        rw [← hs, ← ha]
      · cases hx

theorem isAtom_of_numeric {s : Text} (hne : s ≠ []) (h : ∀ c ∈ s, isNumericChar c = true)
    (hd : NoDashes s) (hh : s.head? ≠ some '(') (hl : s.getLast? ≠ some ',') : IsAtom s where
  ne_nil := hne
  chars c hc := isAtomChar_of_isNumericChar (h c hc)
  no_dashes := hd
  head := hh
  last := hl

/-- The characters of a numeral. -/
def isNumeralChar (c : Char) : Bool := c.isDigit || ".+-eE".toList.contains c

theorem isNumericChar_of_isNumeralChar {c : Char} (h : isNumeralChar c = true) :
    isNumericChar c = true := by
  rw [isNumeralChar, Bool.or_eq_true] at h
  rcases h with h | h
  · simp [isNumericChar, h]
  · have hall : ∀ c ∈ ".+-eE".toList, isNumericChar c = true := by decide
    exact hall c (by simpa using h)

theorem isNumeralChar_of_sign {a : Text} (h : IsSign a) : ∀ c ∈ a, isNumeralChar c = true := by
  rcases h with rfl | rfl | rfl <;> decide

theorem NoDashes.of_sign {a : Text} (h : IsSign a) : NoDashes a := by
  rcases h with rfl | rfl | rfl
  · exact List.isChain_nil
  · exact List.isChain_singleton _
  · exact List.isChain_singleton _

theorem IsNumeral.isNumericLiteral {s : Text} (h : IsNumeral s) : IsNumericLiteral s := by
  obtain ⟨hascii, hn⟩ := h
  obtain ⟨a, ha, hsign⟩ := exists_optional_sign s
  rw [DefaultExpr.isNumber] at hn
  obtain ⟨x, hx, he⟩ := (Option.any_eq_true _ _).1 hn
  obtain ⟨m, hm, hmag⟩ := exists_of_magnitude hx
  have hdigit : ∀ {c}, c ∈ s → Text.isDigit c = true → c.isDigit = true := by
    intro c hc hd
    rwa [isDigit_of_isAscii (hascii c hc)] at hd
  rw [hm] at ha
  refine ⟨a, m, x, hsign, hmag.mono ?_, (isExponent_of_optional he).mono ?_, ha⟩
  · exact fun c hc => hdigit (by simp [ha, hc])
  · exact fun c hc => hdigit (by simp [ha, hc])

theorem isNumeralChar_of_digit {c : Char} (h : c.isDigit = true) : isNumeralChar c = true := by
  simp [isNumeralChar, h]

theorem not_dash_of_digits {ds : Text} (h : ∀ c ∈ ds, c.isDigit = true ∨ c = '.') : '-' ∉ ds := by
  intro hm
  have := h '-' hm
  revert this
  decide

theorem IsNumericLiteral.chars {s : Text} (h : IsNumericLiteral s) :
    ∀ c ∈ s, isNumeralChar c = true := by
  obtain ⟨a, m, x, ha, hm, hx, rfl⟩ := h
  have hm' : ∀ c ∈ m, isNumeralChar c = true := by
    intro c hc
    rcases hm.chars c hc with hd | rfl
    · exact isNumeralChar_of_digit hd
    · decide
  have hx' : ∀ c ∈ x, isNumeralChar c = true := by
    rcases hx with rfl | ⟨e, b, ds, he, hb, -, hds, rfl⟩
    · simp
    · intro c hc
      rcases List.mem_cons.1 hc with rfl | hc
      · rcases he with rfl | rfl <;> decide
      · rcases List.mem_append.1 hc with hc | hc
        · exact isNumeralChar_of_sign hb c hc
        · exact isNumeralChar_of_digit (hds c hc)
  intro c hc
  rcases List.mem_append.1 hc with hc | hc
  · exact isNumeralChar_of_sign ha c hc
  · rcases List.mem_append.1 hc with hc | hc
    · exact hm' c hc
    · exact hx' c hc

/-- A numeral has its signs before the first digit and after the exponent's
letter, never one after the other. -/
theorem IsNumericLiteral.noDashes {s : Text} (h : IsNumericLiteral s) : NoDashes s := by
  obtain ⟨a, m, x, ha, hm, hx, rfl⟩ := h
  have hm' := not_dash_of_digits hm.chars
  have hmx : (m ++ x).head? ≠ some '-' := by
    obtain ⟨c, m, rfl⟩ := List.exists_cons_of_ne_nil hm.ne_nil
    intro hc
    exact hm' (by simpa using Or.inl (Option.some.inj hc).symm)
  have hx' : NoDashes x := by
    rcases hx with rfl | ⟨e, b, ds, he, hb, -, hds, rfl⟩
    · exact List.isChain_nil
    · have hds' := not_dash_of_digits fun c hc => Or.inl (hds c hc)
      have hbds : NoDashes (b ++ ds) :=
        (NoDashes.of_sign hb).append (NoDashes.of_not_mem hds')
          (Or.inr fun hc => hds' (List.mem_of_head? hc))
      have hed : e ≠ '-' := by rcases he with rfl | rfl <;> decide
      exact List.isChain_cons.2 ⟨fun _ _ hd => hed hd.1, hbds⟩
  refine (NoDashes.of_sign ha).append ?_ (Or.inr hmx)
  exact (NoDashes.of_not_mem hm').append hx' (Or.inl fun hc => hm' (List.mem_of_getLast? hc))

theorem IsNumericLiteral.ne_nil {s : Text} (h : IsNumericLiteral s) : s ≠ [] := by
  obtain ⟨a, m, x, -, hm, -, rfl⟩ := h
  simp [hm.ne_nil]

theorem IsNumeral.isAtom {s : Text} (h : IsNumeral s) : IsAtom s := by
  have hl := h.isNumericLiteral
  have hn : ∀ c ∈ s, c ≠ '(' ∧ c ≠ ',' := by
    intro c hc
    have := hl.chars c hc
    constructor
    · rintro rfl; revert this; decide
    · rintro rfl; revert this; decide
  refine isAtom_of_numeric hl.ne_nil (fun c hc => isNumericChar_of_isNumeralChar (hl.chars c hc))
    hl.noDashes ?_ ?_
  · exact fun hc => (hn _ (List.mem_of_head? hc)).1 rfl
  · exact fun hc => (hn _ (List.mem_of_getLast? hc)).2 rfl

theorem IsNumeral.avoids {s : Text} (h : IsNumeral s) : Avoids reservedWords s :=
  Avoids.of_numeric fun c hc => isNumericChar_of_isNumeralChar (h.isNumericLiteral.chars c hc)

/-! ## Words and types -/

theorem isAtomChar_of_isMarkerChar {c : Char} (h : isMarkerChar c = true) : isAtomChar c = true := by
  simp [isAtomChar, h]

theorem isAtom_of_word {w : Text} (hne : w ≠ []) (h : ∀ c ∈ w, isMarkerChar c = true) :
    IsAtom w := by
  have hn : ∀ c ∈ w, c ≠ '-' ∧ c ≠ '(' ∧ c ≠ ',' := by
    intro c hc
    have := h c hc
    refine ⟨?_, ?_, ?_⟩ <;> (rintro rfl; revert this; decide)
  exact
    { ne_nil := hne
      chars := fun c hc => isAtomChar_of_isMarkerChar (h c hc)
      no_dashes := NoDashes.of_not_mem fun hc => (hn _ hc).1 rfl
      head := fun hc => (hn _ (List.mem_of_head? hc)).2.1 rfl
      last := fun hc => (hn _ (List.mem_of_getLast? hc)).2.2 rfl }

theorem IsPlainDefault.isAtom {s : Text} (h : IsPlainDefault s) : IsAtom s := by
  rcases h with h | rfl | rfl
  · exact h.isAtom
  · exact isAtom_of_word (by simp) (by decide)
  · exact isAtom_of_word (by simp) (by decide)

theorem IsPlainDefault.avoids {s : Text} (h : IsPlainDefault s) : Avoids reservedWords s := by
  rcases h with h | rfl | rfl
  · exact h.avoids
  · exact Avoids.of_word (by decide) (by decide)
  · exact Avoids.of_word (by decide) (by decide)

theorem IsSize.eq_nil_or {s : Text} (h : IsSize s) :
    s = [] ∨ ∃ t, s = '(' :: (t ++ [')']) ∧ ∀ c ∈ t, c.isDigit = true ∨ c = ',' := by
  rcases h with rfl | ⟨n, hn, rfl⟩ | ⟨n, k, hn, hk, rfl⟩
  · exact Or.inl rfl
  · exact Or.inr ⟨n, rfl, fun c hc => Or.inl (hn.2 c hc)⟩
  · refine Or.inr ⟨n ++ ',' :: k, by simp, fun c hc => ?_⟩
    rcases List.mem_append.1 hc with hc | hc
    · exact Or.inl (hn.2 c hc)
    · rcases List.mem_cons.1 hc with rfl | hc
      · exact Or.inr rfl
      · exact Or.inl (hk.2 c hc)

theorem isNumericChar_of_size {t : Text} (h : ∀ c ∈ t, c.isDigit = true ∨ c = ',') :
    ∀ c ∈ '(' :: (t ++ [')']), isNumericChar c = true := by
  intro c hc
  rcases List.mem_cons.1 hc with rfl | hc
  · decide
  · rcases List.mem_append.1 hc with hc | hc
    · rcases h c hc with hd | rfl
      · simp [isNumericChar, hd]
      · decide
    · rw [List.mem_singleton.1 hc]
      decide

theorem toUpper_eq_or_isAlpha (c : Char) : c.toUpper = c ∨ c.isAlpha = true := by
  unfold Char.toUpper
  split
  · next hl =>
    have hlower : c.isLower = true := by
      show (decide (97 ≤ c.val) && decide (c.val ≤ 122)) = true
      simpa using hl
    right
    show (c.isUpper || c.isLower) = true
    rw [hlower, Bool.or_true]
  · exact Or.inl rfl

theorem isAlpha_of_toUpper {c : Char} (h : c.toUpper.isAlpha = true) : c.isAlpha = true := by
  rcases toUpper_eq_or_isAlpha c with hc | hc
  · rwa [hc] at h
  · exact hc

theorem Dialect.hasTypeKeyword_spec {d : Dialect} {w : Text} (h : d.hasTypeKeyword w = true) :
    w ≠ [] ∧ (∀ c ∈ w, c.isAlpha = true) ∧ upper w ∉ reservedWords := by
  have hm : ∀ t ∈ MysqlType.all,
      t.name ≠ [] ∧ (∀ c ∈ t.name, c.isAlpha = true) ∧ t.name ∉ reservedWords := by decide
  have hs : ∀ t ∈ StorageClass.all,
      t.name ≠ [] ∧ (∀ c ∈ t.name, c.isAlpha = true) ∧ t.name ∉ reservedWords := by decide
  obtain ⟨hne, ha, hr⟩ : upper w ≠ [] ∧ (∀ c ∈ upper w, c.isAlpha = true) ∧ upper w ∉ reservedWords := by
    cases d with
    | mysql =>
      obtain ⟨t, ht⟩ := Option.isSome_iff_exists.1 h
      exact MysqlType.name_of_ofName? ht ▸ hm t (MysqlType.mem_all t)
    | sqlite =>
      obtain ⟨t, ht⟩ := Option.isSome_iff_exists.1 h
      exact StorageClass.name_of_ofName? ht ▸ hs t (StorageClass.mem_all t)
  refine ⟨fun hw => hne (by rw [hw]; rfl), fun c hc => ?_, hr⟩
  exact isAlpha_of_toUpper (ha _ (List.mem_map_of_mem hc))

theorem isMarkerChar_of_isAlpha {c : Char} (h : c.isAlpha = true) : isMarkerChar c = true := by
  simp [isMarkerChar, Char.isAlphanum, h]

theorem IsPlainType.isAtom {d : Dialect} {s : Text} (h : IsPlainType d s) : IsAtom s := by
  obtain ⟨w, size, hw, hsize, rfl⟩ := h
  obtain ⟨hne, ha, -⟩ := Dialect.hasTypeKeyword_spec hw
  have hatom := isAtom_of_word hne fun c hc => isMarkerChar_of_isAlpha (ha c hc)
  rcases hsize.eq_nil_or with rfl | ⟨t, rfl, ht⟩
  · rwa [List.append_nil]
  · have hdash : '-' ∉ '(' :: (t ++ [')']) := by
      have ht' : '-' ∉ t := fun hc => absurd (ht _ hc) (by decide)
      simp [ht']
    obtain ⟨c, w, rfl⟩ := List.exists_cons_of_ne_nil hne
    refine ⟨by simp, ?_, ?_, hatom.head, by simp [List.getLast?_cons]⟩
    · intro x hx
      rcases List.mem_append.1 hx with hx | hx
      · exact hatom.chars x hx
      · exact isAtomChar_of_isNumericChar (isNumericChar_of_size ht x hx)
    · exact hatom.no_dashes.append (NoDashes.of_not_mem hdash) (Or.inr (by simp))

theorem IsPlainType.avoids {d : Dialect} {s : Text} (h : IsPlainType d s) :
    Avoids reservedWords s := by
  obtain ⟨w, size, hw, hsize, rfl⟩ := h
  obtain ⟨hne, ha, hr⟩ := Dialect.hasTypeKeyword_spec hw
  have hword := Avoids.of_word (fun c hc => isMarkerChar_of_isAlpha (ha c hc)) hr
  rcases hsize.eq_nil_or with rfl | ⟨t, rfl, ht⟩
  · rwa [List.append_nil]
  · refine Avoids.append_cons (by decide) hword (Avoids.of_numeric fun c hc => ?_)
    exact isNumericChar_of_size ht c (List.mem_cons_of_mem _ hc)

end SchemaDialects
