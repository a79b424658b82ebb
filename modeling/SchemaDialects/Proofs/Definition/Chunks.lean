import SchemaDialects.Definition.Convert
import SchemaDialects.Proofs.Column.Plain
import SchemaDialects.Proofs.Script.Settled
import SchemaDialects.Proofs.Text.Scan

/-!
# What is taken out of a definition

The parts that are removed or replaced are made of ordinary characters, apart
from a group in parentheses or a literal at their end.
-/

namespace SchemaDialects.Definition

open Text Script
open Dialect (isMarkerChar)

/-- A line feed is blank but ends a comment, so a line's parts are told apart
from ordinary text. -/
def isPart (c : Char) : Prop := isOrdinary c = true ∨ c = '\n'

/-- What `f` reads is made of ordinary characters and line feeds. -/
def TakesParts (f : Scanner) : Prop :=
  ∀ ⦃s rest : Text⦄, f s = some rest → ∃ m, s = m ++ rest ∧ ∀ c ∈ m, isPart c

/-- As `TakesParts`, and `f` reads something. -/
def TakesSome (f : Scanner) : Prop :=
  ∀ ⦃s rest : Text⦄, f s = some rest → ∃ m, s = m ++ rest ∧ m ≠ [] ∧ ∀ c ∈ m, isPart c

/-- As `TakesSome`, and what `f` reads starts with no blank. -/
def TakesWord (f : Scanner) : Prop :=
  ∀ ⦃s rest : Text⦄, f s = some rest →
    ∃ c m, s = c :: (m ++ rest) ∧ isBlank c = false ∧ ∀ x ∈ c :: m, isPart x

theorem isOrdinary_of_part {m s : Text} (hm : ∀ c ∈ m, isPart c) (hsub : ∀ c ∈ m, c ∈ s)
    (hbreak : '\n' ∉ s) : ∀ c ∈ m, isOrdinary c = true := by
  intro c hc
  rcases hm c hc with h | rfl
  · exact h
  · exact absurd (hsub _ hc) hbreak

/-- What `g` reads behind `f` adds parts to what `f` reads. -/
theorem exists_parts_of_bind {f g : Scanner} (hg : TakesParts g) {s rest : Text}
    (h : (f s >>= g) = some rest) : ∃ n, f s = some (n ++ rest) ∧ ∀ c ∈ n, isPart c := by
  obtain ⟨t, ht, hr⟩ := Option.bind_eq_some_iff.1 h
  obtain ⟨n, rfl, hn⟩ := hg hr
  exact ⟨n, ht, hn⟩

theorem TakesParts.bind {f g : Scanner} (hf : TakesParts f) (hg : TakesParts g) :
    TakesParts fun s => f s >>= g := by
  intro s rest h
  obtain ⟨n, ht, hn⟩ := exists_parts_of_bind hg h
  obtain ⟨m, rfl, hm⟩ := hf ht
  exact ⟨m ++ n, by simp, List.forall_mem_append.2 ⟨hm, hn⟩⟩

theorem TakesSome.bind {f g : Scanner} (hf : TakesSome f) (hg : TakesParts g) :
    TakesSome fun s => f s >>= g := by
  intro s rest h
  obtain ⟨n, ht, hn⟩ := exists_parts_of_bind hg h
  obtain ⟨m, rfl, hne, hm⟩ := hf ht
  exact ⟨m ++ n, by simp, by simp [hne], List.forall_mem_append.2 ⟨hm, hn⟩⟩

theorem TakesWord.bind {f g : Scanner} (hf : TakesWord f) (hg : TakesParts g) :
    TakesWord fun s => f s >>= g := by
  intro s rest h
  obtain ⟨n, ht, hn⟩ := exists_parts_of_bind hg h
  obtain ⟨c, m, rfl, hb, hm⟩ := hf ht
  exact ⟨c, m ++ n, by simp, hb, List.forall_mem_append.2 ⟨hm, hn⟩⟩

theorem TakesParts.or {f g : Scanner} (hf : TakesParts f) (hg : TakesParts g) :
    TakesParts fun s => (f s).or (g s) := by
  intro s rest h
  rcases Option.or_eq_some_iff.1 h with h | ⟨-, h⟩
  · exact hf h
  · exact hg h

/-! ## Classes of characters -/

theorem isPart_of_isBlank {c : Char} (h : isBlank c = true) : isPart c := by
  by_cases hc : isOrdinary c = true
  · exact Or.inl hc
  · right
    have hspecial : ∀ x ∈ specials, isBlank x = true → x = '\n' := by decide
    have hmem : c ∈ specials := by simpa [isOrdinary] using hc
    exact hspecial c hmem h

theorem isOrdinary_of_class {p : Char → Bool} (hp : ∀ x ∈ specials, p x = false) {c : Char}
    (h : p c = true) : isOrdinary c = true := by
  by_contra hc
  have hmem : c ∈ specials := by simpa [isOrdinary] using hc
  rw [hp c hmem] at h
  cases h

theorem isOrdinary_of_isWord {c : Char} (h : isWord c = true) : isOrdinary c = true :=
  isOrdinary_of_class (by decide +kernel) h

theorem isOrdinary_of_isDigit {c : Char} (h : Text.isDigit c = true) : isOrdinary c = true :=
  isOrdinary_of_class (by decide) h

theorem isOrdinary_of_isAlpha {c : Char} (h : c.isAlpha = true) : isOrdinary c = true :=
  isOrdinary_of_class (by decide) h

theorem isOrdinary_of_foldsTo {k c : Char} (hk : isOrdinary k = true) (h : foldsTo k c = true) :
    isOrdinary c = true := by
  by_contra hc
  have hmem : c ∈ specials := by simpa [isOrdinary] using hc
  have hspecial : ∀ x ∈ specials, x.toUpper = x ∧ x ≠ 'ſ' ∧ x ≠ '\u212A' := by decide
  obtain ⟨hup, hs, hkelvin⟩ := hspecial c hmem
  have hck : c = k := by simpa [foldsTo, hup, hs, hkelvin] using h
  exact hc (hck ▸ hk)

theorem isBlank_of_foldsTo {k c : Char} (hk : k.isAlpha = true) (h : foldsTo k c = true) :
    isBlank c = false := by
  simp only [foldsTo, Bool.or_eq_true, Bool.and_eq_true, beq_iff_eq] at h
  rcases h with (h | ⟨-, rfl⟩) | ⟨-, rfl⟩
  · have ha : c.isAlpha = true := isAlpha_of_toUpper (h ▸ hk)
    exact isBlank_of_isMarkerChar (isMarkerChar_of_isAlpha ha)
  · decide
  · decide

theorem isBlank_of_folds {k u : Text} (hk : ∀ x ∈ k, x.isAlpha = true)
    (h : List.Forall₂ (fun x c => foldsTo x c = true) k u) : ∀ c ∈ u, isBlank c = false := by
  induction h with
  | nil => simp
  | cons hc _ ih =>
    exact List.forall_mem_cons.2 ⟨isBlank_of_foldsTo (hk _ (by simp)) hc,
      ih fun x hx => hk x (by simp [hx])⟩

theorem isWord_of_toUpper {c : Char} (h : isMarkerChar c.toUpper = true) : isWord c = true := by
  apply isWord_of_ascii
  rcases toUpper_eq_or_isAlpha c with hc | hc
  · rwa [hc] at h
  · exact isMarkerChar_of_isAlpha hc

theorem isWord_of_foldsTo {k c : Char} (hk : isMarkerChar k = true) (h : foldsTo k c = true) :
    isWord c = true := by
  simp only [foldsTo, Bool.or_eq_true, beq_iff_eq, Bool.and_eq_true] at h
  rcases h with (h | h) | h
  · exact isWord_of_toUpper (h ▸ hk)
  · rw [h.2]
    decide
  · rw [h.2]
    decide +kernel

theorem foldsTo_of_wordEnds {k : Text} (hk : ∀ x ∈ k, isMarkerChar x = true) {y : Text}
    (hy : wordEnds y = true) : ∀ x ∈ k, ∀ c ∈ y.head?, foldsTo x c = false := by
  intro x hx c hc
  by_contra hf
  have hword : isWord c = true := isWord_of_foldsTo (hk x hx) (by simpa using hf)
  rw [wordEnds, hc, Option.any_some, hword] at hy
  cases hy

/-! ## Scanners -/

theorem takesParts_many1 {p : Char → Bool} (hp : ∀ c, p c = true → isPart c) :
    TakesParts (many1 p) := by
  intro s rest h
  obtain ⟨a, rfl, -, ha⟩ := exists_of_many1 h
  exact ⟨a, rfl, fun c hc => hp c (ha c hc)⟩

theorem takesParts_blanks1 : TakesParts blanks1 := takesParts_many1 fun _ => isPart_of_isBlank

theorem takesSome_blanks1 : TakesSome blanks1 := by
  intro s rest h
  obtain ⟨a, rfl, hne, ha⟩ := exists_of_many1 h
  exact ⟨a, rfl, hne, fun c hc => isPart_of_isBlank (ha c hc)⟩

theorem takesParts_word : TakesParts word :=
  takesParts_many1 fun _ h => Or.inl (isOrdinary_of_isWord h)

theorem exists_blanks (s : Text) : ∃ m, s = m ++ blanks s ∧ ∀ c ∈ m, isPart c := by
  refine ⟨s.takeWhile isBlank, List.takeWhile_append_dropWhile.symm, fun c hc => ?_⟩
  exact isPart_of_isBlank (List.all_eq_true.1 List.all_takeWhile c hc)

theorem exists_of_keyword {k s rest : Text} (h : keyword k s = some rest) :
    ∃ m, s = m ++ rest ∧ m.length = k.length ∧ List.Forall₂ (fun x c => foldsTo x c = true) k m := by
  induction k generalizing s with
  | nil => exact ⟨[], (Option.some.inj h).symm ▸ rfl, rfl, .nil⟩
  | cons x k ih =>
    cases s with
    | nil => cases h
    | cons c s =>
      rw [keyword] at h
      split at h
      · next hc =>
        obtain ⟨m, rfl, hl, hm⟩ := ih h
        exact ⟨c :: m, rfl, by simp [hl], .cons hc hm⟩
      · cases h

theorem isOrdinary_of_keyword {k m : Text} (hk : ∀ x ∈ k, isOrdinary x = true)
    (hm : List.Forall₂ (fun x c => foldsTo x c = true) k m) : ∀ c ∈ m, isOrdinary c = true := by
  induction hm with
  | nil => simp
  | cons hc _ ih =>
    have ih := ih fun x hx => hk x (by simp [hx])
    exact List.forall_mem_cons.2 ⟨isOrdinary_of_foldsTo (hk _ (by simp)) hc, ih⟩

theorem takesParts_keyword {k : Text} (hk : ∀ x ∈ k, isOrdinary x = true) :
    TakesParts (keyword k) := by
  intro s rest h
  obtain ⟨m, hs, -, hm⟩ := exists_of_keyword h
  exact ⟨m, hs, fun c hc => Or.inl (isOrdinary_of_keyword hk hm c hc)⟩

theorem keyword_of_keywordEnd {k s rest : Text} (h : keywordEnd k s = some rest) :
    keyword k s = some rest := by
  obtain ⟨t, ht, hr⟩ := Option.bind_eq_some_iff.1 h
  split at hr
  · rw [ht, Option.some.inj hr]
  · cases hr

theorem takesParts_keywordEnd {k : Text} (hk : ∀ x ∈ k, isOrdinary x = true) :
    TakesParts (keywordEnd k) := fun _ _ h => takesParts_keyword hk (keyword_of_keywordEnd h)

theorem takesParts_keywordBlanks {k : Text} (hk : ∀ x ∈ k, isOrdinary x = true) :
    TakesParts (keywordBlanks k) := (takesParts_keyword hk).bind takesParts_blanks1

theorem takesWord_keywordBlanks {x : Char} {k : Text} (hx : x.isAlpha = true)
    (hk : ∀ y ∈ x :: k, isOrdinary y = true) : TakesWord (keywordBlanks (x :: k)) := by
  intro s rest h
  obtain ⟨t, ht, hb⟩ := Option.bind_eq_some_iff.1 h
  obtain ⟨m, rfl, -, hfold⟩ := exists_of_keyword ht
  obtain ⟨n, rfl, hn⟩ := takesParts_blanks1 hb
  have hparts := isOrdinary_of_keyword hk hfold
  cases hfold with
  | @cons _ c _ m hc hm =>
    refine ⟨c, m ++ n, by simp, isBlank_of_foldsTo hx hc, fun y hy => ?_⟩
    rcases List.mem_append.1 (List.cons_append ▸ hy : y ∈ (c :: m) ++ n) with hy | hy
    · exact Or.inl (hparts y hy)
    · exact hn y hy

theorem takesParts_keywords {ks : List Text} (hk : ∀ k ∈ ks, ∀ x ∈ k, isOrdinary x = true) :
    TakesParts (keywords ks) := by
  induction ks with
  | nil => exact fun s rest h => ⟨[], (Option.some.inj h).symm ▸ rfl, by simp⟩
  | cons k ks ih =>
    exact (takesParts_keywordBlanks (hk k (by simp))).bind (ih fun k' h => hk k' (by simp [h]))

/-! ## Attributes and markers -/

theorem takesSome_typeAttribute : TakesSome typeAttribute := by
  refine takesSome_blanks1.bind (TakesParts.or (TakesParts.or ?_ ?_) (TakesParts.or ?_ ?_))
  · exact takesParts_keywordEnd (by decide)
  · exact takesParts_keywordEnd (by decide)
  · exact (takesParts_keywords (by decide)).bind takesParts_word
  · exact (takesParts_keywordBlanks (by decide)).bind takesParts_word

theorem exists_of_onUpdate {s rest : Text} (h : onUpdate s = some rest) :
    ∃ m g, s = m ++ (g ++ rest) ∧ m ≠ [] ∧ (∀ c ∈ m, isPart c)
      ∧ (g = [] ∨ ∃ ds, g = '(' :: (ds ++ [')']) ∧ ∀ c ∈ ds, isOrdinary c = true) := by
  unfold onUpdate at h
  obtain ⟨t, ht, h⟩ := Option.bind_eq_some_iff.1 h
  obtain ⟨u, hu, h⟩ := Option.bind_eq_some_iff.1 h
  obtain ⟨v, hv, h⟩ := Option.bind_eq_some_iff.1 h
  have hwords : TakesSome fun s => blanks1 s >>= fun t =>
      keywords ["ON".toList, "UPDATE".toList] t >>= keyword "CURRENT_TIMESTAMP".toList :=
    takesSome_blanks1.bind ((takesParts_keywords (by decide)).bind (takesParts_keyword (by decide)))
  obtain ⟨m, hm, hne, hparts⟩ := hwords (Option.bind_eq_some_iff.2 ⟨t, ht, Option.bind_eq_some_iff.2 ⟨u, hu, hv⟩⟩)
  obtain rfl := Option.some.inj h
  refine ⟨m, ?_⟩
  unfold Text.optional
  cases hp : precision v with
  | none => exact ⟨[], hm, hne, hparts, Or.inl rfl⟩
  | some r =>
    obtain ⟨w, hw, hr⟩ := Option.bind_eq_some_iff.1 hp
    have hv := exists_of_char hw
    have hr := exists_of_char hr
    refine ⟨'(' :: (w.takeWhile Text.isDigit ++ [')']), ?_, hne, hparts, Or.inr ⟨_, rfl, ?_⟩⟩
    · have : w = w.takeWhile Text.isDigit ++ ')' :: r := by
        rw [← hr, List.takeWhile_append_dropWhile]
      rw [hm, hv]
      conv_lhs => rw [this]
      simp
    · intro c hc
      exact isOrdinary_of_isDigit (List.all_eq_true.1 List.all_takeWhile c hc)

theorem exists_of_commentClause {s rest : Text} (h : commentClause s = some rest) :
    ∃ m t, s = m ++ '\'' :: t ∧ m ≠ [] ∧ (∀ c ∈ m, isPart c) ∧ literalRest t = some rest := by
  unfold commentClause at h
  obtain ⟨t, ht, h⟩ := Option.bind_eq_some_iff.1 h
  obtain ⟨u, hu, h⟩ := Option.bind_eq_some_iff.1 h
  obtain ⟨v, hv, h⟩ := Option.bind_eq_some_iff.1 h
  have hwords : TakesSome fun s => blanks1 s >>= keywordBlanks "COMMENT".toList :=
    takesSome_blanks1.bind (takesParts_keywordBlanks (by decide))
  obtain ⟨m, hm, hne, hparts⟩ := hwords (Option.bind_eq_some_iff.2 ⟨t, ht, hu⟩)
  exact ⟨m, v, by rw [hm, exists_of_char hv], hne, hparts, h⟩

theorem takesSome_spacedMarker (d : Dialect) (prev : Option Char) :
    TakesSome (spacedMarker d.marker prev) := by
  intro s rest h
  obtain ⟨m, hs, hm⟩ := exists_blanks s
  obtain ⟨n, hn, hl, hfold⟩ :=
    exists_of_keyword (keyword_of_keywordEnd (spacedMarker_iff_keywordEnd.1 h).2)
  have hparts := isOrdinary_of_keyword (by cases d <;> decide) hfold
  refine ⟨m ++ n, ?_, ?_, fun c hc => ?_⟩
  · rw [List.append_assoc, ← hn]
    exact hs
  · have hne : n ≠ [] := by
      rintro rfl
      cases d <;> cases hl
    simp [hne]
  · rcases List.mem_append.1 hc with hc | hc
    · exact hm c hc
    · exact Or.inl (hparts c hc)

theorem takesWord_primaryKey (prev : Option Char) : TakesWord (primaryKey prev) := by
  intro s rest h
  obtain ⟨-, u, t, hu, ht, hkey⟩ := primaryKey_iff_keywords.1 h
  have hword : TakesWord fun s => keywordBlanks "PRIMARY".toList s >>= keywordEnd "KEY".toList :=
    (takesWord_keywordBlanks (by decide) (by decide)).bind (takesParts_keywordEnd (by decide))
  exact hword (Option.bind_eq_some_iff.2 ⟨t, Option.bind_eq_some_iff.2 ⟨u, hu, ht⟩, hkey⟩)

/-! ## Names -/

theorem exists_of_quotedBy {q : Char} {s rest : Text} (h : quotedBy q s = some rest) :
    ∃ a, s = q :: (a ++ q :: rest) ∧ q ∉ a := by
  unfold quotedBy at h
  obtain ⟨t, ht, h⟩ := Option.bind_eq_some_iff.1 h
  obtain ⟨u, hu, hclose⟩ := Option.bind_eq_some_iff.1 h
  obtain ⟨a, rfl, -, ha⟩ := exists_of_many1 hu
  refine ⟨a, by rw [exists_of_char ht, exists_of_char hclose], fun hm => ?_⟩
  simpa using ha q hm

theorem exists_of_indexName {s rest : Text} (h : indexName s = some rest) :
    ∃ n, s = n ++ rest ∧ ((∃ a, n = '"' :: (a ++ ['"']) ∧ '"' ∉ a) ∨ ∀ x ∈ n, isPart x) := by
  rcases Option.or_eq_some_iff.1 h with h | ⟨-, h⟩
  · obtain ⟨a, rfl, ha⟩ := exists_of_quotedBy h
    exact ⟨'"' :: (a ++ ['"']), by simp, Or.inl ⟨a, rfl, ha⟩⟩
  · obtain ⟨n, rfl, hn⟩ := takesParts_word h
    exact ⟨n, rfl, Or.inr hn⟩

theorem exists_of_uniqueKey {s rest : Text} (h : uniqueKey s = some rest) :
    ∃ c m n b, s = c :: (m ++ (n ++ (b ++ '(' :: rest))) ∧ isBlank c = false
      ∧ (∀ x ∈ c :: m, isPart x) ∧ (∀ x ∈ b, isPart x)
      ∧ ((∃ a, n = '"' :: (a ++ ['"']) ∧ '"' ∉ a) ∨ ∀ x ∈ n, isPart x) := by
  unfold uniqueKey at h
  obtain ⟨t, ht, h⟩ := Option.bind_eq_some_iff.1 h
  obtain ⟨u, hu, h⟩ := Option.bind_eq_some_iff.1 h
  obtain ⟨v, hv, hopen⟩ := Option.bind_eq_some_iff.1 h
  have hword : TakesWord fun s => keywordBlanks "UNIQUE".toList s >>= keyOrIndex :=
    (takesWord_keywordBlanks (by decide) (by decide)).bind
      ((takesParts_keywordBlanks (by decide)).or (takesParts_keywordBlanks (by decide)))
  obtain ⟨c, m, rfl, hb, hm⟩ := hword (Option.bind_eq_some_iff.2 ⟨t, ht, hu⟩)
  obtain ⟨b, hv', hparts⟩ := exists_blanks v
  rw [exists_of_char hopen] at hv'
  obtain ⟨n, rfl, hn⟩ := exists_of_indexName hv
  exact ⟨c, m, n, b, by rw [hv'], hb, hm, hparts, hn⟩

theorem TakesParts.optional {f : Scanner} (hf : TakesParts f) (s : Text) :
    ∃ m, s = m ++ Text.optional f s ∧ ∀ c ∈ m, isPart c := by
  unfold Text.optional
  cases h : f s with
  | none => exact ⟨[], rfl, by simp⟩
  | some r => exact hf h

theorem exists_of_inlineIndexName? {s name : Text} (h : inlineIndexName? s = some name) :
    ∃ m n b rest, s = m ++ (n ++ (b ++ '(' :: rest)) ∧ (∀ x ∈ m, isPart x) ∧ (∀ x ∈ b, isPart x)
      ∧ ((∃ a, n = '"' :: (a ++ ['"']) ∧ '"' ∉ a) ∨ ∀ x ∈ n, isPart x) := by
  unfold inlineIndexName? at h
  obtain ⟨t, ht, h⟩ := Option.bind_eq_some_iff.1 h
  obtain ⟨⟨name', u⟩, hu, h⟩ := Option.bind_eq_some_iff.1 h
  obtain ⟨rest, hopen, -⟩ := Option.bind_eq_some_iff.1 h
  have hkey : TakesParts keyOrIndex :=
    (takesParts_keywordBlanks (by decide)).or (takesParts_keywordBlanks (by decide))
  have hclass : TakesParts indexClass :=
    (takesParts_keywordBlanks (by decide)).or (takesParts_keywordBlanks (by decide))
  obtain ⟨k, hs, hk⟩ := hclass.optional s
  obtain ⟨m, hm, hmp⟩ := hkey ht
  obtain ⟨u', hu', he⟩ := Option.map_eq_some_iff.1 hu
  obtain ⟨-, rfl⟩ := Prod.mk.inj he
  obtain ⟨n, rfl, hn⟩ := exists_of_indexName hu'
  obtain ⟨b, hb, hbp⟩ := exists_blanks u'
  rw [exists_of_char hopen] at hb
  refine ⟨k ++ m, n, b, rest, ?_, fun x hx => ?_, hbp, hn⟩
  · rw [List.append_assoc, ← hb, ← hm]
    exact hs
  · rcases List.mem_append.1 hx with hx | hx
    · exact hk x hx
    · exact hmp x hx

/-! ## Types -/

theorem takesParts_number : TakesParts fun s => many1 Text.isDigit (blanks s) := by
  intro s rest h
  obtain ⟨b, hs, hb⟩ := exists_blanks s
  obtain ⟨n, hn, hparts⟩ := takesParts_many1 (p := Text.isDigit)
    (fun _ hc => Or.inl (isOrdinary_of_isDigit hc)) h
  refine ⟨b ++ n, ?_, fun x hx => ?_⟩
  · rw [List.append_assoc, ← hn]
    exact hs
  · rcases List.mem_append.1 hx with hx | hx
    · exact hb x hx
    · exact hparts x hx

theorem optional_cases {f : Scanner} (s : Text) :
    Text.optional f s = s ∨ f s = some (Text.optional f s) := by
  unfold Text.optional
  cases f s with
  | none => exact Or.inl rfl
  | some r => exact Or.inr rfl

theorem exists_of_size {s rest : Text} (h : size s = some rest) :
    ∃ g, s = '(' :: (g ++ ')' :: rest) ∧ ∀ x ∈ g, isPart x ∨ x = ',' := by
  unfold size at h
  obtain ⟨t, ht, h⟩ := Option.bind_eq_some_iff.1 h
  obtain ⟨u, hu, hclose⟩ := Option.bind_eq_some_iff.1 h
  obtain ⟨m, rfl, hm⟩ := takesParts_number hu
  obtain ⟨b, hb, hbp⟩ := exists_blanks u
  have hs := exists_of_char ht
  have hrest := exists_of_char hclose
  clear hclose h
  generalize blanks u = v at hb hrest
  obtain rfl := hb
  -- Behind the first number there is a second one or none.
  have hsecond : ∃ n, v = n ++ ')' :: rest ∧ ∀ x ∈ n, isPart x ∨ x = ',' := by
    rcases optional_cases (f := fun s => do
        let s ← char ',' s
        let s ← many1 Text.isDigit (blanks s)
        some (blanks s)) v with hnone | hsome
    · exact ⟨[], hnone.symm.trans hrest, by simp⟩
    · rw [hrest] at hsome
      obtain ⟨w, hw, hsome⟩ := Option.bind_eq_some_iff.1 hsome
      obtain ⟨x, hx, hend⟩ := Option.bind_eq_some_iff.1 hsome
      obtain ⟨n, rfl, hn⟩ := takesParts_number hx
      obtain ⟨b', hb', hbp'⟩ := exists_blanks x
      rw [Option.some.inj hend] at hb'
      refine ⟨',' :: (n ++ b'), ?_, fun y hy => ?_⟩
      · rw [exists_of_char hw, hb']
        simp
      · rcases List.mem_cons.1 hy with rfl | hy
        · exact Or.inr rfl
        · rcases List.mem_append.1 hy with hy | hy
          · exact Or.inl (hn y hy)
          · exact Or.inl (hbp' y hy)
  obtain ⟨n, rfl, hn⟩ := hsecond
  refine ⟨m ++ (b ++ n), by simp [hs], fun x hx => ?_⟩
  rcases List.mem_append.1 hx with hx | hx
  · exact Or.inl (hm x hx)
  · rcases List.mem_append.1 hx with hx | hx
    · exact Or.inl (hbp x hx)
    · exact hn x hx

/-- How a typed name is spelled. -/
structure TypedName.Spells (t : TypedName) (s : Text) : Prop where
  eq : s = t.name ++ t.gap ++ (t.keyword ++ (t.size ++ t.rest))
  keyword : ∃ c w, t.keyword = c :: w ∧ ∀ x ∈ c :: w, x.isAlpha = true
  size : t.size = [] ∨ ∃ b g, t.size = b ++ '(' :: (g ++ [')']) ∧ (∀ x ∈ b, isPart x)
    ∧ ∀ x ∈ g, isPart x ∨ x = ','

theorem TypedName.Spells.isAlpha_keyword {t : TypedName} {s : Text} (h : t.Spells s) :
    ∀ x ∈ t.keyword, x.isAlpha = true := by
  obtain ⟨c, w, hcw, halpha⟩ := h.keyword
  exact hcw ▸ halpha

theorem exists_of_sizeAfterBlanks {s rest : Text} (h : sizeAfterBlanks s = some rest) :
    ∃ b g, s = b ++ '(' :: (g ++ [')']) ++ rest ∧ (∀ x ∈ b, isPart x)
      ∧ ∀ x ∈ g, isPart x ∨ x = ',' := by
  obtain ⟨b, hs, hb⟩ := exists_blanks s
  obtain ⟨g, hg, hparts⟩ := exists_of_size h
  exact ⟨b, g, by rw [hg] at hs; simpa using hs, hb, hparts⟩

theorem read_nameToken {s a rest : Text} (h : read nameToken s = some (a, rest)) : s = a ++ rest := by
  have hquoted : ∀ q, Scanner.LeavesSuffix (quotedBy q) := fun q =>
    (char_suffix q).bind ((many1_suffix _).bind (char_suffix q))
  exact (append_of_read (((hquoted _).or (hquoted _)).or (many1_suffix isWord)) h).symm

theorem gap_of_typedName {s : Text} {t : TypedName} (h : typedName s = some t) :
    t.gap ≠ [] ∧ ∀ x ∈ t.gap, isBlank x = true := by
  obtain ⟨s₁, s₂, -, -, hgap, -⟩ := exists_of_typedName h
  obtain ⟨r, hr, he⟩ := Option.map_eq_some_iff.1 hgap
  obtain ⟨hbefore, rfl⟩ := Prod.mk.inj he
  obtain ⟨b, hs, hne, hb⟩ := exists_of_many1 hr
  rw [hs, before_append_self] at hbefore
  exact hbefore ▸ ⟨hne, hb⟩

theorem spells_of_typedName {s : Text} {t : TypedName} (h : typedName s = some t) : t.Spells s := by
  obtain ⟨s₁, s₂, s₃, hname, hgap, hword, hrest, hbefore⟩ := exists_of_typedName h
  have hs₁ := read_nameToken hname
  have hs₂ := (append_of_read (many1_suffix isBlank) hgap).symm
  have hs₃ := (append_of_run hword).symm
  have hsize : t.rest = s₃ ∨ ∃ b g, s₃ = b ++ '(' :: (g ++ [')']) ++ t.rest
      ∧ (∀ x ∈ b, isPart x) ∧ ∀ x ∈ g, isPart x ∨ x = ',' :=
    hrest ▸ (optional_cases s₃).imp_right exists_of_sizeAfterBlanks
  have hsuffix : t.rest <:+ s₃ := by
    rcases hsize with hs | ⟨b, g, hs, -⟩
    · exact hs ▸ List.suffix_refl _
    · exact ⟨_, hs.symm⟩
  refine ⟨?_, ?_, ?_⟩
  · rw [hbefore, before_append hsuffix, ← hs₃, List.append_assoc, ← hs₂, ← hs₁]
  · obtain ⟨hkeyword, -, hne⟩ := run_eq_some_iff.1 hword
    obtain ⟨c, w, hcw⟩ := List.exists_cons_of_ne_nil hne
    refine ⟨c, w, hcw, fun x hx => ?_⟩
    rw [← hcw, hkeyword] at hx
    exact List.all_eq_true.1 List.all_takeWhile x hx
  · rw [hbefore]
    rcases hsize with hs | ⟨b, g, hs, hb, hg⟩
    · exact Or.inl (by simp [before, hs])
    · exact Or.inr ⟨b, g, by rw [hs, before_append_self], hb, hg⟩

theorem keyword_of_typedName {s : Text} {t : TypedName} (h : typedName s = some t) :
    (t.keyword ++ (t.size ++ t.rest)).takeWhile Char.isAlpha = t.keyword := by
  have heq := (spells_of_typedName h).eq
  obtain ⟨s₁, s₂, s₃, hname, hgap, hword, -⟩ := exists_of_typedName h
  have hs₁ := read_nameToken hname
  have hs₂ := (append_of_read (many1_suffix isBlank) hgap).symm
  have hs₂' : s₂ = t.keyword ++ (t.size ++ t.rest) := by
    rw [hs₁, hs₂, ← List.append_assoc] at heq
    exact List.append_cancel_left heq
  rw [← hs₂']
  exact (run_eq_some_iff.1 hword).1.symm

/-- A line stays as it is, or the known type in it is replaced where it stands. -/
theorem line_convertType_cases (m : TypeMap) (d : Direction) (table? : Option Text) (line : Text) :
    (convertType m d table? line).line = line ∨ ∃ lead u t mapping,
      typedName? line = some (lead, t) ∧ typedName u = some t
        ∧ m.ofDeclared? d t.declaredType = some mapping
        ∧ line = lead ++ t.name ++ t.gap ++ (t.declaredType ++ t.rest)
        ∧ (convertType m d table? line).line
          = lead ++ t.name ++ t.gap ++ (mapping.target ++ t.rest) := by
  cases ht : typedName? line with
  | none => exact Or.inl (by rw [convertType_of_untyped ht])
  | some r =>
    obtain ⟨lead, t⟩ := r
    cases hm : m.ofDeclared? d t.declaredType with
    | none => exact Or.inl (by rw [convertType_of_unknown ht hm])
    | some mapping =>
      obtain ⟨u, hline, hu⟩ := append_of_find ht
      refine Or.inr ⟨lead, u, t, mapping, rfl, hu, hm, ?_, ?_⟩
      · simp [hline, (spells_of_typedName hu).eq, TypedName.declaredType]
      · simp [convertType_of_known ht hm]

end SchemaDialects.Definition
