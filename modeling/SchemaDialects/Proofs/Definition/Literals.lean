import SchemaDialects.Proofs.Definition.LeadingName
import SchemaDialects.Proofs.Text.Erasing

/-!
# Literals in definitions

The line of a column whose default is a string literal. All that is searched in
such a line starts in the literal, so the rewriting of the line is the
replacement of its type and the rewriting of the literal. Main statement: the
literal stays exactly where nothing is read in it.
-/

namespace SchemaDialects.Definition

open Text Script
open Dialect (isMarkerChar)

def stringLiteral (s : Text) : Text := '\'' :: (s ++ ['\''])

/-- The line of a column up to its default. -/
def beforeDefault (name type : Text) : Text := name ++ spaced [type, "DEFAULT".toList] ++ [' ']

/-- Neither a marker nor what SQLite lacks is read in `s`. -/
structure IsInert (d : Direction) (s : Text) : Prop where
  marker : occurs (spacedMarker d.source.marker) s = false
  updates : d = .mysqlToSqlite → occurs (anywhere onUpdate) s = false
  attributes : d = .mysqlToSqlite → occurs (anywhere typeAttribute) s = false

/-- What becomes of a text without a type. -/
def respelled (d : Direction) (s : Text) : Text := (respellMarker d s).getD s

/-! ## Readers and quotes -/

theorem foldsTo_quote {k : Char} (hk : isMarkerChar k = true) : foldsTo k '\'' = false := by
  rw [foldsTo_of_isAscii (by decide), beq_eq_false_iff_ne]
  rintro rfl
  exact absurd hk (by decide)

/-- Words of marker characters, none of them empty. -/
structure AreKeywords (ks : List Text) : Prop where
  chars : ∀ k ∈ ks, ∀ c ∈ k, isMarkerChar c = true
  no_empty : [] ∉ ks

theorem AreKeywords.keywordEnd_quote {ks : List Text} (h : AreKeywords ks) {k : Text} (hk : k ∈ ks)
    (u : Text) : keywordEnd k ('\'' :: u) = none := by
  cases k with
  | nil => exact absurd hk h.no_empty
  | cons x k =>
    have hx := foldsTo_quote (h.chars _ hk x (by simp))
    rw [keywordEnd, keyword_of_head hx]
    rfl

theorem blanks_quote (u : Text) : blanks ('\'' :: u) = '\'' :: u :=
  trimStart_eq_self (show isBlank '\'' = false by decide)

section
variable {ks : List Text} {f : Reader Text} (hf : StartsWith ks f) (hk : AreKeywords ks)
include hf hk

theorem reads_quote (prev : Option Char) (u : Text) : f prev ('\'' :: u) = none := by
  refine Option.eq_none_iff_forall_ne_some.2 fun r hr => ?_
  obtain ⟨-, k, hmem, hkw⟩ := hf hr
  rw [blanks_quote, hk.keywordEnd_quote hmem] at hkw
  cases hkw

theorem reads_blank_quote (prev : Option Char) (u : Text) : f prev (' ' :: '\'' :: u) = none := by
  refine Option.eq_none_iff_forall_ne_some.2 fun r hr => ?_
  obtain ⟨-, k, hmem, hkw⟩ := hf hr
  have hb : blanks (' ' :: '\'' :: u) = '\'' :: u :=
    (trimStart_append_of_blank (s := [' ']) (by decide)).trans (blanks_quote u)
  rw [hb, hk.keywordEnd_quote hmem] at hkw
  cases hkw

theorem passes_type {type : Text} (ht : IsAtom type) (hw : Avoids ks type)
    (hd : "DEFAULT".toList ∉ ks) (prev : Option Char) (u : Text) :
    Passes f prev (spaced [type, "DEFAULT".toList] ++ [' ']) ('\'' :: u) := by
  have hatoms : ∀ t ∈ [type, "DEFAULT".toList], IsAtom t :=
    List.forall_mem_cons.2 ⟨ht, by simpa using isAtom_of_word (by decide) (by decide)⟩
  have havoids : Avoids ks (spaced [type, "DEFAULT".toList]) := by
    refine avoids_spaced hk.no_empty (List.forall_mem_cons.2 ⟨hw, ?_⟩)
    simpa using Avoids.of_word (by decide) hd
  have hlast : (spaced [type, "DEFAULT".toList]).getLast?.any isBlank = false := by
    rw [show spaced [type, "DEFAULT".toList] = (' ' :: type ++ " DEFAUL".toList) ++ ['T'] by
      simp [spaced], List.getLast?_concat]
    decide
  refine .append ?_ (.cons (reads_blank_quote hf hk _ u) (.nil _ _))
  refine hf.passes_of_head hk.chars (isAscii_spaced hatoms) ?_ havoids hlast ?_ prev
  · simp
  · simp [wordEnds, not_isWord_of_isBlank (c := ' ') (by decide)]

end

/-- What is read behind a part that a reader passes is read in the same way where
that part is missing. -/
theorem find_of_passes {α : Type} {f : Reader α} {b u : Text} (h : Passes f none b ('\'' :: u))
    (hq : ∀ prev, f prev ('\'' :: u) = none) :
    find f none (b ++ '\'' :: u) = (find f none ('\'' :: u)).map fun r => (b ++ r.1, r.2) := by
  rw [find_append h]
  simp only [find, hq]

theorem eraseAll_of_passes {f : Reader Text} {b u : Text} (h : Passes f none b ('\'' :: u))
    (hq : ∀ prev, f prev ('\'' :: u) = none) :
    eraseAll f (b ++ '\'' :: u) = b ++ eraseAll f ('\'' :: u) := by
  rw [eraseAll, eraseFrom_append h, eraseAll]
  simp only [eraseFrom, hq]

theorem exists_eraseAll {f : Reader Text} {u : Text} (hq : ∀ prev, f prev ('\'' :: u) = none) :
    ∃ v, eraseAll f ('\'' :: u) = '\'' :: v :=
  ⟨eraseFrom f (some '\'') 0 u, by simp only [eraseAll, eraseFrom, hq]⟩

/-! ## What is read in the line -/

theorem areKeywords_attributeWords : AreKeywords attributeWords := ⟨by decide, by decide⟩

theorem areKeywords_marker (d : Dialect) : AreKeywords [d.marker] := by
  constructor
  · cases d <;> decide
  · cases d <;> decide

/-- The words of the type of a column and of its default. -/
structure IsTypePart (type : Text) : Prop where
  atom : IsAtom type
  avoids : Avoids reservedWords type

theorem IsTypePart.of_plain {d : Dialect} {type : Text} (h : IsPlainType d type) :
    IsTypePart type := ⟨h.isAtom, h.avoids⟩

theorem ends_beforeDefault (type u : Text) :
    Ends none (spaced [type, "DEFAULT".toList] ++ [' '] ++ u) := fun _ => by
  simp [wordEnds, spaced, not_isWord_of_isBlank (c := ' ') (by decide)]

section
variable {name type : Text} (hne : name ≠ []) (hword : ∀ c ∈ name, isWord c = true)

include hne hword in
theorem beginsWith_beforeDefault (u : Text) :
    BeginsWith none name (beforeDefault name type ++ u) := by
  refine ⟨hne, hword, by simp, spaced [type, "DEFAULT".toList] ++ [' '] ++ u, ?_,
    ends_beforeDefault type u⟩
  simp [beforeDefault, spelled]

variable (ht : IsTypePart type)
include hword ht

theorem passes_attribute_beforeDefault {f : Scanner} (hf : ReadsAttribute attributeWords f)
    (u : Text) : Passes (anywhere f) none (beforeDefault name type) ('\'' :: u) := by
  rw [beforeDefault, List.append_assoc]
  refine .append (hf.passes_of_no_blank (isBlank_of_mem_name hword) none _) ?_
  exact passes_type hf.startsWith areKeywords_attributeWords ht.atom
    (ht.avoids.mono (by decide)) (by decide) _ u

include hne

theorem passes_marker_beforeDefault {d : Dialect} (hm : sameUpToCase name d.marker = false)
    (u : Text) : Passes (spacedMarker d.marker) none (beforeDefault name type) ('\'' :: u) := by
  rw [beforeDefault, List.append_assoc]
  refine .append ?_ ?_
  · have hbegins : BeginsWith none name (beforeDefault name type ++ u) :=
      beginsWith_beforeDefault hne hword u
    exact marker_passes_name hbegins (ends_beforeDefault type _) hm
  · refine passes_type (startsWith_spacedMarker _) (areKeywords_marker d) ht.atom
      (ht.avoids.mono ?_) ?_ _ u
    · cases d <;> decide
    · cases d <;> decide

theorem passes_key_beforeDefault (hk : isConstraintKeyword name = false) (u : Text) :
    Passes primaryKey none (beforeDefault name type) ('\'' :: u) := by
  rw [beforeDefault, List.append_assoc]
  refine .append ?_ ?_
  · have hbegins : BeginsWith none name (beforeDefault name type ++ u) :=
      beginsWith_beforeDefault hne hword u
    exact key_passes_name hbegins (ends_beforeDefault type _) hk
  · exact passes_type startsWith_primaryKey ⟨by decide, by decide⟩ ht.atom
      (ht.avoids.mono (by decide)) (by decide) _ u

end

/-! ## The parts of the line -/

/-- A text has one longest beginning of characters with `p`. -/
theorem eq_of_parts {p : Char → Prop} {a b u v : Text} {x y : Char} (ha : ∀ c ∈ a, p c)
    (hb : ∀ c ∈ b, p c) (hx : ¬ p x) (hy : ¬ p y) (h : a ++ x :: u = b ++ y :: v) :
    a = b ∧ x = y := by
  rcases List.append_eq_append_iff.1 h with ⟨m, rfl, hm⟩ | ⟨m, rfl, hm⟩
  · cases m with
    | nil => exact ⟨(List.append_nil a).symm, (List.cons.inj hm).1⟩
    | cons c m =>
      obtain ⟨rfl, -⟩ := List.cons.inj hm
      exact absurd (hb x (by simp)) hx
  · cases m with
    | nil => exact ⟨List.append_nil b, (List.cons.inj hm).1.symm⟩
    | cons c m =>
      obtain ⟨rfl, -⟩ := List.cons.inj hm
      exact absurd (ha y (by simp)) hy

theorem not_isPart {c : Char} (h : c ∈ ['\'', '"', '(']) : ¬ isPart c := by
  simp only [List.mem_cons, List.not_mem_nil, or_false] at h
  rcases h with rfl | rfl | rfl <;> simp [isPart] <;> decide

section
variable {a u : Text} (ha : ∀ c ∈ a, isPart c)
include ha

theorem not_index {m n b rest : Text} (hm : ∀ c ∈ m, isPart c) (hb : ∀ c ∈ b, isPart c)
    (hn : (∃ x, n = '"' :: (x ++ ['"']) ∧ '"' ∉ x) ∨ ∀ c ∈ n, isPart c) :
    a ++ '\'' :: u ≠ m ++ (n ++ (b ++ '(' :: rest)) := by
  intro h
  rcases hn with ⟨x, rfl, -⟩ | hn
  · rw [List.cons_append] at h
    exact absurd (eq_of_parts ha hm (not_isPart (by simp)) (not_isPart (by simp)) h).2 (by decide)
  · rw [← List.append_assoc n, ← List.append_assoc m] at h
    have hall : ∀ c ∈ m ++ (n ++ b), isPart c := by
      intro c hc
      simp only [List.mem_append] at hc
      rcases hc with hc | hc | hc
      · exact hm c hc
      · exact hn c hc
      · exact hb c hc
    exact absurd (eq_of_parts ha hall (not_isPart (by simp)) (not_isPart (by simp)) h).2 (by decide)

theorem isInlineIndex_before_quote : isInlineIndex (a ++ '\'' :: u) = false := by
  cases h : inlineIndexName? (a ++ '\'' :: u) with
  | none => rw [isInlineIndex, h]; rfl
  | some name =>
    obtain ⟨m, n, b, rest, hs, hm, hb, hn⟩ := exists_of_inlineIndexName? h
    exact absurd hs (not_index ha hm hb hn)

theorem withoutUniqueName_before_quote : withoutUniqueName (a ++ '\'' :: u) = a ++ '\'' :: u := by
  cases h : uniqueKey (a ++ '\'' :: u) with
  | none => rw [withoutUniqueName, h]
  | some rest =>
    obtain ⟨c, m, n, b, hs, -, hm, hb, hn⟩ := exists_of_uniqueKey h
    exact absurd hs (not_index ha (m := c :: m) hm hb hn)

end

theorem isOrdinary_beforeDefault {name type : Text} (hword : ∀ c ∈ name, isWord c = true)
    (ha : ∀ c ∈ type, c.isAlpha = true) : ∀ c ∈ beforeDefault name type, isOrdinary c = true := by
  have hd : ∀ c ∈ "DEFAULT ".toList, isOrdinary c = true := by decide
  intro c hc
  have hc' : c ∈ name ∨ c = ' ' ∨ c ∈ type ∨ c = ' ' ∨ c ∈ "DEFAULT ".toList := by
    simpa [beforeDefault, spaced, or_assoc] using hc
  rcases hc' with hc | rfl | hc | rfl | hc
  · exact isOrdinary_of_isWord (hword c hc)
  · decide
  · exact isOrdinary_of_isAlpha (ha c hc)
  · decide
  · exact hd c hc

theorem exists_eraseAll_attribute {f : Scanner} (hf : ReadsAttribute attributeWords f) (u : Text) :
    ∃ v, eraseAll (anywhere f) ('\'' :: u) = '\'' :: v :=
  exists_eraseAll fun prev => reads_quote hf.startsWith areKeywords_attributeWords prev u

theorem cleaned_quote (d : Direction) (u : Text) : ∃ v, cleaned d ('\'' :: u) = '\'' :: v := by
  cases d with
  | sqliteToMysql => exact ⟨u, rfl⟩
  | mysqlToSqlite =>
    obtain ⟨u₁, h₁⟩ := exists_eraseAll_attribute readsAttribute_onUpdate u
    obtain ⟨u₂, h₂⟩ := exists_eraseAll_attribute readsAttribute_commentClause u₁
    obtain ⟨u₃, h₃⟩ := exists_eraseAll_attribute readsAttribute_typeAttribute u₂
    have hname : withoutUniqueName ('\'' :: u) = '\'' :: u :=
      withoutUniqueName_before_quote (a := []) (by simp)
    exact ⟨u₃, by rw [cleaned, hname, withoutAttributes, h₁, h₂, h₃]⟩

section
variable {name type : Text} (hne : name ≠ []) (hword : ∀ c ∈ name, isWord c = true)

include hword in
theorem cleaned_beforeDefault (ha : ∀ c ∈ type, c.isAlpha = true) (ht : IsTypePart type)
    (d : Direction) (u : Text) :
    cleaned d (beforeDefault name type ++ '\'' :: u)
      = beforeDefault name type ++ cleaned d ('\'' :: u) := by
  cases d with
  | sqliteToMysql => rfl
  | mysqlToSqlite =>
    have herase : ∀ {f : Scanner}, ReadsAttribute attributeWords f → ∀ v,
        eraseAll (anywhere f) (beforeDefault name type ++ '\'' :: v)
          = beforeDefault name type ++ eraseAll (anywhere f) ('\'' :: v) := fun hf v =>
      eraseAll_of_passes (passes_attribute_beforeDefault hword ht hf v)
        fun prev => reads_quote hf.startsWith areKeywords_attributeWords prev v
    have hname : withoutUniqueName ('\'' :: u) = '\'' :: u :=
      withoutUniqueName_before_quote (a := []) (by simp)
    have hline := withoutUniqueName_before_quote (u := u)
      fun c hc => Or.inl (isOrdinary_beforeDefault hword ha c hc)
    obtain ⟨u₁, h₁⟩ := exists_eraseAll_attribute readsAttribute_onUpdate u
    obtain ⟨u₂, h₂⟩ := exists_eraseAll_attribute readsAttribute_commentClause u₁
    simp only [cleaned, withoutAttributes]
    rw [hline, hname, herase readsAttribute_onUpdate, h₁, herase readsAttribute_commentClause, h₂,
      herase readsAttribute_typeAttribute]

include hne hword

theorem typedName?_beforeDefault (hty : type ≠ []) (ha : ∀ c ∈ type, c.isAlpha = true) (w : Text) :
    typedName? (beforeDefault name type ++ w)
      = some ([], ⟨name, [' '], type, [], " DEFAULT ".toList ++ w⟩) := by
  have hsize : Text.optional sizeAfterBlanks (" DEFAULT ".toList ++ w) = " DEFAULT ".toList ++ w := by
    have hb : blanks (" DEFAULT ".toList ++ w) = "DEFAULT ".toList ++ w :=
      (trimStart_append_of_blank (s := [' ']) (by decide)).trans
        (trimStart_eq_self (show isBlank 'D' = false by decide))
    rw [Text.optional, sizeAfterBlanks, hb]
    rfl
  have hline : beforeDefault name type ++ w = name ++ (' ' :: (type ++ (" DEFAULT ".toList ++ w))) := by
    simp [beforeDefault, spaced]
  rw [hline, typedName?_bare hne hword hty ha (by rfl), hsize]
  simp [before]

theorem convertType_beforeDefault (m : TypeMap) {d : Direction}
    (hty : d.source.hasTypeKeyword type = true) (w : Text) :
    (convertType m d none (beforeDefault name type ++ w)).line
      = beforeDefault name (m.target d type) ++ w := by
  obtain ⟨hnil, ha, -⟩ := Dialect.hasTypeKeyword_spec hty
  obtain ⟨mapping, hm⟩ := Option.isSome_iff_exists.1 ((m.isSome_ofKeyword? d _).trans hty)
  obtain ⟨lossy, hd⟩ := ofDeclared?_plain hty (Or.inl rfl) hm
  have htarget := target_plain hty (Or.inl rfl) hm
  rw [List.append_nil] at htarget
  rw [convertType, typedName?_beforeDefault hne hword hnil ha]
  simp only [TypedName.declaredType, hd, htarget]
  simp [beforeDefault, spaced]

theorem respelled_beforeDefault (ht : IsTypePart type) {d : Direction}
    (hk : isConstraintKeyword name = false) (hm : sameUpToCase name d.source.marker = false)
    (u : Text) :
    respelled d (beforeDefault name type ++ '\'' :: u)
      = beforeDefault name type ++ respelled d ('\'' :: u) := by
  have hmarker := passes_marker_beforeDefault hne hword ht (d := d.source) hm
  have hkey := passes_key_beforeDefault hne hword ht hk
  have hquote : ∀ prev v, spacedMarker d.source.marker prev ('\'' :: v) = none :=
    reads_quote (startsWith_spacedMarker _) (areKeywords_marker _)
  have hquote' : ∀ prev v, primaryKey prev ('\'' :: v) = none :=
    reads_quote startsWith_primaryKey ⟨by decide, by decide⟩
  obtain ⟨v, hv⟩ := exists_eraseAll fun prev => hquote prev u
  have hfind := find_of_passes (hmarker u) fun prev => hquote prev u
  have herase := eraseAll_of_passes (hmarker u) fun prev => hquote prev u
  have hfind' := find_of_passes (hkey v) fun prev => hquote' prev v
  simp only [respelled, respellMarker, occurs, replaceFirst, herase, hv, hfind, hfind']
  cases find (spacedMarker d.source.marker) none ('\'' :: u) with
  | none => rfl
  | some r =>
    cases find primaryKey none ('\'' :: v) with
    | none => simp
    | some r' => simp

theorem rewritten_beforeDefault (m : TypeMap) {d : Direction}
    (hty : d.source.hasTypeKeyword type = true) (hk : isConstraintKeyword name = false)
    (hm : sameUpToCase name d.source.marker = false) (u : Text) :
    rewritten m d (beforeDefault name type ++ '\'' :: u)
      = beforeDefault name (m.target d type) ++ respelled d (cleaned d ('\'' :: u)) := by
  have hplain : IsPlainType d.source type := ⟨type, [], hty, Or.inl rfl, (List.append_nil _).symm⟩
  obtain ⟨-, ha, -⟩ := Dialect.hasTypeKeyword_spec hty
  obtain ⟨v, hv⟩ := cleaned_quote d u
  have hrespelled := respelled_beforeDefault hne hword
    (IsTypePart.of_plain (isPlainType_target m hplain)) hk hm v
  rw [respelled] at hrespelled
  rw [rewritten, retyped, cleaned_beforeDefault hword ha (IsTypePart.of_plain hplain),
    convertType_beforeDefault hne hword m hty, hv, hrespelled]

end

theorem isDropped_beforeDefault {name type : Text} (hword : ∀ c ∈ name, isWord c = true)
    (ha : ∀ c ∈ type, c.isAlpha = true) (d : Direction) (u : Text) :
    isDropped d (beforeDefault name type ++ '\'' :: u) = false := by
  cases d with
  | sqliteToMysql => rfl
  | mysqlToSqlite =>
    exact isInlineIndex_before_quote fun c hc => Or.inl (isOrdinary_beforeDefault hword ha c hc)

theorem keyClauseColumns?_beforeDefault {name : Text} (hword : ∀ c ∈ name, isWord c = true)
    (hk : isConstraintKeyword name = false) (type u : Text) :
    keyClauseColumns? (beforeDefault name type ++ u) = none := by
  have hends := ends_beforeDefault type u rfl
  have hsplit : beforeDefault name type ++ u
      = name ++ (spaced [type, "DEFAULT".toList] ++ [' '] ++ u) := by
    simp [beforeDefault]
  rw [hsplit, keyClauseColumns?, keywordBlanks_primary hword hk hends]
  rfl

/-! ## When the literal stays -/

theorem not_foldsTo_underscore {k : Char} (hk : k ≠ '_') : foldsTo k '_' = false := by
  rw [foldsTo_of_isAscii (by decide), beq_eq_false_iff_ne]
  exact hk.symm

theorem not_mem_of_folds {k m : Text} (hk : '_' ∉ k)
    (hm : List.Forall₂ (fun x c => foldsTo x c = true) k m) : '_' ∉ m := by
  induction hm with
  | nil => simp
  | @cons x c k m hc _ ih =>
    rw [List.mem_cons, not_or] at hk ⊢
    refine ⟨?_, ih hk.2⟩
    rintro rfl
    rw [not_foldsTo_underscore (Ne.symm hk.1)] at hc
    cases hc

theorem eq_underscore_of_foldsTo {c : Char} (h : foldsTo '_' c = true) : c = '_' := by
  have hup : c.toUpper = '_' := toUpper_of_foldsTo (by decide) (by decide) h
  rcases toUpper_eq_or_isAlpha c with hc | hc
  · rw [← hc, hup]
  · exact forall_ascii (p := fun c => c.toUpper = '_' → c = '_') (by decide +kernel)
      (lt_of_isMarkerChar (isMarkerChar_of_isAlpha hc)) hup

theorem mem_of_folds {k m : Text} (hk : '_' ∈ k)
    (hm : List.Forall₂ (fun x c => foldsTo x c = true) k m) : '_' ∈ m := by
  induction hm with
  | nil => cases hk
  | @cons x c k m hc _ ih =>
    rcases List.mem_cons.1 hk with rfl | hk
    · simp [eq_underscore_of_foldsTo hc]
    · exact List.mem_cons_of_mem _ (ih hk)

theorem exists_of_spacedMarker {k : Text} {prev : Option Char} {s rest : Text}
    (h : spacedMarker k prev s = some rest) :
    ∃ b m, s = b ++ m ++ rest ∧ (∀ c ∈ b, isBlank c = true)
      ∧ List.Forall₂ (fun x c => foldsTo x c = true) k m := by
  obtain ⟨m, hm, -, hfold⟩ :=
    exists_of_keyword (keyword_of_keywordEnd (spacedMarker_iff_keywordEnd.1 h).2)
  refine ⟨s.takeWhile isBlank, m, ?_, fun c hc => List.all_eq_true.1 List.all_takeWhile c hc, hfold⟩
  rw [List.append_assoc, ← hm]
  exact List.takeWhile_append_dropWhile.symm

theorem not_mem_blanks {b : Text} (hb : ∀ c ∈ b, isBlank c = true) : '_' ∉ b := fun hm =>
  absurd (hb _ hm) (by decide)

theorem readsWith_marker : ReadsWith '_' (spacedMarker Dialect.mysql.marker) := by
  intro prev s rest h
  obtain ⟨b, m, hs, -, hm⟩ := exists_of_spacedMarker h
  exact ⟨b ++ m, hs, List.mem_append_right _ (mem_of_folds (by decide) hm)⟩

theorem readsWithout_marker : ReadsWithout '_' (spacedMarker Dialect.sqlite.marker) := by
  intro prev s rest h
  obtain ⟨b, m, hs, hb, hm⟩ := exists_of_spacedMarker h
  refine ⟨b ++ m, hs, ?_, ?_⟩
  · rintro hnil
    obtain ⟨-, rfl⟩ := List.append_eq_nil_iff.1 hnil
    cases hm
  · rw [List.mem_append, not_or]
    exact ⟨not_mem_blanks hb, not_mem_of_folds (by decide) hm⟩

theorem readsWithout_key : ReadsWithout '_' primaryKey := by
  intro prev s rest h
  obtain ⟨-, u, t, hu, hb, hkey⟩ := primaryKey_iff_keywords.1 h
  obtain ⟨m, rfl, hl, hm⟩ := exists_of_keyword hu
  obtain ⟨b, rfl, -, hblank⟩ := exists_of_many1 hb
  obtain ⟨n, rfl, -, hn⟩ := exists_of_keyword (keyword_of_keywordEnd hkey)
  refine ⟨m ++ (b ++ n), by simp, ?_, ?_⟩
  · have hne : m ≠ [] := by
      rintro rfl
      cases hl
    simp [hne]
  · simp only [List.mem_append, not_or]
    exact ⟨not_mem_of_folds (by decide) hm, not_mem_blanks hblank,
      not_mem_of_folds (by decide) hn⟩

theorem suffix_of_primaryKey ⦃prev : Option Char⦄ ⦃s rest : Text⦄
    (h : primaryKey prev s = some rest) : rest <:+ s := by
  obtain ⟨c, m, rfl, -⟩ := takesWord_primaryKey prev h
  exact ⟨c :: m, rfl⟩

/-! Only MySQL's marker has an underscore, so respelling a marker shows in their
number. -/

theorem count_respelled_lt {s s' : Text} (h : respellMarker .mysqlToSqlite s = some s') :
    s'.count '_' < s.count '_' := by
  have hphrase : (keyPhrase .mysqlToSqlite).count '_' = 0 := by decide
  obtain ⟨hmarker, hcase⟩ := respellMarker_cases h
  have hlt := count_eraseAll_lt readsWith_marker hmarker
  obtain ⟨-, rfl⟩ | ⟨-, rfl⟩ := hcase
  · have hle := count_replaceFirst_le suffix_of_primaryKey '_' (keyPhrase .mysqlToSqlite)
      (eraseAll (spacedMarker Dialect.mysql.marker) s)
    rw [hphrase] at hle
    exact Nat.lt_of_le_of_lt hle hlt
  · rw [List.count_append, show (' ' :: keyPhrase .mysqlToSqlite).count '_' = 0 by decide]
    exact hlt

theorem count_lt_respelled {s s' : Text} (h : respellMarker .sqliteToMysql s = some s') :
    s.count '_' < s'.count '_' := by
  have heq := count_eraseAll readsWithout_marker s
  have hcase := (respellMarker_cases h).2
  rw [show Direction.sqliteToMysql.source = Dialect.sqlite from rfl] at hcase
  obtain ⟨hkey, rfl⟩ | ⟨-, rfl⟩ := hcase
  · rw [count_replaceFirst readsWithout_key hkey, heq,
      show (keyPhrase .sqliteToMysql).count '_' = 1 by decide]
    omega
  · rw [List.count_append, heq, show (' ' :: keyPhrase .sqliteToMysql).count '_' = 1 by decide]
    omega

theorem not_occurs_comment {s : Text} (h : '\'' ∉ s) :
    occurs (anywhere commentClause) (stringLiteral s) = false := by
  rw [Bool.eq_false_iff]
  intro ho
  obtain ⟨⟨lead, rest⟩, hfind⟩ := Option.isSome_iff_exists.1 ho
  obtain ⟨t, hs, ht⟩ := append_of_find hfind
  obtain ⟨m, u, rfl, hne, hm, hu⟩ := exists_of_commentClause ht
  -- The quote of the clause is not the first of the literal, so it is the last.
  have hlast : u = [] := by
    by_contra hne'
    obtain ⟨c, z, hz⟩ := List.exists_cons_of_ne_nil (l := lead ++ m) (by simp [hne])
    have hsz : s ++ ['\''] = z ++ '\'' :: u := by
      rw [← List.append_assoc, hz] at hs
      exact (List.cons.inj hs).2
    have hdrop := congrArg List.dropLast hsz
    rw [List.dropLast_concat, List.dropLast_append_of_ne_nil (by simp),
      List.dropLast_cons_of_ne_nil hne'] at hdrop
    exact h (by rw [hdrop]; simp)
  rw [hlast] at hu
  cases hu

theorem sublist_withoutAttributes (s : Text) : (withoutAttributes s).Sublist s :=
  (sublist_eraseAll _ _).trans ((sublist_eraseAll _ _).trans (sublist_eraseAll _ _))

/-- What is taken out in turn is taken out nowhere if the text stays. -/
theorem withoutAttributes_eq_self_iff {s : Text} :
    withoutAttributes s = s ↔ occurs (anywhere onUpdate) s = false
      ∧ occurs (anywhere commentClause) s = false ∧ occurs (anywhere typeAttribute) s = false := by
  have h₁ := sublist_eraseAll (anywhere onUpdate) s
  have h₂ := sublist_eraseAll (anywhere commentClause) (eraseAll (anywhere onUpdate) s)
  have h₃ := sublist_eraseAll (anywhere typeAttribute)
    (eraseAll (anywhere commentClause) (eraseAll (anywhere onUpdate) s))
  simp only [← eraseAll_eq_self_iff, withoutAttributes]
  constructor
  · intro h
    rw [h] at h₃
    have hcomment := (h₂.trans h₁).antisymm h₃
    rw [hcomment] at h₂ h
    have hupdate := h₁.antisymm h₂
    rw [hupdate] at hcomment
    exact ⟨hupdate, hcomment, h⟩
  · rintro ⟨hupdate, hcomment, hattribute⟩
    rw [hupdate, hcomment, hattribute]

/-- A literal stays exactly where no marker and no attribute is read in it. -/
theorem respelled_cleaned_eq_iff {d : Direction} {s : Text} (h : '\'' ∉ s) :
    respelled d (cleaned d (stringLiteral s)) = stringLiteral s ↔ IsInert d (stringLiteral s) := by
  have hname : withoutUniqueName (stringLiteral s) = stringLiteral s :=
    withoutUniqueName_before_quote (a := []) (by simp)
  have hself : cleaned d (stringLiteral s) = stringLiteral s ↔ (d = .mysqlToSqlite →
      occurs (anywhere onUpdate) (stringLiteral s) = false
        ∧ occurs (anywhere typeAttribute) (stringLiteral s) = false) := by
    cases d with
    | sqliteToMysql => simp [cleaned]
    | mysqlToSqlite =>
      simp only [cleaned, hname, withoutAttributes_eq_self_iff, not_occurs_comment h, true_and,
        forall_const]
  constructor
  · intro heq
    have hmarker : respellMarker d (cleaned d (stringLiteral s)) = none := by
      cases hr : respellMarker d (cleaned d (stringLiteral s)) with
      | none => rfl
      | some s' =>
        rw [respelled, hr, Option.getD_some] at heq
        subst heq
        cases d with
        | sqliteToMysql => exact absurd (count_lt_respelled hr) (Nat.lt_irrefl _)
        | mysqlToSqlite =>
          have hlt := count_respelled_lt hr
          rw [cleaned, hname] at hlt
          have hle := (sublist_withoutAttributes (stringLiteral s)).count_le '_'
          exact absurd (Nat.lt_of_lt_of_le hlt hle) (Nat.lt_irrefl _)
    rw [respelled, hmarker, Option.getD_none] at heq
    rw [heq, respellMarker_eq_none_iff] at hmarker
    exact ⟨hmarker, fun hd => (hself.1 heq hd).1, fun hd => (hself.1 heq hd).2⟩
  · intro hi
    rw [hself.2 fun hd => ⟨hi.updates hd, hi.attributes hd⟩, respelled,
      respellMarker_eq_none_iff.2 hi.marker]
    rfl

end SchemaDialects.Definition
