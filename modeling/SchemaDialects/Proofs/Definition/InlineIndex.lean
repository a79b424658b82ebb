import SchemaDialects.Proofs.Definition.PrimaryKey
import SchemaDialects.Proofs.Definition.TypeWords

/-!
# Lines that define an index

An index in a table is `[FULLTEXT|SPATIAL] KEY|INDEX [name] [USING method] (…`. Main statement: such
a line is taken for an index exactly if it has a name, no method, and the name is between quotes or
no type. A line of a column named `key` or `index` is never taken for one.
-/

namespace SchemaDialects.Definition

open Text

/-- The name of an index, bare or between double quotes. -/
inductive IndexName where
  | bare (name : Text)
  | quoted (name : Text)

namespace IndexName

def spelled : IndexName → Text
  | bare name => name
  | quoted name => '"' :: (name ++ ['"'])

def IsName : IndexName → Prop
  | bare name => name ≠ [] ∧ ∀ c ∈ name, isWord c = true
  | quoted name => name ≠ [] ∧ '"' ∉ name

/-- A bare name can be the keyword of a type. -/
def isType : IndexName → Bool
  | bare name => Dialect.mysql.hasTypeKeyword name
  | quoted _ => false

end IndexName

def IsSpacing (b : Text) : Prop := b ≠ [] ∧ ∀ c ∈ b, isBlank c = true

instance (b : Text) : Decidable (IsSpacing b) :=
  inferInstanceAs (Decidable (b ≠ [] ∧ ∀ c ∈ b, isBlank c = true))

/-- One of the words `ks`, in letters of any case. -/
def IsOneOf (ks : List Text) (w : Text) : Prop := ∃ k ∈ ks, IsKeyword k w

instance (ks : List Text) (w : Text) : Decidable (IsOneOf ks w) :=
  inferInstanceAs (Decidable (∃ k ∈ ks, IsKeyword k w))

def IsClassPart (s : Text) : Prop :=
  s = [] ∨ ∃ w b, s = w ++ b ∧ IsOneOf ["FULLTEXT".toList, "SPATIAL".toList] w ∧ IsSpacing b

def IsNamePart : Option IndexName → Text → Prop
  | none, s => s = []
  | some n, s => n.IsName ∧ ∃ b, IsSpacing b ∧ s = b ++ n.spelled

/-- The method of an index, if it has one. -/
def IsMethodPart : Bool → Text → Prop
  | false, s => s = []
  | true, s => ∃ b u b' w, IsSpacing b ∧ IsKeyword "USING".toList u ∧ IsSpacing b'
    ∧ IsOneOf ["BTREE".toList, "HASH".toList] w ∧ s = b ++ (u ++ (b' ++ w))

/-- A line `[FULLTEXT|SPATIAL] KEY|INDEX [name] [USING method] (…`. -/
def IsIndexLine (name? : Option IndexName) (hasMethod : Bool) (line : Text) : Prop :=
  ∃ cls key name method b columns, line = cls ++ (key ++ (name ++ (method ++ (b ++ '(' :: columns))))
    ∧ IsClassPart cls ∧ IsOneOf ["KEY".toList, "INDEX".toList] key ∧ IsNamePart name? name
    ∧ IsMethodPart hasMethod method ∧ ∀ c ∈ b, isBlank c = true

/-- A line `KEY|INDEX type …`, of a column with that name. -/
def IsKeyColumn (key gap type line : Text) : Prop :=
  IsOneOf ["KEY".toList, "INDEX".toList] key ∧ IsSpacing gap ∧ Dialect.mysql.hasTypeKeyword type = true
    ∧ ∃ rest, line = key ++ (gap ++ (type ++ rest)) ∧ wordEnds rest = true

/-! ## Words -/

theorem eq_of_foldsTo {j k c : Char} (hj : j.toNat < 128) (hk : k.toNat < 128)
    (h : foldsTo j c = true) (h' : foldsTo k c = true) : j = k := by
  have hs : ¬ ('ſ').toUpper.toNat < 128 ∧ ¬ ('\u212A').toUpper.toNat < 128 := by decide
  simp only [foldsTo, Bool.or_eq_true, Bool.and_eq_true, beq_iff_eq] at h h'
  rcases h with (rfl | ⟨rfl, rfl⟩) | ⟨rfl, rfl⟩
  · rcases h' with (rfl | ⟨rfl, rfl⟩) | ⟨rfl, rfl⟩
    · rfl
    · exact absurd hj hs.1
    · exact absurd hj hs.2
  · rcases h' with (rfl | ⟨rfl, -⟩) | ⟨rfl, h'⟩
    · exact absurd hk hs.1
    · rfl
    · exact absurd h' (by decide)
  · rcases h' with (rfl | ⟨rfl, h'⟩) | ⟨rfl, -⟩
    · exact absurd hk hs.2
    · exact absurd h' (by decide)
    · rfl

theorem blanks_append {b s : Text} (hb : ∀ c ∈ b, isBlank c = true)
    (hs : s.head?.any isBlank = false) : blanks (b ++ s) = s :=
  (trimStart_append_of_blank hb).trans (trimStart_eq_self hs)

theorem head?_not_blank {w s : Text} (hne : w ≠ []) (hw : ∀ c ∈ w, isWord c = true) :
    (w ++ s).head?.any isBlank = false := by
  have hblank := isBlank_of_mem_name hw
  obtain ⟨c, n, rfl⟩ := List.exists_cons_of_ne_nil hne
  simpa using hblank c (by simp)

section
variable {ks : List Text} {w : Text} (h : IsOneOf ks w)
variable (hk : ∀ k ∈ ks, k ≠ [] ∧ ∀ c ∈ k, Dialect.isMarkerChar c = true)
include h hk

theorem IsOneOf.exists_cons :
    ∃ c n, w = c :: n ∧ ∃ x ∈ ks.filterMap List.head?, foldsTo x c = true := by
  obtain ⟨k, hmem, hw⟩ := h
  obtain ⟨x, l, rfl⟩ := List.exists_cons_of_ne_nil (hk k hmem).1
  obtain ⟨c, n, hcn, hc⟩ := hw.exists_cons
  exact ⟨c, n, hcn, x, List.mem_filterMap.2 ⟨_, hmem, rfl⟩, hc⟩

theorem IsOneOf.isWord : w ≠ [] ∧ ∀ c ∈ w, isWord c = true := by
  obtain ⟨c, n, hcn, -⟩ := h.exists_cons hk
  obtain ⟨k, hmem, hw⟩ := h
  exact ⟨by simp [hcn], IsKeyword.isWord hw (hk k hmem).2⟩

end

theorem not_foldsTo_of_head {xs : List Char} {x y c : Char} (hx : x ∈ xs) (hc : foldsTo x c = true)
    (hall : ∀ x ∈ xs, x.toNat < 128 ∧ y ≠ x) (hy : y.toNat < 128) : foldsTo y c = false := by
  by_contra hf
  exact (hall x hx).2 (eq_of_foldsTo hy (hall x hx).1 (by simpa using hf) hc)

theorem wordEnds_of_spacing {b : Text} (hb : IsSpacing b) (s : Text) : wordEnds (b ++ s) = true := by
  obtain ⟨c, n, rfl⟩ := List.exists_cons_of_ne_nil hb.1
  simp [wordEnds, not_isWord_of_isBlank (hb.2 c (by simp))]

section
variable {x y : Char} {j k w b s : Text}

theorem keywordBlanks_of_spacing (hw : IsKeyword k w) (hb : IsSpacing b) (hs : s.head?.any isBlank = false) :
    keywordBlanks k (w ++ (b ++ s)) = some s := by
  rw [keywordBlanks, Script.keyword_append_of_folds hw]
  exact many1_append hb.1 hb.2 hs

variable (hx : x.toNat < 128) (hy : y.toNat < 128) (hne : x ≠ y)
include hx hy hne

theorem keywordBlanks_of_other (hw : IsKeyword (y :: k) w) (s : Text) :
    keywordBlanks (x :: j) (w ++ s) = none := by
  obtain ⟨c, n, rfl, hc⟩ := hw.exists_cons
  have hnot : foldsTo x c = false := by
    by_contra hf
    exact hne (eq_of_foldsTo hx hy (by simpa using hf) hc)
  rw [keywordBlanks, List.cons_append, keyword_of_head hnot]
  rfl

theorem keywordBlanks_or (hw : IsOneOf [x :: j, y :: k] w) (hb : IsSpacing b)
    (hs : s.head?.any isBlank = false) :
    (keywordBlanks (x :: j) (w ++ (b ++ s))).or (keywordBlanks (y :: k) (w ++ (b ++ s)))
      = some s := by
  obtain ⟨l, hl, hw⟩ := hw
  rcases List.mem_cons.1 hl with rfl | hl
  · rw [keywordBlanks_of_spacing hw hb hs]
    rfl
  · obtain rfl := List.mem_singleton.1 hl
    rw [keywordBlanks_of_other hx hy hne hw, keywordBlanks_of_spacing hw hb hs]
    rfl

end

section
variable {key : Text} (hkey : IsOneOf ["KEY".toList, "INDEX".toList] key)
include hkey

theorem keyOrIndex_of_spacing {b s : Text} (hb : IsSpacing b) (hs : s.head?.any isBlank = false) :
    keyOrIndex (key ++ (b ++ s)) = some s :=
  keywordBlanks_or (x := 'K') (y := 'I') (by decide) (by decide) (by decide) hkey hb hs

theorem optional_indexClass {cls : Text} (hc : IsClassPart cls) (s : Text) :
    Text.optional indexClass (cls ++ (key ++ s)) = key ++ s := by
  rcases hc with rfl | ⟨w, b, rfl, hw, hb⟩
  · have hnone : indexClass (key ++ s) = none := by
      obtain ⟨c, n, rfl, x, hx, hc⟩ := hkey.exists_cons (by decide)
      have hF : foldsTo 'F' c = false := not_foldsTo_of_head hx hc (by decide) (by decide)
      have hS : foldsTo 'S' c = false := not_foldsTo_of_head hx hc (by decide) (by decide)
      rw [indexClass, keywordBlanks, keywordBlanks, show "FULLTEXT".toList = 'F' :: "ULLTEXT".toList from rfl,
        show "SPATIAL".toList = 'S' :: "PATIAL".toList from rfl, List.cons_append,
        keyword_of_head hF, keyword_of_head hS]
      rfl
    rw [List.nil_append, Text.optional, hnone]
    rfl
  · have hword := hkey.isWord (by decide)
    have hsome : indexClass (w ++ (b ++ (key ++ s))) = some (key ++ s) :=
      keywordBlanks_or (x := 'F') (y := 'S') (by decide) (by decide) (by decide) hw hb
        (head?_not_blank hword.1 hword.2)
    rw [List.append_assoc, Text.optional, hsome]
    rfl

theorem keyOrIndex_of_parenthesis (s : Text) : keyOrIndex (key ++ '(' :: s) = none := by
  have hnone : ∀ {k : Text}, IsKeyword k key → keywordBlanks k (key ++ '(' :: s) = none := by
    intro k hw
    rw [keywordBlanks, Script.keyword_append_of_folds hw]
    rfl
  obtain ⟨k, hk, hw⟩ := hkey
  rw [keyOrIndex]
  rcases List.mem_cons.1 hk with rfl | hk
  · rw [hnone hw]
    exact keywordBlanks_of_other (x := 'I') (y := 'K') (by decide) (by decide) (by decide) hw _
  · obtain rfl := List.mem_singleton.1 hk
    have hother := keywordBlanks_of_other (x := 'K') (j := "EY".toList) (y := 'I') (by decide)
      (by decide) (by decide) hw ('(' :: s)
    rw [hnone hw]
    exact (Option.or_none).trans hother

theorem inlineIndexName?_of_spacing {cls b s : Text} (hc : IsClassPart cls) (hb : IsSpacing b)
    (hs : s.head?.any isBlank = false) :
    inlineIndexName? (cls ++ (key ++ (b ++ s)))
      = (read indexName s).bind fun r => (char '(' (blanks r.2)).map fun _ => r.1 := by
  rw [inlineIndexName?, optional_indexClass hkey hc, keyOrIndex_of_spacing hkey hb hs,
    Option.bind_eq_bind, Option.bind_some]
  refine congrArg (Option.bind (read indexName s)) (funext fun r => ?_)
  obtain ⟨name, rest⟩ := r
  simp only
  cases char '(' (blanks rest) <;> rfl

end

/-! ## Names -/

namespace IndexName

variable {n : IndexName} (hn : n.IsName)
include hn

theorem head (s : Text) : (n.spelled ++ s).head?.any isBlank = false := by
  cases n with
  | bare name => exact head?_not_blank hn.1 hn.2
  | quoted name => rfl

theorem read_indexName {s : Text} (hs : wordEnds s = true) :
    read indexName (n.spelled ++ s) = some (n.spelled, s) := by
  refine read_of_append ?_
  cases n with
  | bare name =>
    have hword : word (name ++ s) = some s := many1_append hn.1 hn.2 (by simpa [wordEnds] using hs)
    obtain ⟨c, cs, rfl⟩ := List.exists_cons_of_ne_nil hn.1
    have hc : c ≠ '"' := by
      rintro rfl
      exact Bool.false_ne_true ((not_isWord_of_isAscii (by decide)).symm.trans (hn.2 '"' (by simp)))
    rw [spelled, indexName, List.cons_append, quotedBy_of_ne hc, ← List.cons_append, hword]
    rfl
  | quoted name =>
    have hquoted : quotedBy '"' ('"' :: name ++ '"' :: s) = some s := quotedBy_append hn.1 hn.2
    rw [spelled, indexName]
    simp only [List.cons_append, List.append_assoc, List.nil_append] at hquoted ⊢
    rw [hquoted]
    rfl

omit hn in
theorem ofName?_upper_spelled :
    (MysqlType.ofName? (upper n.spelled)).isNone = !n.isType := by
  cases n with
  | bare name =>
    simp only [spelled, isType, Dialect.hasTypeKeyword]
    cases MysqlType.ofName? (upper name) <;> rfl
  | quoted name =>
    have hnone : MysqlType.ofName? (upper (quoted name).spelled) = none := by
      refine Option.eq_none_iff_forall_ne_some.2 fun t ht => ?_
      have hname := MysqlType.name_of_ofName? ht
      have hquote : t.name.head? ≠ some '"' := by cases t <;> decide
      rw [hname] at hquote
      exact hquote rfl
    rw [hnone]
    rfl

end IndexName

/-! ## Lines -/

theorem inlineIndexName?_of_name {cls key b s : Text} {n : IndexName} (hc : IsClassPart cls)
    (hkey : IsOneOf ["KEY".toList, "INDEX".toList] key) (hb : IsSpacing b) (hn : n.IsName)
    (hs : wordEnds s = true) :
    inlineIndexName? (cls ++ (key ++ (b ++ (n.spelled ++ s))))
      = (char '(' (blanks s)).map fun _ => n.spelled := by
  rw [inlineIndexName?_of_spacing hkey hc hb (IndexName.head hn s), IndexName.read_indexName hn hs,
    Option.bind_some]

theorem char_blanks_of_word {b w : Text} (hb : IsSpacing b) (hne : w ≠ [])
    (hw : ∀ c ∈ w, isWord c = true) (s : Text) : char '(' (blanks (b ++ (w ++ s))) = none := by
  rw [blanks_append hb.2 (head?_not_blank hne hw)]
  obtain ⟨c, n, rfl⟩ := List.exists_cons_of_ne_nil hne
  have hc : c ≠ '(' := by
    rintro rfl
    exact Bool.false_ne_true ((not_isWord_of_isAscii (by decide)).symm.trans (hw '(' (by simp)))
  simp [char, hc]

section
variable {name? : Option IndexName} {hasMethod : Bool} {line : Text}

section
variable {cls key name : Text} (hc : IsClassPart cls)
variable (hkey : IsOneOf ["KEY".toList, "INDEX".toList] key) (hname : IsNamePart name? name)
include hc hkey hname

/-- A name is read where the list follows it. -/
theorem inlineIndexName?_of_list {b : Text} (hb : ∀ c ∈ b, isBlank c = true) (columns : Text) :
    inlineIndexName? (cls ++ (key ++ (name ++ (b ++ '(' :: columns))))
      = name?.map IndexName.spelled := by
  have hparen : isWord '(' = false := not_isWord_of_isAscii (by decide)
  cases name? with
  | some n =>
    obtain ⟨hn, b', hb', rfl⟩ := hname
    have hopen : char '(' (blanks (b ++ '(' :: columns)) = some columns := by
      rw [blanks_append hb rfl]
      rfl
    have hends : wordEnds (b ++ '(' :: columns) = true := by
      by_cases hnil : b = []
      · subst hnil
        simp [wordEnds, hparen]
      · exact wordEnds_of_spacing ⟨hnil, hb⟩ _
    rw [List.append_assoc b', inlineIndexName?_of_name hc hkey hb' hn hends, hopen]
    rfl
  | none =>
    obtain rfl : name = [] := hname
    rw [List.nil_append]
    by_cases hnil : b = []
    · subst hnil
      rw [List.nil_append, inlineIndexName?, optional_indexClass hkey hc]
      simp only
      rw [keyOrIndex_of_parenthesis hkey]
      rfl
    · have hnone : read indexName ('(' :: columns) = none := by
        rw [Text.read, indexName, quotedBy_of_ne (by decide)]
        simp [word, many1, hparen]
      rw [inlineIndexName?_of_spacing hkey hc ⟨hnil, hb⟩ rfl, hnone]
      rfl

/-- Before a method no name is read. Without a name the method is where it should be, and no list
follows it. -/
theorem inlineIndexName?_of_method {method : Text} (hmethod : IsMethodPart true method) (s : Text) :
    inlineIndexName? (cls ++ (key ++ (name ++ (method ++ s)))) = none := by
  obtain ⟨b₁, u, b₂, w, hb₁, hu, hb₂, hw, rfl⟩ := hmethod
  obtain ⟨hune, huword⟩ := IsOneOf.isWord ⟨_, List.mem_singleton_self _, hu⟩ (by decide)
  obtain ⟨hwne, hwword⟩ := hw.isWord (by decide)
  cases name? with
  | some n =>
    obtain ⟨hn, b', hb', rfl⟩ := hname
    have hshape : cls ++ (key ++ (b' ++ n.spelled ++ (b₁ ++ (u ++ (b₂ ++ w)) ++ s)))
        = cls ++ (key ++ (b' ++ (n.spelled ++ (b₁ ++ (u ++ (b₂ ++ w ++ s)))))) := by
      simp
    rw [hshape, inlineIndexName?_of_name hc hkey hb' hn (wordEnds_of_spacing hb₁ _),
      char_blanks_of_word hb₁ hune huword]
    rfl
  | none =>
    obtain rfl : name = [] := hname
    have hn : (IndexName.bare u).IsName := ⟨hune, huword⟩
    have hshape : cls ++ (key ++ ([] ++ (b₁ ++ (u ++ (b₂ ++ w)) ++ s)))
        = cls ++ (key ++ (b₁ ++ ((IndexName.bare u).spelled ++ (b₂ ++ (w ++ s))))) := by
      simp [IndexName.spelled]
    rw [hshape, inlineIndexName?_of_name hc hkey hb₁ hn (wordEnds_of_spacing hb₂ _),
      char_blanks_of_word hb₂ hwne hwword]
    rfl

end

theorem inlineIndexName?_of_isIndexLine (h : IsIndexLine name? hasMethod line) :
    inlineIndexName? line = if hasMethod then none else name?.map IndexName.spelled := by
  obtain ⟨cls, key, name, method, b, columns, rfl, hc, hkey, hname, hmethod, hb⟩ := h
  cases hasMethod with
  | false =>
    obtain rfl : method = [] := hmethod
    exact inlineIndexName?_of_list hc hkey hname hb columns
  | true => exact inlineIndexName?_of_method hc hkey hname hmethod _

/-- An index is found if it has a name that is no type, and no method. -/
def IsFound (name? : Option IndexName) (hasMethod : Bool) : Prop :=
  hasMethod = false ∧ ∃ n, name? = some n ∧ n.isType = false

theorem isInlineIndex_iff (h : IsIndexLine name? hasMethod line) :
    isInlineIndex line = true ↔ IsFound name? hasMethod := by
  rw [isInlineIndex, inlineIndexName?_of_isIndexLine h, IsFound]
  cases hasMethod with
  | true => simp
  | false =>
    cases name? with
    | none => simp
    | some n => simp [IndexName.ofName?_upper_spelled]

/-- Whatever follows the type, no index is found. -/
theorem isInlineIndex_of_isKeyColumn {key gap type : Text} (h : IsKeyColumn key gap type line) :
    isInlineIndex line = false := by
  obtain ⟨hkey, hgap, htype, rest, rfl, hends⟩ := h
  obtain ⟨hne, ha, -⟩ := Dialect.hasTypeKeyword_spec htype
  have hn : (IndexName.bare type).IsName :=
    ⟨hne, fun c hc => isWord_of_ascii (isMarkerChar_of_isAlpha (ha c hc))⟩
  have hcls : IsClassPart [] := Or.inl rfl
  have hname := inlineIndexName?_of_name hcls hkey hgap hn hends
  have htype' : (MysqlType.ofName? (upper (IndexName.bare type).spelled)).isNone = false := by
    rw [IndexName.ofName?_upper_spelled, IndexName.isType, htype]
    rfl
  rw [List.nil_append] at hname
  rw [isInlineIndex, show type ++ rest = (IndexName.bare type).spelled ++ rest from rfl, hname]
  cases char '(' (blanks rest) with
  | none => rfl
  | some r => exact htype'

end

/-! ## Lines that stay -/

/-- No reader that starts with one of the words `ks` goes past blanks to another word. -/
theorem reads_none_of_head {α : Type} {ks : List Text} {f : Reader α} (hf : StartsWith ks f) {c : Char}
    (hb : isBlank c = false) (hc : ∀ k ∈ ks, ∃ x l, k = x :: l ∧ foldsTo x c = false)
    (prev : Option Char) {b : Text} (hblank : ∀ x ∈ b, isBlank x = true) (s : Text) :
    f prev (b ++ c :: s) = none := by
  refine Option.eq_none_iff_forall_ne_some.2 fun a ha => ?_
  obtain ⟨-, k, hk, hread⟩ := hf ha
  obtain ⟨x, l, rfl, hx⟩ := hc k hk
  rw [blanks_append hblank (by simpa using hb), keywordEnd, keyword_of_head hx] at hread
  cases hread

theorem passes_gap_of_head {α : Type} {ks : List Text} {f : Reader α} (hf : StartsWith ks f) {c : Char}
    (hb : isBlank c = false) (hc : ∀ k ∈ ks, ∃ x l, k = x :: l ∧ foldsTo x c = false)
    (prev : Option Char) {b : Text} (hblank : ∀ x ∈ b, isBlank x = true) (s : Text) :
    Passes f prev b (c :: s) := by
  intro a b' hab _
  exact reads_none_of_head hf hb hc _ (fun x hx => hblank x (by simp [hab, hx])) s

theorem passes_word_of_head {α : Type} {ks : List Text} {f : Reader α} (hf : StartsWith ks f)
    {c : Char} {w : Text} (hw : ∀ x ∈ c :: w, isWord x = true)
    (hc : ∀ k ∈ ks, ∃ x l, k = x :: l ∧ foldsTo x c = false) (prev : Option Char) (s : Text) :
    Passes f prev (c :: w) s := by
  have hb := isBlank_of_mem_name hw c (by simp)
  exact passes_name hw prev (fun h => (hf h).1)
    fun prev => reads_none_of_head hf hb hc prev (b := []) (by simp) (w ++ s)

/-- What no marker and no key starts in stays at the start of a line. -/
theorem exists_respelled_append {d : Direction} {p u : Text}
    (hm : Passes (spacedMarker d.source.marker) none p u)
    (hk : ∀ v, Passes primaryKey none p v) :
    ∃ v, (respellMarker d (p ++ u)).getD (p ++ u) = p ++ v := by
  have herase := eraseFrom_append hm
  simp only [respellMarker]
  split
  · rw [Option.getD_some, eraseAll, herase]
    generalize eraseFrom (spacedMarker d.source.marker) (p.getLast?.or none) 0 u = e
    split
    · rw [replaceFirst, find_append (hk e)]
      cases find primaryKey (p.getLast?.or none) e with
      | none => exact ⟨e, rfl⟩
      | some r => exact ⟨r.1 ++ keyPhrase d ++ r.2, by simp⟩
    · exact ⟨e ++ ' ' :: keyPhrase d, by simp⟩
  · exact ⟨u, rfl⟩

theorem exists_convertType_cons (m : TypeMap) (d : Direction) (table? : Option Text) {c : Char}
    (hb : isBlank c = false) (u : Text) : ∃ v, (convertType m d table? (c :: u)).line = c :: v := by
  obtain hsame | ⟨lead, s, t, mapping, -, htyped, -, hold, hnew⟩ :=
    line_convertType_cases m d table? (c :: u)
  · exact ⟨u, hsame⟩
  · obtain ⟨hgap, hblanks⟩ := gap_of_typedName htyped
    -- The line does not start with the gap, so there is something before it.
    cases hlead : lead ++ t.name with
    | nil =>
      obtain ⟨x, g, hg⟩ := List.exists_cons_of_ne_nil hgap
      rw [hlead, List.nil_append, hg] at hold
      obtain ⟨rfl, -⟩ := List.cons.inj hold
      rw [hblanks c (by simp [hg])] at hb
      cases hb
    | cons x lead' =>
      rw [hlead] at hold hnew
      obtain ⟨rfl, -⟩ := List.cons.inj hold
      exact ⟨_, hnew⟩

/-- The first character of a line stays if it is not blank and begins none of the words that are
searched. -/
theorem exists_rewritten_cons (m : TypeMap) {c : Char} (hb : isBlank c = false)
    (hU : foldsTo 'U' c = false) (hA : foldsTo 'A' c = false) (hP : foldsTo 'P' c = false) (u : Text) :
    ∃ v, rewritten m .mysqlToSqlite (c :: u) = c :: v := by
  have hunique : withoutUniqueName (c :: u) = c :: u := by
    rw [withoutUniqueName, uniqueKey, keywordBlanks, show "UNIQUE".toList = 'U' :: "NIQUE".toList from rfl,
      keyword_of_head hU]
    rfl
  have herase : ∀ {f : Scanner}, (∀ s, f (c :: s) = none) → ∀ u,
      ∃ v, eraseAll (anywhere f) (c :: u) = c :: v :=
    fun hf u => ⟨_, eraseFrom_append (s := [c]) (.cons (hf u) (.nil _ _))⟩
  obtain ⟨u₁, h₁⟩ := herase (f := onUpdate) (fun s => by simp [onUpdate, blanks1_of_not_blank hb]) u
  obtain ⟨u₂, h₂⟩ := herase (f := commentClause)
    (fun s => by simp [commentClause, blanks1_of_not_blank hb]) u₁
  obtain ⟨u₃, h₃⟩ := herase (f := typeAttribute)
    (fun s => by simp [typeAttribute, blanks1_of_not_blank hb]) u₂
  have hcleaned : cleaned .mysqlToSqlite (c :: u) = c :: u₃ := by
    simp only [cleaned, withoutAttributes, hunique, h₁, h₂, h₃]
  obtain ⟨v, hv⟩ := exists_convertType_cons m .mysqlToSqlite none hb u₃
  have hmarker := reads_none_of_head (startsWith_spacedMarker Dialect.mysql.marker) hb
    (fun k hk => ⟨'A', _, List.mem_singleton.1 hk, hA⟩) none (b := []) (by simp)
  have hkey := reads_none_of_head startsWith_primaryKey hb
    (fun k hk => ⟨'P', _, List.mem_singleton.1 hk, hP⟩) none (b := []) (by simp)
  rw [rewritten, retyped, hcleaned, hv]
  exact exists_respelled_append (p := [c]) (.cons (hmarker v) (.nil _ _))
    fun w => .cons (hkey w) (.nil _ _)

theorem keyClauseColumns?_of_head {c : Char} (h : foldsTo 'P' c = false) (s : Text) :
    keyClauseColumns? (c :: s) = none := by
  rw [keyClauseColumns?, keywordBlanks, show "PRIMARY".toList = 'P' :: "RIMARY".toList from rfl,
    keyword_of_head h]
  rfl

theorem keyClauseColumns?_of_isOneOf (m : TypeMap) {ks : List Text} {w : Text} (hw : IsOneOf ks w)
    (hk : ∀ k ∈ ks, k ≠ [] ∧ ∀ c ∈ k, Dialect.isMarkerChar c = true)
    (hhead : ∀ y ∈ ['U', 'A', 'P'], ∀ x ∈ ks.filterMap List.head?, x.toNat < 128 ∧ y ≠ x) (s : Text) :
    keyClauseColumns? (rewritten m .mysqlToSqlite (w ++ s)) = none := by
  have hword := hw.isWord hk
  obtain ⟨c, n, rfl, x, hx, hc⟩ := hw.exists_cons hk
  have hascii : ∀ y ∈ ['U', 'A', 'P'], y.toNat < 128 := by decide
  have hother : ∀ y ∈ ['U', 'A', 'P'], foldsTo y c = false := fun y hy =>
    not_foldsTo_of_head hx hc (hhead y hy) (hascii y hy)
  obtain ⟨v, hv⟩ := exists_rewritten_cons m (isBlank_of_mem_name hword.2 c (by simp))
    (hother 'U' (by simp)) (hother 'A' (by simp)) (hother 'P' (by simp)) (n ++ s)
  rw [List.cons_append, hv]
  exact keyClauseColumns?_of_head (hother 'P' (by simp)) v

theorem keyClauseColumns?_of_isIndexLine (m : TypeMap) {name? : Option IndexName} {hasMethod : Bool}
    {line : Text} (h : IsIndexLine name? hasMethod line) :
    keyClauseColumns? (rewritten m .mysqlToSqlite line) = none := by
  obtain ⟨cls, key, name, method, b, columns, rfl, hcls, hkey, -⟩ := h
  rcases hcls with rfl | ⟨w, g, rfl, hw, -⟩
  · rw [List.nil_append]
    exact keyClauseColumns?_of_isOneOf m hkey (by decide) (by decide) _
  · rw [List.append_assoc]
    exact keyClauseColumns?_of_isOneOf m hw (by decide) (by decide) _

theorem keyClauseColumns?_of_isKeyColumn (m : TypeMap) {key gap type line : Text}
    (h : IsKeyColumn key gap type line) :
    keyClauseColumns? (rewritten m .mysqlToSqlite line) = none := by
  obtain ⟨hkey, -, -, rest, rfl, -⟩ := h
  exact keyClauseColumns?_of_isOneOf m hkey (by decide) (by decide) _

/-! ## Columns named like a key -/

theorem ofDeclared?_of_letters (m : TypeMap) {w u : Text} {t : MysqlType}
    (ht : MysqlType.ofName? (upper w) = some t) (ha : ∀ c ∈ w, c.isAlpha = true) (hne : w ≠ [])
    (hu : u.head?.any Char.isAlpha = false) :
    ∃ lossy, m.ofDeclared? .mysqlToSqlite (w ++ u) = some ⟨t.toSqlite.name, lossy⟩ := by
  rw [TypeMap.ofDeclared?, declaredKeyword?_append hne ha hu]
  simp [TypeMap.ofKeyword?, ht]

theorem head_of_storageClass (c : StorageClass) :
    ∃ x w, c.name = x :: w ∧ (∀ y ∈ x :: w, isWord y = true) ∧ foldsTo 'A' x = false
      ∧ foldsTo 'P' x = false := by
  have hall : ∀ w : Text, w.all isAsciiWord = true → ∀ y ∈ w, isWord y = true :=
    fun w hw y hy => isWord_of_ascii (List.all_eq_true.1 hw y hy)
  cases c
  · exact ⟨_, _, rfl, hall _ (by decide), by decide, by decide⟩
  · exact ⟨_, _, rfl, hall _ (by decide), by decide, by decide⟩
  · exact ⟨_, _, rfl, hall _ (by decide), by decide, by decide⟩
  · exact ⟨_, _, rfl, hall _ (by decide), by decide, by decide⟩
  · exact ⟨_, _, rfl, hall _ (by decide), by decide, by decide⟩

/-- A column named like a key keeps its name, and gets its type, if its type is a word still once
the attributes are out. -/
theorem exists_rewritten_of_isKeyColumn (m : TypeMap) {key gap type line : Text}
    (h : IsKeyColumn key gap type line) {t : MysqlType} (ht : MysqlType.ofName? (upper type) = some t)
    {tail : Text} (hcleaned : cleaned .mysqlToSqlite line = key ++ (gap ++ (type ++ tail)))
    (htail : wordEnds tail = true) :
    ∃ rest, rewritten m .mysqlToSqlite line = key ++ (gap ++ (t.toSqlite.name ++ rest)) := by
  obtain ⟨hkey, hgap, htype, -⟩ := h
  obtain ⟨hne, ha, -⟩ := Dialect.hasTypeKeyword_spec htype
  have hword := hkey.isWord (by decide)
  have hletters := not_isAlpha_of_wordEnds htail
  have htyped := typedName?_blanks hword.1 hword.2 hgap.1 hgap.2 hne ha hletters
  have hsize : (before tail (Text.optional sizeAfterBlanks tail)).head?.any Char.isAlpha = false := by
    rw [before]
    cases tail.length - (Text.optional sizeAfterBlanks tail).length with
    | zero => rfl
    | succ n => rwa [List.head?_take, if_neg (Nat.succ_ne_zero n)]
  obtain ⟨lossy, hmapping⟩ := ofDeclared?_of_letters m ht ha hne hsize
  obtain ⟨x, w, htarget, hw, hA, hP⟩ := head_of_storageClass t.toSqlite
  have hretyped : retyped m .mysqlToSqlite line
      = key ++ (gap ++ x :: w) ++ Text.optional sizeAfterBlanks tail := by
    rw [retyped, hcleaned, convertType, htyped]
    simp only [TypedName.declaredType, hmapping]
    simp [htarget]
  obtain ⟨c, n, rfl, y, hy, hc⟩ := hkey.exists_cons (by decide)
  have hA' : foldsTo 'A' c = false := not_foldsTo_of_head hy hc (by decide) (by decide)
  have hP' : foldsTo 'P' c = false := not_foldsTo_of_head hy hc (by decide) (by decide)
  have hpass : ∀ {f : Reader Text} {k : Char} {l : Text}, StartsWith [k :: l] f →
      foldsTo k c = false → foldsTo k x = false →
      ∀ v, Passes f none (c :: n ++ (gap ++ x :: w)) v := by
    intro f k l hf hkc hkx v
    have hbx := isBlank_of_mem_name hw x (by simp)
    refine .append (passes_word_of_head hf hword.2 (by simpa using hkc) none _)
      (.append (passes_gap_of_head hf hbx (by simpa using hkx) _ hgap.2 _)
        (passes_word_of_head hf hw (by simpa using hkx) _ v))
  obtain ⟨rest, hrest⟩ := exists_respelled_append (d := .mysqlToSqlite) (u := Text.optional sizeAfterBlanks tail)
    (hpass (startsWith_spacedMarker Dialect.mysql.marker) hA' hA _) (hpass startsWith_primaryKey hP' hP)
  refine ⟨rest, ?_⟩
  rw [rewritten, hretyped, hrest, htarget]
  simp

end SchemaDialects.Definition
