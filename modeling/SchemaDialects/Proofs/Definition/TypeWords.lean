import SchemaDialects.Proofs.Definition.LeadingName

/-!
# Words of types

A type is looked up by its leading letters, although its word may go on with digits and
underscores. A word whose letters are no keyword passes, with its size, through all that is
done to the line, if it is not itself one of the words that lines are searched for.
-/

namespace SchemaDialects

open Text
open Dialect (isMarkerChar)

/-- A word that starts with a letter. -/
structure IsTypeWord (w : Text) : Prop where
  letter : w.head?.any Char.isAlpha = true
  chars : ∀ c ∈ w, isMarkerChar c = true

/-- What a type word is looked up by. -/
def typeLetters (w : Text) : Text := w.takeWhile Char.isAlpha

theorem isAlpha_of_mem_typeLetters {w : Text} : ∀ c ∈ typeLetters w, c.isAlpha = true :=
  fun _ hc => List.mem_takeWhile_imp hc

theorem exists_typeLetters {w r : Text} (hr : r.head?.any Char.isAlpha = false) :
    ∃ u, w ++ r = typeLetters w ++ u ∧ u.head?.any Char.isAlpha = false := by
  refine ⟨w.dropWhile Char.isAlpha ++ r, ?_, ?_⟩
  · rw [← List.append_assoc, typeLetters, List.takeWhile_append_dropWhile]
  · cases hd : w.dropWhile Char.isAlpha with
    | nil => exact hr
    | cons c u =>
      have hc := List.head_dropWhile_not (p := Char.isAlpha) (l := w) (by simp [hd])
      simpa [hd] using hc

theorem not_isAlpha_of_wordEnds {s : Text} (h : wordEnds s = true) :
    s.head?.any Char.isAlpha = false := by
  cases s with
  | nil => rfl
  | cons c s =>
    by_contra hc
    have hword := isWord_of_ascii (isMarkerChar_of_isAlpha (c := c) (by simpa using hc))
    simp [wordEnds, hword] at h

namespace IsTypeWord

variable {w : Text} (hw : IsTypeWord w)
include hw

theorem ne_nil : w ≠ [] := by
  rintro rfl
  cases hw.letter

theorem typeLetters_ne_nil : typeLetters w ≠ [] := by
  obtain ⟨c, w, rfl⟩ := List.exists_cons_of_ne_nil hw.ne_nil
  have hc : c.isAlpha = true := hw.letter
  simp [typeLetters, hc]

theorem isWord : ∀ c ∈ w, isWord c = true := fun c hc => isWord_of_ascii (hw.chars c hc)

theorem not_blank : ∀ c ∈ w, isBlank c = false :=
  fun c hc => isBlank_of_isMarkerChar (hw.chars c hc)

theorem blanks_append (r : Text) : blanks (w ++ r) = w ++ r := by
  obtain ⟨c, w, rfl⟩ := List.exists_cons_of_ne_nil hw.ne_nil
  exact trimStart_eq_self (by simpa using hw.not_blank c (by simp))

end IsTypeWord

/-! ## The map -/

namespace TypeMap

variable (m : TypeMap) (d : Direction)

theorem ofDeclared?_eq_none_iff {w u : Text} (hne : w ≠ []) (ha : ∀ c ∈ w, c.isAlpha = true)
    (hu : u.head?.any Char.isAlpha = false) :
    m.ofDeclared? d (w ++ u) = none ↔ d.source.hasTypeKeyword w = false := by
  rw [← m.isSome_ofKeyword? d, ofDeclared?, Definition.declaredKeyword?_append hne ha hu]
  cases hk : m.ofKeyword? d (upper w) <;> simp [hk]

theorem target_of_ofDeclared?_eq_none {declared : Text} (h : m.ofDeclared? d declared = none) :
    m.target d declared = declared := by
  rw [target, h]
  rfl

end TypeMap

namespace Definition

/-! ## Places in a line -/

/-- A word with its size stands behind a blank, and there it ends. -/
def TypedAs (lead w size line : Text) : Prop :=
  ∃ rest, line = lead ++ ' ' :: (w ++ (size ++ rest)) ∧ wordEnds (size ++ rest) = true

/-- No word goes on behind what `f` reads in `s`. -/
def EndsWords (f : Scanner) (s : Text) : Prop :=
  ∀ a b rest, s = a ++ b → f b = some rest → wordEnds rest = true

theorem endsWords_iff (f : Scanner) (s : Text) :
    EndsWords f s ↔ ∀ n ∈ List.range (s.length + 1), (f (s.drop n)).all wordEnds = true := by
  rw [← forall_places_iff (P := fun _ b => (f b).all wordEnds = true)]
  simp only [EndsWords, Option.all_eq_true]
  exact forall₂_congr fun a b => forall_comm

instance (f : Scanner) (s : Text) : Decidable (EndsWords f s) :=
  decidable_of_iff _ (endsWords_iff f s).symm

/-- Words that are searched for on their own. -/
def loneWords : Direction → List Text
  | .mysqlToSqlite => ["UNSIGNED".toList, "ZEROFILL".toList, Dialect.mysql.marker]
  | .sqliteToMysql => [Dialect.sqlite.marker]

/-- Words that are searched for with blanks and something else behind them. -/
def openingWords : Direction → List Text
  | .mysqlToSqlite =>
    ["ON".toList, "COMMENT".toList, "CHARACTER".toList, "COLLATE".toList, "PRIMARY".toList]
  | .sqliteToMysql => ["PRIMARY".toList]

/-- A bare name that is not read as a constraint keyword. -/
structure IsColumnName (name : Text) : Prop where
  ne : name ≠ []
  word : ∀ c ∈ name, isWord c = true
  not_keyword : ∀ k ∈ constraintKeywords, keyword k name ≠ some []

/-- A word of a type that no search of a line takes for its own. -/
structure IsFreeType (d : Direction) (w size : Text) : Prop where
  word : IsTypeWord w
  sized : IsSize size
  not_lone : upper w ∉ loneWords d
  not_opening : size = [] → upper w ∉ openingWords d

section
variable {w size rest : Text} (hw : IsTypeWord w) (hends : wordEnds (size ++ rest) = true)
include hw hends

omit hends in
theorem blanks1_typeWord : blanks1 (' ' :: (w ++ (size ++ rest))) = some (w ++ (size ++ rest)) := by
  refine many1_append (a := [' ']) (by simp) (by decide) ?_
  obtain ⟨c, w, rfl⟩ := List.exists_cons_of_ne_nil hw.ne_nil
  simpa using hw.not_blank c (by simp)

theorem keyword_typeWord {k r : Text} (hk : ∀ x ∈ k, isMarkerChar x = true)
    (h : keyword k (w ++ (size ++ rest)) = some r) (hr : wordEnds r = true) :
    upper w = k ∧ r = size ++ rest := by
  obtain ⟨hread, rfl⟩ := keyword_name hk hw.isWord hends h hr
  refine ⟨upper_of_keyword_eq_nil hread fun x _ c hc hf => ?_, rfl⟩
  rw [foldsTo_of_isAscii (lt_of_isMarkerChar (hw.chars c hc))] at hf
  simpa using hf

theorem keywordEnd_typeWord {k : Text} (hk : ∀ x ∈ k, isMarkerChar x = true) (hne : upper w ≠ k) :
    keywordEnd k (w ++ (size ++ rest)) = none := by
  refine Option.eq_none_iff_forall_ne_some.2 fun r hr => ?_
  exact hne (keyword_typeWord hw hends hk (keyword_of_keywordEnd hr) (wordEnds_of_keywordEnd hr)).1

theorem keywordBlanks_typeWord {k : Text} (hk : ∀ x ∈ k, isMarkerChar x = true)
    (hsize : IsSize size) (hne : size = [] → upper w ≠ k) :
    keywordBlanks k (w ++ (size ++ rest)) = none := by
  refine Option.eq_none_iff_forall_ne_some.2 fun r hr => ?_
  obtain ⟨t, ht, hb⟩ := Option.bind_eq_some_iff.1 hr
  obtain ⟨hup, rfl⟩ := keyword_typeWord hw hends hk ht (wordEnds_of_blanks1 hb)
  rcases hsize.eq_nil_or with hnil | ⟨u, rfl, -⟩
  · exact hne hnil hup
  · cases hb

end

/-! ## Nothing starts at the type -/

section
variable {d : Direction} {w size rest : Text} (h : IsFreeType d w size)
variable (hends : wordEnds (size ++ rest) = true)
include h hends

theorem clause_typeWord {k : Text} {f : Scanner} (hf : ReadsClause k f)
    (hk : ∀ x ∈ k, isMarkerChar x = true) (hopening : k ∈ openingWords d) :
    f (' ' :: (w ++ (size ++ rest))) = none := by
  obtain ⟨g, hg⟩ := hf
  have hword := keywordBlanks_typeWord h.word hends hk h.sized
    fun hnil hup => h.not_opening hnil (hup ▸ hopening)
  rw [hg, blanks1_typeWord h.word]
  simp only [Option.bind_eq_bind, Option.bind_some, hword, Option.bind_none]

theorem typeAttribute_typeWord (hd : d = .mysqlToSqlite) :
    typeAttribute (' ' :: (w ++ (size ++ rest))) = none := by
  subst hd
  have hlone {k : Text} (hk : ∀ x ∈ k, isMarkerChar x = true) (hmem : k ∈ loneWords .mysqlToSqlite) :
      keywordEnd k (w ++ (size ++ rest)) = none :=
    keywordEnd_typeWord h.word hends hk fun hup => h.not_lone (hup ▸ hmem)
  have hopening {k : Text} (hk : ∀ x ∈ k, isMarkerChar x = true)
      (hmem : k ∈ openingWords .mysqlToSqlite) : keywordBlanks k (w ++ (size ++ rest)) = none :=
    keywordBlanks_typeWord h.word hends hk h.sized fun hnil hup => h.not_opening hnil (hup ▸ hmem)
  have hunsigned := hlone (k := "UNSIGNED".toList) (by decide) (by decide)
  have hzerofill := hlone (k := "ZEROFILL".toList) (by decide) (by decide)
  have hcharacter := hopening (k := "CHARACTER".toList) (by decide) (by decide)
  have hcollate := hopening (k := "COLLATE".toList) (by decide) (by decide)
  rw [typeAttribute, blanks1_typeWord h.word]
  simp only [Option.bind_eq_bind, Option.bind_some, keywords, hunsigned, hzerofill, hcharacter,
    hcollate, Option.bind_none, Option.or_none]

omit hends in
theorem not_blank_type : ∀ c ∈ w ++ size, isBlank c = false := by
  intro c hc
  rcases List.mem_append.1 hc with hc | hc
  · exact h.word.not_blank c hc
  · rcases h.sized.eq_nil_or with rfl | ⟨u, rfl, hu⟩
    · cases hc
    · exact isBlank_of_isAtomChar (isAtomChar_of_isNumericChar (isNumericChar_of_size hu c hc))

end

theorem wordEnds_size {size rest : Text} (hsize : IsSize size)
    (h : size = [] → wordEnds rest = true) : wordEnds (size ++ rest) = true := by
  rcases hsize.eq_nil_or with rfl | ⟨u, rfl, -⟩
  · exact h rfl
  · exact wordEnds_of_isAscii (by decide) _

/-! ## Attributes -/

theorem typedAs_eraseAttribute {d : Direction} {lead w size line : Text} {f : Scanner}
    (h : IsFreeType d w size) (hlead : ∀ c ∈ lead, isBlank c = false)
    (hreads : ReadsAttribute attributeWords f)
    (htakes : ∀ {t r}, f t = some r → ∃ m, t = m ++ r ∧ m ≠ [])
    (hnone : ∀ rest, wordEnds (size ++ rest) = true → f (' ' :: (w ++ (size ++ rest))) = none)
    (hends : size = [] → EndsWords f line) (hline : TypedAs lead w size line) :
    TypedAs lead w size (eraseAll (anywhere f) line) := by
  obtain ⟨rest, rfl, hrest⟩ := hline
  have hpass : Passes (anywhere f) none (lead ++ ' ' :: (w ++ size)) rest := by
    refine .append (hreads.passes_of_no_blank hlead none _) (.cons ?_ ?_)
    · rw [List.append_assoc]
      exact hnone rest hrest
    · exact hreads.passes_of_no_blank (not_blank_type h) _ rest
  refine ⟨eraseFrom (anywhere f) ((lead ++ ' ' :: (w ++ size)).getLast?.or none) 0 rest, ?_, ?_⟩
  · have herase := eraseFrom_append hpass
    simpa [eraseAll] using herase
  · refine wordEnds_size h.sized fun hnil => ?_
    refine eraseFrom_wordEnds (n := 0) htakes (fun {_ t r} ht hr => ?_) (by simpa [hnil] using hrest) _
    obtain ⟨a, rfl⟩ := ht
    exact hends hnil (lead ++ ' ' :: (w ++ (size ++ a))) t r (by simp) hr

theorem literalRest_suffix : Scanner.LeavesSuffix literalRest := by
  intro s rest h
  fun_induction literalRest s with
  | case1 s ih =>
    rcases Option.or_eq_some_iff.1 h with h | ⟨-, h⟩
    · exact (ih h).trans (List.suffix_append ['\'', '\''] s)
    · rw [← Option.some.inj h]
      exact List.suffix_cons _ _
  | case2 s _ =>
    rw [← Option.some.inj h]
    exact List.suffix_cons _ _
  | case3 => cases h
  | case4 c s _ ih => exact (ih h).trans (List.suffix_append ['\\', c] s)
  | case5 => cases h
  | case6 c s _ _ _ _ ih => exact (ih h).trans (List.suffix_cons c s)
  | case7 => cases h

theorem wordEnds_of_word {s r : Text} (h : word s = some r) : wordEnds r = true := by
  cases s with
  | nil => cases h
  | cons c s =>
    rw [word, many1] at h
    split at h
    · obtain rfl := Option.some.inj h
      have := List.head?_dropWhile_not isWord s
      cases hd : s.dropWhile isWord with
      | nil => rfl
      | cons x u => simpa [wordEnds, hd] using this
    · cases h

theorem endsWords_typeAttribute (s : Text) : EndsWords typeAttribute s := by
  intro a b rest _ h
  obtain ⟨t, -, h⟩ := Option.bind_eq_some_iff.1 h
  rcases Option.or_eq_some_iff.1 h with h | ⟨-, h⟩
  · rcases Option.or_eq_some_iff.1 h with h | ⟨-, h⟩
    · exact wordEnds_of_keywordEnd h
    · exact wordEnds_of_keywordEnd h
  · rcases Option.or_eq_some_iff.1 h with h | ⟨-, h⟩
    · obtain ⟨u, -, h⟩ := Option.bind_eq_some_iff.1 h
      exact wordEnds_of_word h
    · obtain ⟨u, -, h⟩ := Option.bind_eq_some_iff.1 h
      exact wordEnds_of_word h

/-! ## The name -/

namespace IsColumnName

variable {name : Text} (h : IsColumnName name)
include h

theorem isConstraintKeyword : isConstraintKeyword name = false := by
  have hup : ∀ k ∈ constraintKeywords, upper k = k := by decide
  rw [Definition.isConstraintKeyword, List.any_eq_false]
  intro k hk hsame
  rw [sameUpToCase, hup k hk, beq_iff_eq] at hsame
  have hread := keyword_append hsame.symm []
  rw [List.append_nil] at hread
  exact h.not_keyword k hk hread

theorem keywordBlanks {k rest : Text} (hk : k ∈ constraintKeywords)
    (hrest : wordEnds rest = true) : keywordBlanks k (name ++ rest) = none := by
  have hchars : ∀ k ∈ constraintKeywords, ∀ x ∈ k, isMarkerChar x = true := by decide
  refine Option.eq_none_iff_forall_ne_some.2 fun r hr => ?_
  obtain ⟨t, ht, hb⟩ := Option.bind_eq_some_iff.1 hr
  exact h.not_keyword k hk
    (keyword_name (hchars k hk) h.word hrest ht (wordEnds_of_blanks1 hb)).1

theorem isDropped {rest : Text} (hrest : wordEnds rest = true) (d : Direction) :
    isDropped d (name ++ rest) = false := by
  cases d with
  | sqliteToMysql => rfl
  | mysqlToSqlite =>
    have hclass : Text.optional indexClass (name ++ rest) = name ++ rest := by
      rw [Text.optional, indexClass, h.keywordBlanks (by decide) hrest,
        h.keywordBlanks (by decide) hrest]
      rfl
    rw [Definition.isDropped, isInlineIndex, inlineIndexName?, hclass, keyOrIndex,
      h.keywordBlanks (by decide) hrest, h.keywordBlanks (by decide) hrest]
    rfl

theorem withoutUniqueName {rest : Text} (hrest : wordEnds rest = true) :
    withoutUniqueName (name ++ rest) = name ++ rest := by
  rw [Definition.withoutUniqueName, uniqueKey, h.keywordBlanks (by decide) hrest]
  rfl

theorem keyClauseColumns? {rest : Text} (hrest : wordEnds rest = true) :
    keyClauseColumns? (name ++ rest) = none := by
  rw [Definition.keyClauseColumns?, h.keywordBlanks (by decide) hrest]
  rfl

end IsColumnName

/-! ## The column -/

/-- A column definition: a name, one blank, and a word for its type. Going to SQLite no word
goes on behind a clause that is taken out with its last character, unless the type has a
size. -/
structure DefinesColumn (d : Direction) (name w size line : Text) : Prop where
  named : IsColumnName name
  free : IsFreeType d w size
  typed : TypedAs name w size line
  updates : d = .mysqlToSqlite → size = [] → EndsWords onUpdate line
  comments : d = .mysqlToSqlite → size = [] →
    EndsWords commentClause (eraseAll (anywhere onUpdate) line)

namespace DefinesColumn

variable {d : Direction} {name w size line : Text} (h : DefinesColumn d name w size line)
include h

theorem exists_line : ∃ rest, line = name ++ rest ∧ wordEnds rest = true := by
  obtain ⟨rest, hline, -⟩ := h.typed
  exact ⟨_, hline, wordEnds_blank _⟩

theorem isDropped : isDropped d line = false := by
  obtain ⟨rest, rfl, hrest⟩ := h.exists_line
  exact h.named.isDropped hrest d

theorem cleaned : TypedAs name w size (cleaned d line) := by
  cases d with
  | sqliteToMysql => exact h.typed
  | mysqlToSqlite =>
    have hname := isBlank_of_mem_name h.named.word
    have hunique : withoutUniqueName line = line := by
      obtain ⟨rest, rfl, hrest⟩ := h.exists_line
      exact h.named.withoutUniqueName hrest
    have hupdates := typedAs_eraseAttribute h.free hname readsAttribute_onUpdate
      (fun hr => by obtain ⟨m, g, rfl, hne, -⟩ := exists_of_onUpdate hr; exact ⟨m ++ g, by simp, by simp [hne]⟩)
      (fun rest hrest => clause_typeWord h.free hrest readsClause_onUpdate (by decide) (by decide))
      (h.updates rfl) h.typed
    have hcomments := typedAs_eraseAttribute h.free hname readsAttribute_commentClause
      (fun hr => by
        obtain ⟨m, t, rfl, -, -, ht⟩ := exists_of_commentClause hr
        obtain ⟨n, rfl⟩ := literalRest_suffix ht
        exact ⟨m ++ '\'' :: n, by simp, by simp⟩)
      (fun rest hrest =>
        clause_typeWord h.free hrest readsClause_commentClause (by decide) (by decide))
      (h.comments rfl) hupdates
    have hattributes := typedAs_eraseAttribute h.free hname readsAttribute_typeAttribute
      (fun hr => by obtain ⟨m, hm, hne, -⟩ := takesSome_typeAttribute hr; exact ⟨m, hm, hne⟩)
      (fun rest hrest => typeAttribute_typeWord h.free hrest rfl)
      (fun _ => endsWords_typeAttribute _) hcomments
    rw [Definition.cleaned, hunique]
    exact hattributes

theorem typedName? : ∃ x rest, typedName? (Definition.cleaned d line)
    = some ([], ⟨name, [' '], typeLetters w, x, rest⟩) ∧ x.head?.any Char.isAlpha = false := by
  obtain ⟨rest, hline, hrest⟩ := h.cleaned
  obtain ⟨u, hu, halpha⟩ := exists_typeLetters (w := w) (not_isAlpha_of_wordEnds hrest)
  refine ⟨before u (Text.optional sizeAfterBlanks u), Text.optional sizeAfterBlanks u, ?_, ?_⟩
  · rw [hline, hu]
    exact typedName?_bare h.named.ne h.named.word h.free.word.typeLetters_ne_nil
      isAlpha_of_mem_typeLetters halpha
  · rw [before]
    cases u with
    | nil => simp
    | cons c u =>
      cases (c :: u).length - (Text.optional sizeAfterBlanks (c :: u)).length with
      | zero => rfl
      | succ n => exact halpha

end DefinesColumn

/-! ## The marker -/

theorem not_isAlpha_of_mem_size {size : Text} (h : IsSize size) :
    ∀ c ∈ size, isNumericChar c = true ∧ c.isAlpha = false := by
  intro c hc
  rcases h.eq_nil_or with rfl | ⟨t, rfl, ht⟩
  · cases hc
  · have hnum := isNumericChar_of_size ht c hc
    refine ⟨hnum, ?_⟩
    simp only [List.mem_cons, List.mem_append, List.not_mem_nil, or_false] at hc
    rcases hc with rfl | hc | rfl
    · decide
    · rcases ht c hc with hd | rfl
      · exact forall_ascii (p := fun c => c.isDigit = true → c.isAlpha = false) (by decide +kernel)
          (lt_of_isNumericChar hnum) hd
      · decide
    · decide

theorem passes_size {α : Type} {ks : List Text} {f : Reader α} (hf : StartsWith ks f)
    (hk : ∀ k ∈ ks, k.head?.any Char.isAlpha = true) {size : Text} (h : IsSize size)
    (prev : Option Char) (rest : Text) : Passes f prev size rest := by
  intro a b hab hb
  refine Option.eq_none_iff_forall_ne_some.2 fun r hr => ?_
  obtain ⟨-, k, hmem, hkw⟩ := hf hr
  obtain ⟨c, b, rfl⟩ := List.exists_cons_of_ne_nil hb
  obtain ⟨hnum, hc⟩ := not_isAlpha_of_mem_size h c (by simp [hab])
  have hblank := isBlank_of_isAtomChar (isAtomChar_of_isNumericChar hnum)
  have hblanks : blanks (c :: b ++ rest) = c :: b ++ rest := trimStart_eq_self (by simpa using hblank)
  have hhead := hk k hmem
  cases k with
  | nil => cases hhead
  | cons x k =>
    have hfold : foldsTo x c = false := by
      rw [foldsTo_of_isAscii (lt_of_isNumericChar hnum), beq_eq_false_iff_ne]
      rintro rfl
      have := isAlpha_of_toUpper hhead
      rw [hc] at this
      cases this
    rw [hblanks, keywordEnd, List.cons_append, keyword_of_head hfold] at hkw
    cases hkw

section
variable {d : Direction} {w size rest : Text} (h : IsFreeType d w size)
variable (hends : wordEnds (size ++ rest) = true)
include h hends

theorem passes_marker_type (prev : Option Char) :
    Passes (spacedMarker d.source.marker) prev (' ' :: (w ++ size)) rest := by
  have hnone : keywordEnd d.source.marker (w ++ (size ++ rest)) = none := by
    refine keywordEnd_typeWord h.word hends (marker_chars _) fun hup => h.not_lone ?_
    rw [hup]
    cases d <;> decide
  have hword : ∀ prev, spacedMarker d.source.marker prev (w ++ (size ++ rest)) = none := by
    intro prev
    rw [spacedMarker, h.word.blanks_append, hnone, ite_self]
  refine .cons ?_ (.append ?_ ?_)
  · have hblanks : blanks (' ' :: (w ++ size ++ rest)) = w ++ (size ++ rest) := by
      rw [List.append_assoc]
      exact (trimStart_append_of_blank (s := [' ']) (by decide)).trans (h.word.blanks_append _)
    rw [spacedMarker, hblanks, hnone, ite_self]
  · exact passes_name h.word.isWord _ spacedMarker_start hword
  · exact passes_size (startsWith_spacedMarker _) (by cases d <;> decide) h.sized _ _

theorem passes_key_type (prev : Option Char) :
    Passes primaryKey prev (' ' :: (w ++ size)) rest := by
  have hnone : keywordBlanks "PRIMARY".toList (w ++ (size ++ rest)) = none := by
    refine keywordBlanks_typeWord h.word hends (by decide) h.sized fun hnil hup =>
      h.not_opening hnil ?_
    rw [hup]
    cases d <;> decide
  refine .cons ?_ (.append ?_ ?_)
  · have hblank : keywordBlanks "PRIMARY".toList (' ' :: (w ++ size ++ rest)) = none := rfl
    rw [primaryKey, hblank]
    exact ite_self _
  · refine passes_name h.word.isWord _ (fun hr => .inl (primaryKey_start hr)) fun prev => ?_
    rw [primaryKey, hnone]
    exact ite_self _
  · exact passes_size startsWith_primaryKey (by decide) h.sized _ _

end

/-- Where a type stands behind what no key starts in, it stays when the marker is respelled. -/
theorem typedAs_replaceKey {d : Direction} {lead w size line : Text} (h : IsFreeType d w size)
    (hlead : ∀ rest, Passes primaryKey none lead (' ' :: rest)) (hline : TypedAs lead w size line)
    (phrase : Text) : TypedAs lead w size (replaceFirst primaryKey phrase line) := by
  obtain ⟨rest, rfl, hrest⟩ := hline
  have hpass : Passes primaryKey none (lead ++ ' ' :: (w ++ size)) rest :=
    .append (hlead _) (passes_key_type h hrest _)
  have hsplit : lead ++ ' ' :: (w ++ (size ++ rest)) = (lead ++ ' ' :: (w ++ size)) ++ rest := by
    simp
  rw [replaceFirst, hsplit, find_append hpass]
  cases hr : find primaryKey ((lead ++ ' ' :: (w ++ size)).getLast?.or none) rest with
  | none => exact ⟨rest, by simp, hrest⟩
  | some r =>
    obtain ⟨skipped, tail⟩ := r
    refine ⟨skipped ++ phrase ++ tail, by simp, wordEnds_size h.sized fun hnil => ?_⟩
    obtain ⟨u, hu, hkey⟩ := append_of_find hr
    cases skipped with
    | nil =>
      -- A key is a whole word, so it does not start right behind the type.
      have hstart := primaryKey_start hkey
      obtain ⟨c, hc⟩ : ∃ c, w.getLast? = some c :=
        ⟨_, List.getLast?_eq_some_getLast h.word.ne_nil⟩
      have hword := h.word.isWord c (List.mem_of_getLast? hc)
      simp [hnil, List.getLast?_append, List.getLast?_cons, hc, wordStarts, hword] at hstart
    | cons c skipped =>
      rw [hnil, List.nil_append, hu] at hrest
      exact hrest

theorem typedAs_eraseMarker {d : Direction} {name w size line : Text} (hn : IsColumnName name)
    (h : IsFreeType d w size) (hline : TypedAs name w size line) :
    ∃ lead, (lead = name ∨ lead = [] ∧ sameUpToCase name d.source.marker = true) ∧
      TypedAs lead w size (eraseAll (spacedMarker d.source.marker) line) := by
  obtain ⟨rest, rfl, hrest⟩ := hline
  have htype (prev : Option Char) : ∃ rest', wordEnds (size ++ rest') = true ∧
      eraseFrom (spacedMarker d.source.marker) prev 0 (' ' :: (w ++ size) ++ rest)
        = ' ' :: (w ++ (size ++ rest')) := by
    rw [eraseFrom_append (passes_marker_type h hrest prev)]
    refine ⟨_, wordEnds_size h.sized fun hnil => ?_, by rw [List.cons_append, List.append_assoc]⟩
    refine eraseFrom_wordEnds (n := 0) (fun hr => ?_) (fun _ hr => wordEnds_of_spacedMarker hr)
      (by simpa [hnil] using hrest) _
    obtain ⟨m, hm, hne, -⟩ := takesSome_spacedMarker d.source _ hr
    exact ⟨m, hm, hne⟩
  have hsplit : name ++ ' ' :: (w ++ (size ++ rest)) = name ++ (' ' :: (w ++ size) ++ rest) := by simp
  rw [eraseAll, hsplit]
  by_cases hm : sameUpToCase name d.source.marker = true
  · have hup : upper name = d.source.marker := by
      rw [sameUpToCase, upper_marker, beq_iff_eq] at hm
      exact hm
    have hblanks : blanks (name ++ (' ' :: (w ++ size) ++ rest)) = name ++ (' ' :: (w ++ size) ++ rest) := by
      obtain ⟨c, cs, rfl⟩ := List.exists_cons_of_ne_nil hn.ne
      exact trimStart_eq_self (by simpa using isBlank_of_mem_name hn.word c (by simp))
    have hread : spacedMarker d.source.marker none (name ++ (' ' :: (w ++ size) ++ rest))
        = some (' ' :: (w ++ size) ++ rest) := by
      have hstart : wordStarts none = true := rfl
      have hends : wordEnds (' ' :: (w ++ size) ++ rest) = true := wordEnds_blank _
      rw [spacedMarker, if_pos (.inl hstart), hblanks, keywordEnd, keyword_append hup]
      simp only [Option.bind_eq_bind, Option.bind_some, hends, if_true]
    have herase := eraseFrom_reads (.nil none _) hread hn.ne
    obtain ⟨rest', hends, htype⟩ := htype (name.getLast?.or none)
    rw [List.nil_append, List.nil_append] at herase
    exact ⟨[], .inr ⟨rfl, hm⟩, rest', herase.trans htype, hends⟩
  · refine ⟨name, .inl rfl, ?_⟩
    have hbegins : BeginsWith none name (name ++ ' ' :: (w ++ (size ++ rest))) :=
      ⟨hn.ne, hn.word, by simp, _, rfl, fun _ => wordEnds_blank _⟩
    have hname : Passes (spacedMarker d.source.marker) none name (' ' :: (w ++ size) ++ rest) :=
      marker_passes_name hbegins (fun _ => wordEnds_blank _) (by simpa using hm)
    obtain ⟨rest', hends, htype⟩ := htype (name.getLast?.or none)
    exact ⟨rest', by rw [eraseFrom_append hname, htype], hends⟩

/-! ## The whole line -/

namespace DefinesColumn

variable {m : TypeMap} {d : Direction} {name w size line : Text}
variable (h : DefinesColumn d name w size line)
include h

theorem ofDeclared?_eq_none_iff {x : Text} (hx : x.head?.any Char.isAlpha = false) :
    m.ofDeclared? d (typeLetters w ++ x) = none ↔ d.source.hasTypeKeyword (typeLetters w) = false :=
  m.ofDeclared?_eq_none_iff d h.free.word.typeLetters_ne_nil isAlpha_of_mem_typeLetters hx

/-- A type that is not known stays, whatever the marker becomes. -/
theorem typedAs_rewritten (hw : d.source.hasTypeKeyword (typeLetters w) = false) :
    ∃ lead, (lead = name ∨ lead = [] ∧ sameUpToCase name d.source.marker = true) ∧
      TypedAs lead w size (rewritten m d line) := by
  obtain ⟨x, rest, htyped, hx⟩ := h.typedName?
  have hnone := (h.ofDeclared?_eq_none_iff (m := m) hx).2 hw
  have hretyped : retyped m d line = Definition.cleaned d line := by
    rw [retyped, convertType, htyped]
    simp only [TypedName.declaredType, hnone]
  rw [rewritten, hretyped]
  cases hr : respellMarker d (Definition.cleaned d line) with
  | none => exact ⟨name, .inl rfl, h.cleaned⟩
  | some line' =>
    rw [Option.getD_some]
    obtain ⟨lead, hlead, hline⟩ := typedAs_eraseMarker h.named h.free h.cleaned
    refine ⟨lead, hlead, ?_⟩
    obtain ⟨-, ⟨-, rfl⟩ | ⟨-, rfl⟩⟩ := respellMarker_cases hr
    · refine typedAs_replaceKey h.free (fun rest => ?_) hline _
      cases hlead with
      | inl hname =>
        have hbegins : BeginsWith none name (name ++ ' ' :: rest) :=
          ⟨h.named.ne, h.named.word, by simp, _, rfl, fun _ => wordEnds_blank _⟩
        rw [hname]
        exact key_passes_name hbegins (fun _ => wordEnds_blank _) h.named.isConstraintKeyword
      | inr hmarked =>
        rw [hmarked.1]
        exact .nil none _
    · obtain ⟨rest, hrest, hends⟩ := hline
      refine ⟨rest ++ ' ' :: keyPhrase d, by simp [hrest], wordEnds_size h.free.sized fun hnil => ?_⟩
      cases rest with
      | nil => exact wordEnds_blank _
      | cons c rest => simpa [hnil, wordEnds] using hends

end DefinesColumn

end Definition

end SchemaDialects
