import SchemaDialects.Proofs.Definition.ColumnType

/-!
# Converting a column's line

The line of a plain column comes out with its type converted and, if it had the
source dialect's marker before or after `PRIMARY KEY` or without it, with the
target dialect's phrase at its end.
-/

namespace SchemaDialects.Definition

open Text
open Dialect (isMarkerChar markerWords)

/-- The parts of what the target dialect writes for an auto-increment key. -/
def phraseParts : Direction → List Text
  | .mysqlToSqlite => ["PRIMARY".toList, "KEY".toList, Dialect.sqlite.marker]
  | .sqliteToMysql => [Dialect.mysql.marker, "PRIMARY".toList, "KEY".toList]

theorem spaced_phraseParts (d : Direction) : spaced (phraseParts d) = ' ' :: keyPhrase d := by
  cases d <;> decide

theorem marker_ne_nil (d : Dialect) : d.marker ≠ [] := by cases d <;> decide

theorem marker_chars (d : Dialect) : ∀ c ∈ d.marker, isMarkerChar c = true := by
  cases d <;> decide

theorem upper_marker (d : Dialect) : upper d.marker = d.marker := by cases d <;> decide

theorem isAtom_marker (d : Dialect) : IsAtom d.marker :=
  isAtom_of_word (marker_ne_nil d) (marker_chars d)

theorem isAtom_primary : IsAtom "PRIMARY".toList := isAtom_of_word (by decide) (by decide)

theorem isAtom_key : IsAtom "KEY".toList := isAtom_of_word (by decide) (by decide)

theorem spacedMarker_reads (d : Dialect) (prev : Option Char) (ts : List Text) :
    spacedMarker d.marker prev (' ' :: d.marker ++ spaced ts) = some (spaced ts) := by
  have hb : blanks (' ' :: d.marker ++ spaced ts) = d.marker ++ spaced ts := by
    have hs : isBlank ' ' = true := by decide
    have hc : isBlank 'A' = false := by decide
    have hm : (d.marker ++ spaced ts).head? = some 'A' := by cases d <;> rfl
    rw [List.cons_append, blanks, trimStart, List.dropWhile_cons_of_pos hs]
    exact dropWhile_eq_self (by rw [hm, Option.any_some, hc])
  have hk : keyword d.marker (d.marker ++ spaced ts) = some (spaced ts) :=
    keyword_append (upper_marker d) _
  have hs : wordStarts prev = true ∨ (' ' :: d.marker ++ spaced ts).head?.any isBlank = true :=
    Or.inr (by simp; decide)
  rw [spacedMarker, if_pos hs, hb, keywordEnd, hk, Option.bind_eq_bind, Option.bind_some,
    if_pos (wordEnds_spaced ts)]

section
variable {q : Char} (hq : isNameQuote q = true) {name : Text} (hn : IsPlainName name)
variable {ts : List Text} (ht : ∀ t ∈ ts, IsAtom t)
include hq hn ht

/-! ## The marker -/

theorem respellMarker_of_avoids (d : Direction) (hw : ∀ t ∈ ts, Avoids [d.source.marker] t) :
    respellMarker d (columnLine q name ts) = none := by
  exact respellMarker_eq_none_iff.2
    (occurs_eq_false (passes_marker hq hn ht d.source hw (t := []) isAscii_nil rfl none))

theorem eraseAll_marker (d : Dialect) (us : List Text) (hu : ∀ t ∈ us, IsAtom t)
    (hwt : ∀ t ∈ ts, Avoids [d.marker] t) (hwu : ∀ t ∈ us, Avoids [d.marker] t) :
    occurs (spacedMarker d.marker) (columnLine q name (ts ++ d.marker :: us)) = true ∧
      eraseAll (spacedMarker d.marker) (columnLine q name (ts ++ d.marker :: us))
        = columnLine q name (ts ++ us) := by
  have hs : columnLine q name (ts ++ d.marker :: us)
      = columnLine q name ts ++ (' ' :: d.marker ++ spaced us) := by
    rw [columnLine_append, spaced_cons, List.cons_append]
  have hascii : IsAscii (' ' :: d.marker ++ spaced us) := by
    refine IsAscii.append (IsAscii.cons (by decide) (isAtom_marker d).isAscii) (isAscii_spaced hu)
  have hends : wordEnds (' ' :: d.marker ++ spaced us) = true := by
    simp [wordEnds, not_isWord_of_isBlank (c := ' ') (by decide)]
  have hpass := passes_marker hq hn ht d hwt hascii hends none
  have hread := spacedMarker_reads d ((columnLine q name ts).getLast?.or none) us
  constructor
  · rw [occurs, hs, find_of_reads hpass hread (by simp)]
    rfl
  · have hrest : ∀ prev, eraseFrom (spacedMarker d.marker) prev 0 (spaced us) = spaced us := by
      intro prev
      refine eraseFrom_of_find_eq_none (find_eq_none ?_)
      have hm : ∀ k ∈ [d.marker], ∀ c ∈ k, isMarkerChar c = true := by
        intro k hk
        rw [List.mem_singleton.1 hk]
        exact marker_chars d
      refine (startsWith_spacedMarker d.marker).passes hm (isAscii_spaced hu) isAscii_nil ?_
        (last_spaced hq hn hu) rfl prev
      refine avoids_spaced ?_ hwu
      rw [List.mem_singleton]
      exact (marker_ne_nil d).symm
    rw [eraseAll, hs, eraseFrom_reads hpass hread (by simp), hrest, columnLine_append]

/-- The phrase comes last, or takes the place of `PRIMARY KEY`, which is last. -/
theorem placePhrase (d : Direction) (hw : ∀ t ∈ ts, Avoids ["PRIMARY".toList] t) {ks : List Text}
    (hk : ks = [] ∨ ks = ["PRIMARY".toList, "KEY".toList]) :
    (if occurs primaryKey (columnLine q name (ts ++ ks)) then
        replaceFirst primaryKey (keyPhrase d) (columnLine q name (ts ++ ks))
      else columnLine q name (ts ++ ks) ++ ' ' :: keyPhrase d)
      = columnLine q name (ts ++ phraseParts d) := by
  rw [columnLine_append q name ts (phraseParts d), spaced_phraseParts]
  rcases hk with rfl | rfl
  · have hno := occurs_eq_false (passes_primaryKey hq hn ht hw (t := []) isAscii_nil rfl none)
    rw [List.append_nil, hno]
    rfl
  · have hs : columnLine q name (ts ++ ["PRIMARY".toList, "KEY".toList])
        = (columnLine q name ts ++ [' ']) ++ "PRIMARY KEY".toList := by
      simp [columnLine_append, spaced]
    have hline := passes_primaryKey hq hn ht hw (t := " PRIMARY KEY".toList) (by decide)
      (by simp [wordEnds, not_isWord_of_isBlank (c := ' ') (by decide)]) none
    have hblank : Passes primaryKey ((columnLine q name ts).getLast?.or none) [' ']
        "PRIMARY KEY".toList := by
      intro a b hab hne
      have hb : b = [' '] := by
        rcases List.append_eq_cons_iff.1 hab.symm with ⟨-, hb⟩ | ⟨a', -, hb⟩
        · exact hb
        · exact absurd (List.append_eq_nil_iff.1 hb.symm).2 hne
      rw [hb, primaryKey]
      refine ite_eq_right_iff.2 fun _ => rfl
    have hread : ∀ prev, wordStarts prev = true →
        primaryKey prev "PRIMARY KEY".toList = some [] := by
      intro prev hp
      rw [primaryKey, if_pos hp]
      rfl
    have hstart : wordStarts ((columnLine q name ts ++ [' ']).getLast?.or none) = true := by
      simp [wordStarts, not_isWord_of_isBlank (c := ' ') (by decide)]
    have hfind := find_of_reads (hline.append hblank) (hread _ hstart) (by simp)
    rw [hs, occurs, hfind, replaceFirst, hfind]
    simp

/-- The target dialect's phrase comes last, whether the marker was before
`PRIMARY KEY`, after it, or without it. -/
theorem respellMarker_columnLine (d : Direction) (hm : ∀ t ∈ ts, Avoids [d.source.marker] t)
    (hp : ∀ t ∈ ts, Avoids ["PRIMARY".toList] t) {as bs : List Text}
    (hab : as ++ bs = [] ∨ as ++ bs = ["PRIMARY".toList, "KEY".toList]) :
    respellMarker d (columnLine q name (ts ++ (as ++ d.source.marker :: bs)))
      = some (columnLine q name (ts ++ phraseParts d)) := by
  have hks : ∀ t ∈ as ++ bs, IsAtom t ∧ Avoids [d.source.marker] t := by
    rcases hab with h | h
    · rw [h]; simp
    · rw [h]
      intro t hm
      rcases List.mem_cons.1 hm with rfl | hm
      · exact ⟨isAtom_primary, Avoids.of_word (by decide) (by cases d <;> decide)⟩
      · rw [List.mem_singleton.1 hm]
        exact ⟨isAtom_key, Avoids.of_word (by decide) (by cases d <;> decide)⟩
  have hta : ∀ t ∈ ts ++ as, IsAtom t := by
    intro t hm
    rcases List.mem_append.1 hm with hm | hm
    · exact ht t hm
    · exact (hks t (by simp [hm])).1
  have hwa : ∀ t ∈ ts ++ as, Avoids [d.source.marker] t := by
    intro t hmem
    rcases List.mem_append.1 hmem with hmem | hmem
    · exact hm t hmem
    · exact (hks t (by simp [hmem])).2
  obtain ⟨hocc, herase⟩ := eraseAll_marker hq hn hta d.source bs
    (fun t hm => (hks t (by simp [hm])).1) hwa (fun t hm => (hks t (by simp [hm])).2)
  rw [List.append_assoc] at hocc herase
  rw [respellMarker, if_pos hocc, herase, List.append_assoc]
  exact congrArg some (placePhrase hq hn ht d hp hab)

end

/-! ## The whole line -/

/-- The words that a definition of the source dialect is searched for. -/
def searchedWords (d : Direction) : List Text := attributeWords ++ [d.source.marker]

theorem searchedWords_subset (d : Direction) : searchedWords d ⊆ reservedWords := by
  cases d <;> decide

section
variable {q : Char} (hq : isNameQuote q = true) {name : Text} (hn : IsPlainName name)
variable {type : Text} {ts : List Text}
include hq hn

theorem withoutAttributes_columnLine (ht : ∀ t ∈ ts, IsAtom t)
    (hw : ∀ t ∈ ts, Avoids attributeWords t) :
    withoutAttributes (columnLine q name ts) = columnLine q name ts :=
  withoutAttributes_eq_self fun hf =>
    eraseAll_of_not_occurs (occurs_eq_false (passes_attribute hq hn ht hf hw none))

omit hn in
theorem isInlineIndex_columnLine : isInlineIndex (columnLine q name ts) = false := by
  have hk : keyOrIndex (Text.optional indexClass (columnLine q name ts)) = none := by
    rcases eq_of_isNameQuote hq with rfl | rfl <;> rfl
  simp [isInlineIndex, inlineIndexName?, hk]

omit hn in
theorem withoutUniqueName_columnLine :
    withoutUniqueName (columnLine q name ts) = columnLine q name ts := by
  have hk : uniqueKey (columnLine q name ts) = none := by
    rcases eq_of_isNameQuote hq with rfl | rfl <;> rfl
  rw [withoutUniqueName, hk]

/-- Where the searched words are missing, only the type and the marker of a line
can change. -/
theorem convert_eq_convertColumn (m : TypeMap) (d : Direction) (table : Option Text)
    (ht : ∀ t ∈ ts, IsAtom t) (hw : ∀ t ∈ ts, Avoids attributeWords t) :
    (convert m d table (columnLine q name ts)).line?
        = (convertColumn m d table (columnLine q name ts)).line? ∧
      (convert m d table (columnLine q name ts)).autoColumn?
        = (convertColumn m d table (columnLine q name ts)).autoColumn? := by
  cases d with
  | sqliteToMysql => exact ⟨rfl, rfl⟩
  | mysqlToSqlite =>
    rw [convert, if_neg (by simp [isInlineIndex_columnLine hq]), withoutUniqueName_columnLine hq]
    simp only [withoutAttributes_columnLine hq hn ht hw, and_self]

theorem convert_columnLine (m : TypeMap) (d : Direction) (table : Option Text)
    (hty : IsPlainType d.source type) (ht : ∀ t ∈ ts, IsAtom t)
    (hw : ∀ t ∈ ts, Avoids (searchedWords d) t) :
    (convert m d table (columnLine q name (type :: ts))).line?
        = some (columnLine q name (m.target d type :: ts)) ∧
      (convert m d table (columnLine q name (type :: ts))).autoColumn? = none := by
  have htarget := isPlainType_target m hty
  have ht' : ∀ t ∈ type :: ts, IsAtom t := List.forall_mem_cons.2 ⟨hty.isAtom, ht⟩
  have hw' : ∀ t ∈ type :: ts, Avoids attributeWords t :=
    List.forall_mem_cons.2 ⟨hty.avoids.mono (by simp [reservedWords]),
      fun t hm => (hw t hm).mono (by simp [searchedWords])⟩
  have hu : ∀ t ∈ m.target d type :: ts, IsAtom t := List.forall_mem_cons.2 ⟨htarget.isAtom, ht⟩
  have hm : ∀ t ∈ m.target d type :: ts, Avoids [d.source.marker] t :=
    List.forall_mem_cons.2 ⟨htarget.avoids.mono (by cases d <;> decide),
      fun t hm => (hw t hm).mono (by simp [searchedWords])⟩
  obtain ⟨hl, ha⟩ := convert_eq_convertColumn hq hn m d table ht' hw'
  have hline := convertType_columnLine m d table hq hn hty ht
  have hrespell := respellMarker_of_avoids hq hn hu d hm
  rw [hl, ha, convertColumn, hline, hrespell]
  exact ⟨rfl, rfl⟩

theorem convert_marked (m : TypeMap) (d : Direction) (table : Option Text)
    (hty : IsPlainType d.source type) (ht : ∀ t ∈ ts, IsAtom t)
    (hw : ∀ t ∈ ts, Avoids reservedWords t) {as bs : List Text}
    (hab : as ++ bs = [] ∨ as ++ bs = ["PRIMARY".toList, "KEY".toList]) :
    (convert m d table (columnLine q name (type :: ts ++ (as ++ d.source.marker :: bs)))).line?
        = some (columnLine q name (m.target d type :: ts ++ phraseParts d)) ∧
      (convert m d table
        (columnLine q name (type :: ts ++ (as ++ d.source.marker :: bs)))).autoColumn?
        = some name := by
  have htarget := isPlainType_target m hty
  have hks : ∀ t ∈ as ++ d.source.marker :: bs, IsAtom t ∧ Avoids attributeWords t := by
    have hkey : ∀ t ∈ as ++ bs, IsAtom t ∧ Avoids attributeWords t := by
      rcases hab with h | h
      · rw [h]; simp
      · rw [h]
        exact List.forall_mem_cons.2 ⟨⟨isAtom_primary, Avoids.of_word (by decide) (by decide)⟩,
          List.forall_mem_singleton.2 ⟨isAtom_key, Avoids.of_word (by decide) (by decide)⟩⟩
    have hmark : IsAtom d.source.marker ∧ Avoids attributeWords d.source.marker :=
      ⟨isAtom_marker _, Avoids.of_word (marker_chars _) (by cases d <;> decide)⟩
    intro t hm
    rcases List.mem_append.1 hm with hm | hm
    · exact hkey t (by simp [hm])
    · rcases List.mem_cons.1 hm with rfl | hm
      · exact hmark
      · exact hkey t (by simp [hm])
  have hrest : ∀ t ∈ ts ++ (as ++ d.source.marker :: bs), IsAtom t ∧ Avoids attributeWords t := by
    intro t hm
    rcases List.mem_append.1 hm with hm | hm
    · exact ⟨ht t hm, (hw t hm).mono (by simp [reservedWords])⟩
    · exact hks t hm
  have hall : ∀ t ∈ type :: ts ++ (as ++ d.source.marker :: bs),
      IsAtom t ∧ Avoids attributeWords t :=
    List.forall_mem_cons.2 ⟨⟨hty.isAtom, hty.avoids.mono (by simp [reservedWords])⟩, hrest⟩
  obtain ⟨hl, ha⟩ := convert_eq_convertColumn hq hn m d table (fun t hm => (hall t hm).1)
    (fun t hm => (hall t hm).2)
  have hline := convertType_columnLine m d table hq hn hty fun t hm => (hrest t hm).1
  have hu : ∀ t ∈ m.target d type :: ts, IsAtom t := List.forall_mem_cons.2 ⟨htarget.isAtom, ht⟩
  have hv : ∀ t ∈ m.target d type :: ts, Avoids reservedWords t :=
    List.forall_mem_cons.2 ⟨htarget.avoids, hw⟩
  have hrespell := respellMarker_columnLine hq hn hu d
    (fun t hm => (hv t hm).mono (by cases d <;> decide))
    (fun t hm => (hv t hm).mono (by decide)) hab
  rw [List.cons_append] at hl ha hrespell ⊢
  rw [hl, ha, convertColumn, hline, hrespell]
  exact ⟨rfl, leadingName?_columnLine hq hn _⟩

end

end SchemaDialects.Definition
