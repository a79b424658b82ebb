import SchemaDialects.Definition.Convert
import SchemaDialects.Proofs.Definition.Attributes
import SchemaDialects.Proofs.Definition.Lines

/-!
# Lines of columns

The line of a plain column: its name in quotes and then the parts of its
definition, each after a blank. Converting such a line changes its type, and
where the source dialect's marker stands in it, the marker. The other parts
stay.
-/

namespace SchemaDialects.Definition

open Text
open Dialect (isMarkerChar markerWords)

/-- Parts with a blank before each. -/
def spaced (ts : List Text) : Text := ts.flatMap (' ' :: ·)

def quotedName (q : Char) (name : Text) : Text := q :: (name ++ [q])

theorem forall_mem_quotedName {p : Char → Prop} {q : Char} {name : Text} (hq : p q)
    (hn : ∀ c ∈ name, p c) : ∀ c ∈ quotedName q name, p c :=
  List.forall_mem_cons.2 ⟨hq, List.forall_mem_append.2 ⟨hn, List.forall_mem_singleton.2 hq⟩⟩

def columnLine (q : Char) (name : Text) (ts : List Text) : Text :=
  q :: (name ++ q :: spaced ts)

@[simp] theorem spaced_nil : spaced [] = [] := rfl

theorem spaced_cons (t : Text) (ts : List Text) : spaced (t :: ts) = ' ' :: (t ++ spaced ts) := rfl

theorem spaced_append (ts us : List Text) : spaced (ts ++ us) = spaced ts ++ spaced us := by
  simp [spaced]

theorem columnLine_append (q : Char) (name : Text) (ts us : List Text) :
    columnLine q name (ts ++ us) = columnLine q name ts ++ spaced us := by
  simp [columnLine, spaced_append]

/-! ## The characters of a line -/

section
variable {q : Char} {name : Text} {ts : List Text}

theorem forall_mem_spaced {p : Char → Prop} (hs : p ' ') (ht : ∀ t ∈ ts, ∀ c ∈ t, p c) :
    ∀ c ∈ spaced ts, p c := by
  intro c hc
  obtain ⟨t, hm, hc⟩ := List.mem_flatMap.1 hc
  rcases List.mem_cons.1 hc with rfl | hc
  · exact hs
  · exact ht t hm c hc

theorem forall_mem_columnLine {p : Char → Prop} (hq : p q) (hs : p ' ') (hn : ∀ c ∈ name, p c)
    (ht : ∀ t ∈ ts, ∀ c ∈ t, p c) : ∀ c ∈ columnLine q name ts, p c := by
  intro c hc
  rcases List.mem_cons.1 hc with rfl | hc
  · exact hq
  · rcases List.mem_append.1 hc with hc | hc
    · exact hn c hc
    · rcases List.mem_cons.1 hc with rfl | hc
      · exact hq
      · exact forall_mem_spaced hs ht c hc

theorem last_columnLine {p : Char → Bool} (hq : p q = false)
    (ht : ∀ t ∈ ts, t ≠ [] ∧ t.getLast?.any p = false) :
    (columnLine q name ts).getLast?.any p = false := by
  rcases List.eq_nil_or_concat ts with rfl | ⟨us, t, rfl⟩
  · simp [columnLine, List.getLast?_cons, hq]
  · obtain ⟨hne, hl⟩ := ht t (by simp)
    rw [List.concat_eq_append, columnLine_append, List.getLast?_append, spaced_cons, spaced_nil,
      List.append_nil, List.getLast?_cons]
    obtain ⟨c, hc⟩ := Option.ne_none_iff_exists'.1 (mt List.getLast?_eq_none_iff.1 hne)
    simpa [hc] using hl

theorem noDashes_spaced (ht : ∀ t ∈ ts, IsAtom t) : NoDashes (spaced ts) := by
  induction ts with
  | nil => exact List.isChain_nil
  | cons t ts ih =>
    have hh : (spaced ts).head? ≠ some '-' := by cases ts <;> simp [spaced_cons]
    have := (ht t (by simp)).no_dashes.append (ih fun u hu => ht u (by simp [hu])) (Or.inr hh)
    exact List.isChain_cons.2 ⟨fun _ _ hd => absurd hd.1 (by decide), this⟩

end

/-- Two dashes start a comment, and nothing else does. -/
theorem beforeComment_of_noDashes {s : Text} (h : NoDashes s) (q : Option Char) :
    beforeComment q s = none := by
  induction s generalizing q with
  | nil => rfl
  | cons c s ih =>
    have ih := ih (List.isChain_cons.1 h).2
    cases q with
    | some q => simp [beforeComment, ih]
    | none =>
      have hd : ¬ (c = '-' ∧ s.head? = some '-') := by
        rintro ⟨hc, hs⟩
        exact (List.isChain_cons.1 h).1 '-' hs ⟨hc, rfl⟩
      simp [beforeComment, hd, ih]

section
variable {q : Char} (hq : isNameQuote q = true) {name : Text} (hn : IsPlainName name)
variable {ts : List Text} (ht : ∀ t ∈ ts, IsAtom t)
include hq hn ht

theorem isAscii_columnLine : IsAscii (columnLine q name ts) := by
  refine forall_mem_columnLine ?_ (by decide) (fun c hc => lt_of_isMarkerChar (hn.chars c hc))
    fun t hm => (ht t hm).isAscii
  rcases eq_of_isNameQuote hq with rfl | rfl <;> decide

theorem noDashes_columnLine : NoDashes (columnLine q name ts) := by
  have hqd : q ≠ '-' := by rcases eq_of_isNameQuote hq with rfl | rfl <;> decide
  have hnd : '-' ∉ name := fun hm => absurd (hn.chars '-' hm) (by decide)
  have htail : NoDashes (q :: spaced ts) :=
    List.isChain_cons.2 ⟨fun _ _ hd => hqd hd.1, noDashes_spaced ht⟩
  have := (NoDashes.of_not_mem hnd).append htail (Or.inr (by simpa using hqd))
  exact List.isChain_cons.2 ⟨fun _ _ hd => hqd hd.1, this⟩

theorem isDefinition_columnLine : IsDefinition (columnLine q name ts) where
  ne_nil := by simp [columnLine]
  no_break := by
    have hline : ∀ c ∈ columnLine q name ts, c ≠ '\n' := by
      refine forall_mem_columnLine ?_ (by decide) (fun c hc => ?_) fun t hm c hc => ?_
      · rcases eq_of_isNameQuote hq with rfl | rfl <;> decide
      · rintro rfl; exact absurd (hn.chars _ hc) (by decide)
      · rintro rfl; exact absurd ((ht t hm).chars _ hc) (by decide)
    exact fun hm => hline _ hm rfl
  head := by rcases eq_of_isNameQuote hq with rfl | rfl <;> rfl
  last := by
    refine last_columnLine ?_ fun t hm => ⟨(ht t hm).ne_nil, ?_⟩
    · rcases eq_of_isNameQuote hq with rfl | rfl <;> decide
    · cases hl : t.getLast? with
      | none => rfl
      | some c => exact (ht t hm).not_blank (List.mem_of_getLast? hl)
  no_comment := beforeComment_of_noDashes (noDashes_columnLine hq hn ht) none
  no_comma := by
    have hlast : (columnLine q name ts).getLast?.any (· == ',') = false := by
      refine last_columnLine ?_ fun t hm => ⟨(ht t hm).ne_nil, ?_⟩
      · rcases eq_of_isNameQuote hq with rfl | rfl <;> decide
      · cases hl : t.getLast? with
        | none => rfl
        | some c =>
          have := (ht t hm).last
          rw [hl] at this
          simpa using this
    intro hl
    rw [hl] at hlast
    cases hlast
  not_closing := by rcases eq_of_isNameQuote hq with rfl | rfl <;> rfl

end

/-! ## Readers that pass a line -/

theorem avoids_spaced {ks : List Text} (hk : [] ∉ ks) {ts : List Text}
    (ht : ∀ t ∈ ts, Avoids ks t) : Avoids ks (spaced ts) := by
  induction ts with
  | nil =>
    intro k hm
    rw [show markerWords (upper (spaced [])) = [[]] from rfl, List.mem_singleton]
    rintro rfl
    exact hk hm
  | cons t ts ih =>
    have ih := ih fun u hu => ht u (by simp [hu])
    rw [spaced_cons]
    refine Avoids.cons (by decide) hk ?_
    cases ts with
    | nil =>
      rw [spaced_nil, List.append_nil]
      exact ht t (by simp)
    | cons u ts =>
      rw [spaced_cons] at ih ⊢
      refine Avoids.append_cons (by decide) (ht t (by simp)) fun k hm hw => ih k hm ?_
      rw [upper_cons, markerWords_cons_of_sep (by decide)]
      exact List.mem_cons_of_mem _ hw

theorem wordEnds_spaced (ts : List Text) : wordEnds (spaced ts) = true := by
  cases ts with
  | nil => rfl
  | cons t ts => simp [wordEnds, spaced_cons, not_isWord_of_isBlank (c := ' ') (by decide)]

theorem isAscii_spaced {ts : List Text} (ht : ∀ t ∈ ts, IsAtom t) : IsAscii (spaced ts) :=
  forall_mem_spaced (by decide) fun t hm => (ht t hm).isAscii

theorem columnLine_eq (q : Char) (name : Text) (ts : List Text) :
    columnLine q name ts = quotedName q name ++ spaced ts := by
  simp [columnLine, quotedName]

section
variable {q : Char} (hq : isNameQuote q = true) {name : Text} (hn : IsPlainName name)
include hq hn

theorem not_blank_of_mem_name : ∀ c ∈ quotedName q name, isBlank c = false := by
  have hqb : isBlank q = false := by rcases eq_of_isNameQuote hq with rfl | rfl <;> decide
  exact forall_mem_quotedName hqb fun c hc => isBlank_of_isMarkerChar (hn.chars c hc)

theorem avoids_columnLine {ks : List Text} (hk : [] ∉ ks) (hname : upper name ∉ ks)
    {ts : List Text} (hw : ∀ t ∈ ts, Avoids ks t) : Avoids ks (columnLine q name ts) := by
  have hqm : isMarkerChar q.toUpper = false := by
    rcases eq_of_isNameQuote hq with rfl | rfl <;> decide
  refine Avoids.cons hqm hk (Avoids.append_cons hqm (Avoids.of_word hn.chars hname) ?_)
  exact avoids_spaced hk hw

variable {ts : List Text} (ht : ∀ t ∈ ts, IsAtom t)
include ht

theorem last_spaced : (spaced ts).getLast?.any isBlank = false := by
  have := (isDefinition_columnLine hq hn ht).last
  rw [columnLine_eq, List.getLast?_append] at this
  cases hl : (spaced ts).getLast? with
  | none => rfl
  | some c => simpa [hl] using this

theorem passes_attribute {f : Scanner} (hf : ReadsAttribute attributeWords f)
    (hw : ∀ t ∈ ts, Avoids attributeWords t) (prev : Option Char) :
    Passes (anywhere f) prev (columnLine q name ts) [] := by
  rw [columnLine_eq]
  refine (hf.passes_of_no_blank (not_blank_of_mem_name hq hn) prev _).append ?_
  refine hf.startsWith.passes (by decide) (isAscii_spaced ht) isAscii_nil ?_
    (last_spaced hq hn ht) (by rfl) _
  exact avoids_spaced (by decide) hw

/-- The markers stand in no name, so a name may not be one. -/
theorem passes_marker (d : Dialect) (hw : ∀ t ∈ ts, Avoids [d.marker] t) {t : Text}
    (hta : IsAscii t) (hte : wordEnds t = true) (prev : Option Char) :
    Passes (spacedMarker d.marker) prev (columnLine q name ts) t := by
  have hm : ∀ k ∈ [d.marker], ∀ c ∈ k, isMarkerChar c = true := by cases d <;> decide
  have hk : [] ∉ [d.marker] := by cases d <;> decide
  refine (startsWith_spacedMarker d.marker).passes hm (isAscii_columnLine hq hn ht) hta ?_
    (isDefinition_columnLine hq hn ht).last hte prev
  refine avoids_columnLine hq hn hk ?_ hw
  rw [List.mem_singleton]
  exact hn.not_marker d

/-- A name may be `PRIMARY`, but the quote after it is no blank. -/
theorem passes_primaryKey (hw : ∀ t ∈ ts, Avoids ["PRIMARY".toList] t) {t : Text}
    (hta : IsAscii t) (hte : wordEnds t = true) (prev : Option Char) :
    Passes primaryKey prev (columnLine q name ts) t := by
  rw [columnLine_eq]
  refine Passes.append ?_ ?_
  · intro a b hab hne
    have hb : ∀ c ∈ b, isBlank c = false :=
      fun c hc => not_blank_of_mem_name hq hn c (by simp [hab, hc])
    have hlast : b.getLast? = some q := by
      have h := congrArg List.getLast? hab
      rw [List.getLast?_append] at h
      cases hbl : b.getLast? with
      | none => exact absurd (List.getLast?_eq_none_iff.1 hbl) hne
      | some c => simpa [hbl, quotedName, List.getLast?_cons] using h.symm
    have hl : ∀ x ∈ "PRIMARY".toList, ∀ c ∈ b.getLast?, foldsTo x c = false := by
      have hq : ∀ x ∈ "PRIMARY".toList, foldsTo x q = false := by
        rcases eq_of_isNameQuote hq with rfl | rfl <;> decide
      intro x hx c hc
      rw [hlast, Option.mem_some_iff] at hc
      exact hc ▸ hq x hx
    have := keywordBlanks_eq_none (t := spaced ts ++ t) hne hb hl
    rw [primaryKey, this]
    exact ite_self _
  · refine startsWith_primaryKey.passes (by decide) (isAscii_spaced ht) hta ?_
      (last_spaced hq hn ht) hte _
    exact avoids_spaced (by decide) hw

end

/-! ## The type of a line -/

section
variable {q : Char} (hq : isNameQuote q = true) {name : Text} (hn : IsPlainName name)
include hq hn

theorem quote_not_mem_name : q ∉ name := by
  intro hm
  have := hn.chars q hm
  revert this
  rcases eq_of_isNameQuote hq with rfl | rfl <;> decide

theorem nameToken_name (s : Text) : nameToken (quotedName q name ++ s) = some s := by
  have hr : quotedBy q (q :: name ++ q :: s) = some s :=
    quotedBy_append hn.ne_nil (quote_not_mem_name hq hn)
  have hs : quotedName q name ++ s = q :: name ++ q :: s := by simp [quotedName]
  rw [hs, nameToken]
  rcases eq_of_isNameQuote hq with rfl | rfl
  · rw [hr]; rfl
  · have hnone : quotedBy '`' ('"' :: name ++ '"' :: s) = none := quotedBy_of_ne (by decide) _
    rw [hnone, hr]; rfl

theorem bareName_name : bareName (quotedName q name) = name := by
  have hnq : ∀ c ∈ name, isNameQuote c = false := by
    intro c hc
    rw [← Bool.not_eq_true]
    intro hcq
    exact quote_not_mem_name hcq hn hc
  have hhead : (name ++ [q]).dropWhile isNameQuote = name ++ [q] := by
    refine dropWhile_eq_self ?_
    obtain ⟨c, name, rfl⟩ := List.exists_cons_of_ne_nil hn.ne_nil
    simpa using hnq c (by simp)
  have hlast : name.getLast?.any isNameQuote = false := by
    cases hl : name.getLast? with
    | none => rfl
    | some c => simpa using hnq c (List.mem_of_getLast? hl)
  rw [bareName, quotedName, List.dropWhile_cons_of_pos hq, hhead, dropEndWhile_append_of_all (by simpa using hq),
    dropEndWhile_eq_self hlast]

theorem leadingName?_columnLine (ts : List Text) :
    leadingName? (columnLine q name ts) = some name := by
  rw [leadingName?, columnLine_eq, read_of_append (nameToken_name hq hn _), Option.map_some]
  exact congrArg some (bareName_name hq hn)

end

end SchemaDialects.Definition
