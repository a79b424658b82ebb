import SchemaDialects.Proofs.Column.Plain

/-!
# Markers of converted columns

A column is marked where the marker is a whole word of its extra attributes. Of
the marked columns of a table the first one is marked in the other dialect too.
Everything else about a column stays, its type apart.
-/

namespace SchemaDialects

open Text
open Dialect (isMarkerChar markerWords)

/-! ## Whole words -/

/-- `word` stands in `s` with no character of a word right before or behind it. -/
def HasWord (word s : Text) : Prop :=
  ∃ before after, s = before ++ word ++ after ∧ before.getLast?.any isMarkerChar = false
    ∧ after.head?.any isMarkerChar = false

theorem markerWords_append_of_boundary {w s : Text} (hw : ∀ c ∈ w, isMarkerChar c = true)
    (hs : s.head?.any isMarkerChar = false) : w ∈ markerWords (w ++ s) := by
  cases s with
  | nil => simp [markerWords_of_word hw]
  | cons c s =>
    rw [markerWords_append (by simpa using hs), markerWords_of_word hw]
    simp

theorem mem_markerWords_iff {w s : Text} :
    w ∈ markerWords s ↔ (∀ c ∈ w, isMarkerChar c = true) ∧ HasWord w s := by
  constructor
  · intro h
    induction hn : s.length using Nat.strong_induction_on generalizing s with
    | _ n ih =>
      subst hn
      by_cases hall : ∀ c ∈ s, isMarkerChar c = true
      · rw [markerWords_of_word hall, List.mem_singleton] at h
        subst h
        exact ⟨hall, [], [], by simp, rfl, rfl⟩
      · -- The text is cut at its first character that is in no word.
        have hrest : s.dropWhile isMarkerChar ≠ [] := by simpa [List.dropWhile_eq_nil_iff] using hall
        obtain ⟨c, t, hct⟩ := List.exists_cons_of_ne_nil hrest
        have hc : isMarkerChar c = false := by
          have := List.head?_dropWhile_not isMarkerChar s
          rwa [hct] at this
        have hu : ∀ x ∈ s.takeWhile isMarkerChar, isMarkerChar x = true := fun x hx =>
          List.mem_takeWhile_imp hx
        have hs : s = s.takeWhile isMarkerChar ++ c :: t := by
          rw [← hct, List.takeWhile_append_dropWhile]
        generalize s.takeWhile isMarkerChar = u at hu hs
        subst hs
        rw [markerWords_append hc, markerWords_of_word hu, List.singleton_append,
          List.mem_cons] at h
        rcases h with rfl | h
        · exact ⟨hu, [], c :: t, by simp, rfl, by simpa using hc⟩
        · obtain ⟨hw, before, after, rfl, hbefore, hafter⟩ := ih t.length (by simp; omega) h rfl
          refine ⟨hw, u ++ c :: before, after, by simp, ?_, hafter⟩
          rw [List.getLast?_append, List.getLast?_cons]
          cases hl : before.getLast? with
          | none => simpa [hl] using hc
          | some d => simpa [hl] using hbefore
  · rintro ⟨hw, before, after, rfl, hbefore, hafter⟩
    rcases List.eq_nil_or_concat before with rfl | ⟨before, c, rfl⟩
    · exact markerWords_append_of_boundary hw hafter
    · have hc : isMarkerChar c = false := by simpa using hbefore
      have hs : before.concat c ++ w ++ after = before ++ c :: (w ++ after) := by simp
      rw [hs, markerWords_append hc]
      exact List.mem_append_right _ (markerWords_append_of_boundary hw hafter)

theorem isMarkerChar_upper (c : Char) : isMarkerChar c.toUpper = isMarkerChar c := by
  rcases toUpper_eq_or_isAlpha c with h | h
  · rw [h]
  · exact isMarkerChar_toUpper (lt_of_isMarkerChar (isMarkerChar_of_isAlpha h))

/-- The marker of `e` is among the extra attributes as a whole word, in any ASCII
case. -/
def Dialect.Marks (e : Dialect) (extra : Text) : Prop :=
  ∃ word, sameUpToCase word e.marker = true ∧ HasWord word extra

theorem isMarked_iff {e : Dialect} {extra : Text} : e.isMarked extra = true ↔ e.Marks extra := by
  have hup : upper e.marker = e.marker := by cases e <;> decide
  have hchars : ∀ c ∈ e.marker, isMarkerChar c = true := by cases e <;> decide
  have hany : ∀ o : Option Char, (o.map Char.toUpper).any isMarkerChar = o.any isMarkerChar := by
    intro o
    cases o with
    | none => rfl
    | some c => exact isMarkerChar_upper c
  rw [Dialect.isMarked, List.contains_iff_mem, mem_markerWords_iff]
  constructor
  · rintro ⟨-, before, after, hs, hbefore, hafter⟩
    obtain ⟨s, b, hs', hword, rfl⟩ := List.map_eq_append_iff.1 hs
    obtain ⟨a, w, rfl, rfl, hw⟩ := List.map_eq_append_iff.1 hword
    refine ⟨w, ?_, a, b, hs', ?_, ?_⟩
    · rw [sameUpToCase, hup, ← hw]
      exact beq_self_eq_true _
    · rwa [List.getLast?_map, hany] at hbefore
    · rwa [List.head?_map, hany] at hafter
  · rintro ⟨w, hw, a, b, rfl, hbefore, hafter⟩
    rw [sameUpToCase, hup, beq_iff_eq] at hw
    refine ⟨hchars, upper a, upper b, by rw [upper_append, upper_append, hw], ?_, ?_⟩
    · rwa [upper, List.getLast?_map, hany]
    · rwa [upper, List.head?_map, hany]

theorem isMarked_marker (d : Dialect) : d.isMarked d.marker = true := by cases d <;> decide

theorem isMarked_nil (d : Dialect) : d.isMarked [] = false := by cases d <;> decide

theorem isMarked_target_marker (d : Direction) : d.source.isMarked d.target.marker = false := by
  cases d <;> decide

/-! ## Converted columns -/

namespace Column

section
variable (m : TypeMap) (d : Direction)

theorem convertFrom_append (seen : Bool) (before after : List Column) :
    convertFrom m d seen (before ++ after)
      = convertFrom m d seen before
        ++ convertFrom m d (seen || before.any fun c => d.source.isMarked c.extra) after := by
  induction before generalizing seen with
  | nil => simp [convertFrom]
  | cons c before ih =>
    rw [List.cons_append, convertFrom, ih, convertFrom, List.any_cons, Bool.or_assoc,
      List.cons_append]

theorem length_convertFrom (seen : Bool) (columns : List Column) :
    (convertFrom m d seen columns).length = columns.length := by
  induction columns generalizing seen with
  | nil => rfl
  | cons c columns ih => rw [convertFrom, List.length_cons, List.length_cons, ih]

theorem length_convertAll (columns : List Column) :
    (convertAll m d columns).length = columns.length := by
  rw [convertAll, List.length_map]
  exact length_convertFrom m d false columns

/-- What a column becomes depends on the columns before it through one thing:
whether one of them is marked. -/
theorem convertAll_append_cons (before after : List Column) (c : Column) :
    ∃ after', convertAll m d (before ++ c :: after)
      = convertAll m d before
        ++ (c.convert m d (before.any fun x => d.source.isMarked x.extra)).column :: after' := by
  have hcons := convertFrom_append m d false before (c :: after)
  rw [Bool.false_or, convertFrom] at hcons
  exact ⟨_, by rw [convertAll, outcomes, hcons, List.map_append, List.map_cons]; rfl⟩

theorem isMarked_source_convert (seen : Bool) (c : Column) :
    d.source.isMarked (c.convert m d seen).column.extra = false := by
  simp only [convert]
  split
  · exact isMarked_target_marker d
  · exact isMarked_nil d.source

theorem unmarked_convertFrom (seen : Bool) (columns : List Column) :
    ∀ o ∈ convertFrom m d seen columns, d.source.isMarked o.column.extra = false := by
  induction columns generalizing seen with
  | nil => simp [convertFrom]
  | cons c columns ih =>
    rw [convertFrom]
    exact List.forall_mem_cons.2 ⟨isMarked_source_convert m d seen c, ih _⟩

theorem isMarked_target_convert (seen : Bool) (c : Column) :
    d.target.isMarked (c.convert m d seen).column.extra
      = (d.source.isMarked c.extra && !seen) := by
  simp only [convert]
  split
  · next h => rw [isMarked_marker, h.1, h.2]; rfl
  · next h => rw [isMarked_nil]; simpa using h

theorem count_marked_convertFrom (seen : Bool) (columns : List Column) :
    ((convertFrom m d seen columns).map ColumnOutcome.column).countP
        (fun c => d.target.isMarked c.extra)
      = if seen = false ∧ columns.any (fun c => d.source.isMarked c.extra) = true then 1 else 0 := by
  induction columns generalizing seen with
  | nil => simp [convertFrom]
  | cons c columns ih =>
    rw [convertFrom, List.map_cons, List.countP_cons, ih, isMarked_target_convert]
    cases seen <;> cases h : d.source.isMarked c.extra <;> simp [h]

theorem count_marked_convertAll_le (columns : List Column) :
    (convertAll m d columns).countP (fun c => d.target.isMarked c.extra) ≤ 1 := by
  rw [convertAll, outcomes, count_marked_convertFrom]
  split <;> omega

end

/-- The columns that are converted stand in their order, each with its name,
nullability, default and key flag and with the type that its own type is mapped
to. The first marked one has the target's marker for all its extra attributes,
and every other has none. So one column is marked in the target dialect where a
column was marked, none is otherwise, and the source dialect sees no marker. -/
theorem convertAll_keeps_first_marker (m : TypeMap) (d : Direction) (columns : List Column) :
    let converted := convertAll m d columns
    converted.length = columns.length
      ∧ (∀ before c after, columns = before ++ c :: after →
        ∃ before' extra after', converted = before'
            ++ ⟨c.name, m.target d c.declaredType, c.nullable, c.default?, c.isPrimaryKey, extra⟩
              :: after'
          ∧ before'.length = before.length
          ∧ (d.source.Marks c.extra ∧ (∀ x ∈ before, ¬ d.source.Marks x.extra) →
            extra = d.target.marker)
          ∧ (¬ (d.source.Marks c.extra ∧ ∀ x ∈ before, ¬ d.source.Marks x.extra) → extra = []))
      ∧ (converted.filter fun c => d.target.isMarked c.extra).length
        = (if columns.any (fun c => d.source.isMarked c.extra) then 1 else 0)
      ∧ ∀ c ∈ converted, d.source.isMarked c.extra = false := by
  intro converted
  refine ⟨length_convertAll m d columns, ?_, ?_, ?_⟩
  · rintro before c after rfl
    obtain ⟨after', heq⟩ := convertAll_append_cons m d before after c
    -- A column is the first marked one where no column before it is marked.
    have hfirst : (d.source.isMarked c.extra = true
          ∧ (before.any fun x => d.source.isMarked x.extra) = false)
        ↔ d.source.Marks c.extra ∧ ∀ x ∈ before, ¬ d.source.Marks x.extra := by
      rw [isMarked_iff, List.any_eq_false]
      simp only [isMarked_iff]
    refine ⟨_, _, after', heq, length_convertAll m d before, fun h => ?_, fun h => ?_⟩
    · exact if_pos (hfirst.2 h)
    · exact if_neg fun hc => h (hfirst.1 hc)
  · rw [← List.countP_eq_length_filter]
    exact (count_marked_convertFrom m d false columns).trans (by simp)
  · intro c hc
    obtain ⟨o, ho, rfl⟩ := List.mem_map.1 hc
    exact unmarked_convertFrom m d false columns o ho

end Column

end SchemaDialects
