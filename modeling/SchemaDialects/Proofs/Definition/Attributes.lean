import SchemaDialects.Definition.Marker
import SchemaDialects.Definition.Mysql
import SchemaDialects.Proofs.Column.Plain

/-!
# Where attributes are found

Column attributes, markers and the words `PRIMARY KEY` are found at words of
their own only, and attributes only after a blank. A text without those words
passes all of these readers, and so does a quoted name.
-/

namespace SchemaDialects.Definition

open Text
open Dialect (isMarkerChar markerWords)

/-! ## The words that readers start with -/

theorem head_of_blanks1 {s r : Text} (h : blanks1 s = some r) :
    s.head?.any isBlank = true ∧ r = blanks s := by
  cases s with
  | nil => cases h
  | cons c s =>
    rw [blanks1, many1] at h
    split at h
    · next hc =>
      obtain rfl := Option.some.inj h
      exact ⟨by simpa using hc, (List.dropWhile_cons_of_pos hc).symm⟩
    · cases h

theorem keywordEnd_of_keywordBlanks {k s r : Text} (h : keywordBlanks k s = some r) :
    (keywordEnd k s).isSome := by
  obtain ⟨t, ht, hr⟩ := Option.bind_eq_some_iff.1 h
  have hb := (head_of_blanks1 hr).1
  have he : wordEnds t = true := by
    cases t with
    | nil => cases hb
    | cons c t => simp [wordEnds, not_isWord_of_isBlank (c := c) (by simpa using hb)]
  simp [keywordEnd, ht, he]

theorem keywordEnd_of_keywords {k s r : Text} {ks : List Text}
    (h : keywords (k :: ks) s = some r) : (keywordEnd k s).isSome := by
  obtain ⟨t, ht, -⟩ := Option.bind_eq_some_iff.1 h
  exact keywordEnd_of_keywordBlanks ht

/-- A scanner of blanks and one of some words. -/
def ReadsAttribute (ks : List Text) (f : Scanner) : Prop :=
  ∀ ⦃s r⦄, f s = some r →
    s.head?.any isBlank = true ∧ ∃ k ∈ ks, (keywordEnd k (blanks s)).isSome

theorem ReadsAttribute.startsWith {ks : List Text} {f : Scanner} (hf : ReadsAttribute ks f) :
    StartsWith ks (anywhere f) := by
  intro prev s a h
  obtain ⟨hb, hk⟩ := hf h
  exact ⟨Or.inr hb, hk⟩

/-- A scanner of blanks, of the word `k` with blanks behind it, and of something else. -/
def ReadsClause (k : Text) (f : Scanner) : Prop :=
  ∃ g : Scanner, ∀ s, f s = blanks1 s >>= fun s => keywordBlanks k s >>= g

theorem readsClause_onUpdate : ReadsClause "ON".toList onUpdate :=
  ⟨fun s => do
    let s ← keywords ["UPDATE".toList] s
    let s ← keyword "CURRENT_TIMESTAMP".toList s
    some (optional precision s), fun s => by simp [onUpdate, keywords, Option.bind_assoc]⟩

theorem readsClause_commentClause : ReadsClause "COMMENT".toList commentClause :=
  ⟨fun s => char '\'' s >>= literalRest, fun _ => rfl⟩

theorem ReadsClause.readsAttribute {k : Text} {ks : List Text} {f : Scanner} (hf : ReadsClause k f)
    (hk : k ∈ ks) : ReadsAttribute ks f := by
  obtain ⟨g, hg⟩ := hf
  intro s r h
  rw [hg] at h
  obtain ⟨t, ht, h⟩ := Option.bind_eq_some_iff.1 h
  obtain ⟨u, hu, -⟩ := Option.bind_eq_some_iff.1 h
  obtain ⟨hb, rfl⟩ := head_of_blanks1 ht
  exact ⟨hb, k, hk, keywordEnd_of_keywordBlanks hu⟩

theorem readsAttribute_onUpdate : ReadsAttribute attributeWords onUpdate :=
  readsClause_onUpdate.readsAttribute (by decide)

theorem readsAttribute_commentClause : ReadsAttribute attributeWords commentClause :=
  readsClause_commentClause.readsAttribute (by decide)

theorem readsAttribute_typeAttribute : ReadsAttribute attributeWords typeAttribute := by
  intro s r h
  obtain ⟨t, ht, h⟩ := Option.bind_eq_some_iff.1 h
  obtain ⟨hb, rfl⟩ := head_of_blanks1 ht
  refine ⟨hb, ?_⟩
  rcases Option.or_eq_some_iff.1 h with h | ⟨-, h⟩
  · rcases Option.or_eq_some_iff.1 h with h | ⟨-, h⟩
    · exact ⟨_, by decide, Option.isSome_of_eq_some h⟩
    · exact ⟨_, by decide, Option.isSome_of_eq_some h⟩
  · rcases Option.or_eq_some_iff.1 h with h | ⟨-, h⟩
    · obtain ⟨u, hu, -⟩ := Option.bind_eq_some_iff.1 h
      exact ⟨_, by decide, keywordEnd_of_keywords hu⟩
    · obtain ⟨u, hu, -⟩ := Option.bind_eq_some_iff.1 h
      exact ⟨_, by decide, keywordEnd_of_keywordBlanks hu⟩

theorem withoutAttributes_eq_self {s : Text}
    (h : ∀ {f}, ReadsAttribute attributeWords f → eraseAll (anywhere f) s = s) :
    withoutAttributes s = s := by
  rw [withoutAttributes, h readsAttribute_onUpdate, h readsAttribute_commentClause]
  exact h readsAttribute_typeAttribute

theorem startsWith_spacedMarker (marker : Text) : StartsWith [marker] (spacedMarker marker) := by
  intro prev s a h
  rw [spacedMarker] at h
  split at h
  · next hs => exact ⟨hs, marker, by simp, by simp [h]⟩
  · cases h

theorem blanks_eq_self_of_keyword {k s r : Text} (hk : k ≠ []) (hb : ∀ x ∈ k, x.isAlpha = true)
    (h : keyword k s = some r) : blanks s = s := by
  obtain ⟨x, k, rfl⟩ := List.exists_cons_of_ne_nil hk
  cases s with
  | nil => rfl
  | cons c s =>
    rw [blanks, trimStart_eq_self]
    rw [keyword] at h
    split at h
    · next hf =>
      have hx := isBlank_of_isMarkerChar (isMarkerChar_of_isAlpha (hb x (by simp)))
      simp only [foldsTo, Bool.or_eq_true, beq_iff_eq, Bool.and_eq_true] at hf
      rcases hf with (hf | hf) | hf
      · have hc : c.isAlpha = true := isAlpha_of_toUpper (hf ▸ hb x (by simp))
        simpa using isBlank_of_isMarkerChar (isMarkerChar_of_isAlpha hc)
      · rw [hf.2]; exact (by decide : isBlank 'ſ' = false)
      · rw [hf.2]; exact (by decide : isBlank '\u212A' = false)
    · cases h

theorem startsWith_primaryKey : StartsWith ["PRIMARY".toList] primaryKey := by
  intro prev s a h
  rw [primaryKey] at h
  split at h
  · next hs =>
    obtain ⟨t, ht, -⟩ := Option.bind_eq_some_iff.1 h
    obtain ⟨u, hu, -⟩ := Option.bind_eq_some_iff.1 ht
    refine ⟨Or.inl hs, _, List.mem_singleton_self _, ?_⟩
    rw [blanks_eq_self_of_keyword (by simp) (by decide) hu]
    exact keywordEnd_of_keywordBlanks ht
  · cases h

/-! ## Texts that readers pass -/

theorem ReadsAttribute.passes_of_no_blank {ks : List Text} {f : Scanner}
    (hf : ReadsAttribute ks f) {s : Text} (hs : ∀ c ∈ s, isBlank c = false) (prev : Option Char)
    (t : Text) : Passes (anywhere f) prev s t := by
  intro a b hab hne
  refine Option.eq_none_iff_forall_ne_some.2 fun r hr => ?_
  obtain ⟨c, b, rfl⟩ := List.exists_cons_of_ne_nil hne
  have hb := (hf hr).1
  rw [List.cons_append, List.head?_cons, Option.any_some, hs c (by simp [hab])] at hb
  cases hb

/-- Before the blanks after a keyword stand its last letter, and no character
that is none of its letters. -/
theorem keywordBlanks_eq_none {k b t : Text} (hne : b ≠ []) (hb : ∀ c ∈ b, isBlank c = false)
    (hl : ∀ x ∈ k, ∀ c ∈ b.getLast?, foldsTo x c = false) : keywordBlanks k (b ++ t) = none := by
  induction k generalizing b with
  | nil =>
    obtain ⟨c, b, rfl⟩ := List.exists_cons_of_ne_nil hne
    simp [keywordBlanks, keyword, blanks1, many1, hb c (by simp)]
  | cons x k ih =>
    obtain ⟨c, b, rfl⟩ := List.exists_cons_of_ne_nil hne
    by_cases hf : foldsTo x c = true
    · have hb' : b ≠ [] := by
        rintro rfl
        rw [hl x (by simp) c (by simp)] at hf
        cases hf
      have hlast : ∀ y ∈ k, ∀ d ∈ b.getLast?, foldsTo y d = false := by
        intro y hy d hd
        refine hl y (by simp [hy]) d ?_
        rw [List.getLast?_cons, Option.mem_def.1 hd]
        rfl
      have := ih hb' (fun d hd => hb d (by simp [hd])) hlast
      simpa [keywordBlanks, keyword, hf] using this
    · simp [keywordBlanks, keyword, hf]

end SchemaDialects.Definition
