import SchemaDialects.Dialect
import SchemaDialects.Proofs.Text.Places
import SchemaDialects.Proofs.Text.Trim

/-!
# Words of ASCII texts

In an ASCII text a keyword is read as a whole word exactly where it is one of
the text's words. A reader that has to start with a word therefore reads
nothing in a text that does not have the word, and what it would erase or
replace stays.
-/

namespace SchemaDialects.Text

open Dialect (isMarkerChar markerWords)

def IsAscii (s : Text) : Prop := ∀ c ∈ s, c.toNat < 128

instance (s : Text) : Decidable (IsAscii s) := inferInstanceAs (Decidable (∀ c ∈ s, c.toNat < 128))

theorem isAscii_nil : IsAscii [] := by decide

theorem IsAscii.append {s t : Text} (hs : IsAscii s) (ht : IsAscii t) : IsAscii (s ++ t) := by
  intro c hc
  rcases List.mem_append.1 hc with h | h
  · exact hs c h
  · exact ht c h

theorem IsAscii.cons {c : Char} {s : Text} (hc : c.toNat < 128) (hs : IsAscii s) :
    IsAscii (c :: s) := by
  intro d hd
  rcases List.mem_cons.1 hd with rfl | h
  · exact hc
  · exact hs d h

theorem IsAscii.of_cons {c : Char} {s : Text} (h : IsAscii (c :: s)) :
    c.toNat < 128 ∧ IsAscii s :=
  ⟨h c (by simp), fun d hd => h d (by simp [hd])⟩

/-! ## Characters -/

/-- What holds of the first 128 code points holds of every ASCII character. -/
theorem forall_ascii {p : Char → Prop} (h : ∀ n < 128, p (Char.ofNat n)) {c : Char}
    (hc : c.toNat < 128) : p c := by
  have := h c.toNat hc
  rwa [Char.ofNat_toNat] at this

theorem wordRanges_not_ascii : ∀ r ∈ wordRanges, 128 ≤ r.1 := by decide +kernel

theorem not_contains_of_isAscii {rs : Ranges} (hrs : ∀ r ∈ rs, 128 ≤ r.1) {c : Char}
    (h : c.toNat < 128) : rs.contains c = false := by
  rw [← Bool.not_eq_true, Ranges.contains_iff]
  rintro ⟨r, hr, hl, -⟩
  have := hrs r hr
  omega

theorem isWord_of_isAscii {c : Char} (h : c.toNat < 128) : isWord c = isAsciiWord c := by
  simp [isWord, not_contains_of_isAscii wordRanges_not_ascii h]

theorem not_isWord_of_isAscii {c : Char} (h : c.toNat < 128 ∧ isAsciiWord c = false) :
    isWord c = false :=
  (isWord_of_isAscii h.1).trans h.2

theorem foldsTo_of_isAscii {k c : Char} (h : c.toNat < 128) :
    foldsTo k c = (c.toUpper == k) := by
  have h1 : (c == 'ſ') = false := by
    rw [beq_eq_false_iff_ne]; rintro rfl; revert h; decide
  have h2 : (c == '\u212A') = false := by
    rw [beq_eq_false_iff_ne]; rintro rfl; revert h; decide
  simp [foldsTo, h1, h2]

theorem isMarkerChar_toUpper {c : Char} (h : c.toNat < 128) :
    isMarkerChar c.toUpper = isMarkerChar c :=
  forall_ascii (p := fun c => isMarkerChar c.toUpper = isMarkerChar c) (by decide +kernel) h

theorem lt_of_isMarkerChar {c : Char} (h : isMarkerChar c = true) : c.toNat < 128 := by
  have hcode : (((65 ≤ c.val ∧ c.val ≤ 90) ∨ (97 ≤ c.val ∧ c.val ≤ 122))
      ∨ (48 ≤ c.val ∧ c.val ≤ 57)) ∨ c = '_' := by
    have hb : (((decide (65 ≤ c.val ∧ c.val ≤ 90) || (decide (97 ≤ c.val) && decide (c.val ≤ 122)))
      || (decide (48 ≤ c.val) && decide (c.val ≤ 57))) || c == '_') = true := h
    simpa only [Bool.or_eq_true, Bool.and_eq_true, decide_eq_true_eq, beq_iff_eq] using hb
  rcases hcode with ((h | h) | h) | rfl
  · exact Nat.lt_of_le_of_lt (UInt32.le_iff_toNat_le.1 h.2) (by decide)
  · exact Nat.lt_of_le_of_lt (UInt32.le_iff_toNat_le.1 h.2) (by decide)
  · exact Nat.lt_of_le_of_lt (UInt32.le_iff_toNat_le.1 h.2) (by decide)
  · decide

theorem isBlank_of_isMarkerChar {c : Char} (h : isMarkerChar c = true) : isBlank c = false :=
  forall_ascii (p := fun c => isMarkerChar c = true → isBlank c = false) (by decide +kernel)
    (lt_of_isMarkerChar h) h

/-! ## Whole words -/

theorem markerWords_ne_nil (s : Text) : markerWords s ≠ [] := by
  cases s with
  | nil => simp [markerWords]
  | cons c s =>
    simp only [markerWords]; split
    · simp
    · split <;> simp

theorem markerWords_cons_of_sep {c : Char} (h : isMarkerChar c = false) (s : Text) :
    markerWords (c :: s) = [] :: markerWords s := by
  simp [markerWords, h]

theorem markerWords_cons_of_char {c : Char} {s w : Text} {ws : List Text}
    (h : isMarkerChar c = true) (hs : markerWords s = w :: ws) :
    markerWords (c :: s) = (c :: w) :: ws := by
  simp [markerWords, h, hs]

/-- The words of two texts with a character between them that is in no word. -/
theorem markerWords_append {c : Char} (h : isMarkerChar c = false) (s t : Text) :
    markerWords (s ++ c :: t) = markerWords s ++ markerWords t := by
  induction s with
  | nil => simpa [markerWords] using markerWords_cons_of_sep h t
  | cons d s ih =>
    by_cases hd : isMarkerChar d = true
    · obtain ⟨w, ws, hw⟩ := List.exists_cons_of_ne_nil (markerWords_ne_nil s)
      have hst : markerWords (s ++ c :: t) = w :: (ws ++ markerWords t) := by
        rw [ih, hw, List.cons_append]
      rw [List.cons_append, markerWords_cons_of_char hd hst, markerWords_cons_of_char hd hw,
        List.cons_append]
    · rw [Bool.not_eq_true] at hd
      rw [List.cons_append, markerWords_cons_of_sep hd, markerWords_cons_of_sep hd, ih,
        List.cons_append]

theorem markerWords_of_word {w : Text} (h : ∀ c ∈ w, isMarkerChar c = true) :
    markerWords w = [w] := by
  induction w with
  | nil => rfl
  | cons c w ih =>
    exact markerWords_cons_of_char (h c (by simp)) (ih fun d hd => h d (by simp [hd]))

theorem upper_cons (c : Char) (s : Text) : upper (c :: s) = c.toUpper :: upper s := rfl

theorem keywordEnd_append_cons {k : Text} {c : Char} (hc : ∀ x ∈ k, foldsTo x c = false)
    (s t : Text) : (keywordEnd k (s ++ c :: t)).isSome = (keywordEnd k (s ++ [c])).isSome := by
  induction k generalizing s with
  | nil =>
    have hsome : ∀ s : Text, (keywordEnd [] s).isSome = wordEnds s := by
      intro s
      simp only [keywordEnd, keyword, Option.bind_eq_bind, Option.bind_some]
      cases wordEnds s <;> rfl
    rw [hsome, hsome]
    cases s <;> rfl
  | cons x k ih =>
    cases s with
    | nil => simp [keywordEnd, keyword, hc x (by simp)]
    | cons d s =>
      have ih := ih (fun y hy => hc y (by simp [hy])) s
      by_cases hd : foldsTo x d = true
      · simpa [keywordEnd, keyword, hd] using ih
      · simp [keywordEnd, keyword, hd]

theorem keywordEnd_isSome_iff {k s : Text} (hk : ∀ c ∈ k, isMarkerChar c = true)
    (hs : IsAscii s) :
    (keywordEnd k s).isSome ↔ (markerWords (upper s)).head? = some k := by
  induction k generalizing s with
  | nil =>
    cases s with
    | nil => simp [keywordEnd, keyword, wordEnds, markerWords, upper]
    | cons c s =>
      have hm := isMarkerChar_toUpper hs.of_cons.1
      have hc : isWord c = isMarkerChar c := isWord_of_isAscii hs.of_cons.1
      obtain ⟨w, ws, hw⟩ := List.exists_cons_of_ne_nil (markerWords_ne_nil (upper s))
      rw [upper_cons]
      cases h : isMarkerChar c
      · rw [markerWords_cons_of_sep (hm.trans h)]
        simp [keywordEnd, keyword, wordEnds, hc, h]
      · rw [markerWords_cons_of_char (hm.trans h) hw]
        simp [keywordEnd, keyword, wordEnds, hc, h]
  | cons x k ih =>
    have hx := hk x (by simp)
    cases s with
    | nil => simp [keywordEnd, keyword, markerWords, upper]
    | cons c s =>
      obtain ⟨w, ws, hw⟩ := List.exists_cons_of_ne_nil (markerWords_ne_nil (upper s))
      have ih := ih (fun d hd => hk d (by simp [hd])) hs.of_cons.2
      rw [hw] at ih
      have hr : keywordEnd (x :: k) (c :: s) =
          if c.toUpper = x then keywordEnd k s else none := by
        simp only [keywordEnd, keyword, foldsTo_of_isAscii hs.of_cons.1, beq_iff_eq]
        split <;> rfl
      rw [upper_cons, hr]
      by_cases h : c.toUpper = x
      · rw [if_pos h, ih, h, markerWords_cons_of_char hx hw]
        simp
      · rw [if_neg h]
        by_cases hm : isMarkerChar c.toUpper = true
        · rw [markerWords_cons_of_char hm hw]; simp [h]
        · rw [markerWords_cons_of_sep (by simpa using hm)]; simp

/-! ## Readers that start with a word -/

/-- Whether what `f` reads starts with one of the words `ks`, blanks aside. -/
def StartsWith {α : Type} (ks : List Text) (f : Reader α) : Prop :=
  ∀ ⦃prev s a⦄, f prev s = some a →
    (wordStarts prev = true ∨ s.head?.any isBlank = true) ∧
      ∃ k ∈ ks, (keywordEnd k (blanks s)).isSome

theorem upper_append_cons (s t : Text) (c : Char) :
    upper (s ++ c :: t) = upper s ++ c.toUpper :: upper t := by
  rw [upper_append, upper_cons]

theorem isMarkerChar_toUpper_of_not_isWord {c : Char} (hc : c.toNat < 128)
    (h : isWord c = false) : isMarkerChar c.toUpper = false := by
  rw [isMarkerChar_toUpper hc]
  rwa [isWord_of_isAscii hc] at h

theorem blankRanges_disjoint :
    ∀ b ∈ blankRanges, ∀ w ∈ wordRanges, b.2 < w.1 ∨ w.2 < b.1 := by
  decide +kernel

theorem not_isWord_of_isBlank {c : Char} (h : isBlank c = true) : isWord c = false := by
  by_cases hc : c.toNat < 128
  · exact forall_ascii (p := fun c => isBlank c = true → isWord c = false) (by decide +kernel) hc h
  · have hs : c ≠ ' ' := by rintro rfl; exact hc (by decide)
    have hb : blankRanges.contains c = true := by
      simp only [isBlank, Bool.or_eq_true, beq_iff_eq, Bool.and_eq_true, decide_eq_true_eq] at h
      rcases h with (h | h) | h
      · exact absurd h hs
      · omega
      · exact h
    have ha : isAsciiWord c = false := by
      rw [← Bool.not_eq_true]
      exact fun hm => hc (lt_of_isMarkerChar hm)
    obtain ⟨b, hb, hl, hu⟩ := Ranges.contains_iff.1 hb
    have hw : wordRanges.contains c = false := by
      rw [← Bool.not_eq_true, Ranges.contains_iff]
      rintro ⟨w, hw, hwl, hwu⟩
      have := blankRanges_disjoint b hb w hw
      omega
    simp [isWord, ha, hw]

theorem wordEnds_of_blank {y : Text} (h : ∀ c ∈ y.head?, isBlank c = true) : wordEnds y = true := by
  cases y with
  | nil => rfl
  | cons c y => simp [wordEnds, not_isWord_of_isBlank (h c rfl)]

theorem wordEnds_blank (s : Text) : wordEnds (' ' :: s) = true := by
  simp [wordEnds, not_isWord_of_isBlank (c := ' ') (by decide)]

section
variable {c : Char} (h : c.toNat < 128 ∧ isAsciiWord c = false)
include h

theorem wordEnds_of_isAscii (s : Text) : wordEnds (c :: s) = true := by
  simp [wordEnds, not_isWord_of_isAscii h]

theorem wordStarts_of_isAscii : wordStarts (some c) = true := by
  simp [wordStarts, not_isWord_of_isAscii h]

end

theorem head?_markerWords_append {s t : Text} (ht : IsAscii t) (hw : wordEnds t = true) :
    (markerWords (upper (s ++ t))).head? = (markerWords (upper s)).head? := by
  cases t with
  | nil => simp
  | cons c t =>
    have hc : isWord c = false := by simpa [wordEnds] using hw
    rw [upper_append_cons, markerWords_append (isMarkerChar_toUpper_of_not_isWord ht.of_cons.1 hc),
      List.head?_append]
    obtain ⟨w, ws, h⟩ := List.exists_cons_of_ne_nil (markerWords_ne_nil (upper s))
    simp [h]

theorem mem_markerWords_of_head? {a b k : Text} (ha : IsAscii a)
    (hs : wordStarts a.getLast? = true) (hb : (markerWords (upper b)).head? = some k) :
    k ∈ markerWords (upper (a ++ b)) := by
  have hk := List.mem_of_head? hb
  rcases List.eq_nil_or_concat a with rfl | ⟨a, c, rfl⟩
  · simpa using hk
  · rw [List.concat_eq_append] at ha hs ⊢
    have hc : isWord c = false := by simpa [wordStarts] using hs
    have hm := isMarkerChar_toUpper_of_not_isWord (ha c (by simp)) hc
    rw [List.append_assoc, List.singleton_append, upper_append_cons, markerWords_append hm]
    exact List.mem_append_right _ hk

/-- Where no word goes on behind a text, what follows it does not count for the
keyword at its start. -/
theorem keywordEnd_append_isSome_iff {k s t : Text} (hk : ∀ c ∈ k, isMarkerChar c = true)
    (hs : IsAscii s) (ht : ∀ c ∈ t.head?, c.toNat < 128) (he : wordEnds t = true) :
    (keywordEnd k (s ++ t)).isSome ↔ (markerWords (upper s)).head? = some k := by
  cases t with
  | nil => rw [List.append_nil, keywordEnd_isSome_iff hk hs]
  | cons c t =>
    have hc : c.toNat < 128 := ht c rfl
    have hends : wordEnds [c] = true := he
    have hfold : ∀ x ∈ k, foldsTo x c = false := by
      intro x hx
      rw [foldsTo_of_isAscii hc, beq_eq_false_iff_ne]
      rintro rfl
      have := isMarkerChar_toUpper_of_not_isWord hc (by simpa [wordEnds] using he)
      rw [hk _ hx] at this
      cases this
    rw [keywordEnd_append_cons hfold,
      keywordEnd_isSome_iff hk (hs.append (.cons hc isAscii_nil)),
      head?_markerWords_append (.cons hc isAscii_nil) hends]

/-- A word can start behind the blanks of `b`, or before `b` where it has none. -/
theorem wordStarts_behind_takeWhile {prev : Option Char} {a b t : Text} (hne : b ≠ [])
    (h : wordStarts (a.getLast?.or prev) = true ∨ (b ++ t).head?.any isBlank = true) :
    wordStarts (a ++ b.takeWhile isBlank).getLast? = true := by
  cases hl : (b.takeWhile isBlank).getLast? with
  | none =>
    have hnil := List.getLast?_eq_none_iff.1 hl
    rw [hnil, List.append_nil]
    rcases h with h | h
    · cases hal : a.getLast? with
      | none => rfl
      | some c => simpa [hal] using h
    · obtain ⟨c, b, rfl⟩ := List.exists_cons_of_ne_nil hne
      have hc : isBlank c = true := by simpa using h
      simp [hc] at hnil
  | some c =>
    have hc : isBlank c = true := by
      have := List.mem_of_getLast? hl
      exact List.all_eq_true.1 List.all_takeWhile c this
    rw [List.getLast?_append, hl]
    simp [wordStarts, not_isWord_of_isBlank hc]

theorem StartsWith.passes_of_head {α : Type} {ks : List Text} {f : Reader α} (hf : StartsWith ks f)
    (hk : ∀ k ∈ ks, ∀ c ∈ k, isMarkerChar c = true) {s t : Text} (hs : IsAscii s)
    (ht : ∀ c ∈ t.head?, c.toNat < 128) (hw : ∀ k ∈ ks, k ∉ markerWords (upper s))
    (hb : s.getLast?.any isBlank = false) (he : wordEnds t = true) (prev : Option Char) :
    Passes f prev s t := by
  intro a b hab hne
  refine Option.eq_none_iff_forall_ne_some.2 fun x hx => ?_
  obtain ⟨hstart, k, hmem, hkw⟩ := hf hx
  have hlast : b.getLast? = s.getLast? := by
    rw [hab, List.getLast?_append]
    cases h : b.getLast? with
    | none => exact absurd (List.getLast?_eq_none_iff.1 h) hne
    | some c => rfl
  have hrest : b.dropWhile isBlank ≠ [] := dropWhile_ne_nil hne (hlast ▸ hb)
  have hblanks : blanks (b ++ t) = b.dropWhile isBlank ++ t := by
    rw [blanks, trimStart, List.dropWhile_append, if_neg (by simpa using hrest)]
  have hbs : IsAscii b := fun c hc => hs c (by simp [hab, hc])
  have has : IsAscii a := fun c hc => hs c (by simp [hab, hc])
  have hds : IsAscii (b.dropWhile isBlank) := fun c hc =>
    hbs c ((List.dropWhile_suffix isBlank).subset hc)
  have hts : IsAscii (b.takeWhile isBlank) := fun c hc =>
    hbs c ((List.takeWhile_prefix isBlank).subset hc)
  rw [hblanks, keywordEnd_append_isSome_iff (hk k hmem) hds ht he] at hkw
  apply hw k hmem
  have hsplit : s = (a ++ b.takeWhile isBlank) ++ b.dropWhile isBlank := by
    rw [List.append_assoc, List.takeWhile_append_dropWhile, ← hab]
  rw [hsplit]
  exact mem_markerWords_of_head? (has.append hts) (wordStarts_behind_takeWhile hne hstart) hkw

theorem StartsWith.passes {α : Type} {ks : List Text} {f : Reader α} (hf : StartsWith ks f)
    (hk : ∀ k ∈ ks, ∀ c ∈ k, isMarkerChar c = true) {s t : Text} (hs : IsAscii s) (ht : IsAscii t)
    (hw : ∀ k ∈ ks, k ∉ markerWords (upper s)) (hb : s.getLast?.any isBlank = false)
    (he : wordEnds t = true) (prev : Option Char) : Passes f prev s t :=
  hf.passes_of_head hk hs (fun c hc => ht c (List.mem_of_mem_head? hc)) hw hb he prev

end SchemaDialects.Text
