import SchemaDialects.Proofs.Definition.Chunks
import SchemaDialects.Proofs.Definition.Trailing

/-!
# Blanks at line breaks

Two texts with the same trimmed lines differ, once they are trimmed themselves, only in
the blanks around their line breaks. What scans a text without telling these blanks apart
finds the same in both.
-/

namespace SchemaDialects.Definition

open Text

/-- The lines that hold something, between their outer blanks. -/
def trimmedLines (s : Text) : List Text := ((lines s).map trim).filter (· ≠ [])

/-- Blanks with a line break among them. -/
structure IsBreak (b : Text) : Prop where
  blank : ∀ c ∈ b, isBlank c = true
  mem : '\n' ∈ b

/-- The texts differ only in the blanks around their line breaks. -/
inductive SameBreaks : Text → Text → Prop
  | nil : SameBreaks [] []
  | char (c : Char) {s t : Text} : SameBreaks s t → SameBreaks (c :: s) (c :: t)
  | gap {a b s t : Text} : IsBreak a → IsBreak b → SameBreaks s t → SameBreaks (a ++ s) (b ++ t)

/-- The class has all blanks or none. -/
def IsUniform (p : Char → Bool) : Prop :=
  ∀ c d, isBlank c = true → isBlank d = true → p c = p d

/-- The scanner does not tell line breaks apart by the blanks around them. -/
def KeepsBreaks (f : Scanner) : Prop :=
  ∀ ⦃s t⦄, SameBreaks s t → Option.Rel SameBreaks (f s) (f t)

/-! ## The relation -/

theorem IsBreak.exists_cons {b : Text} (h : IsBreak b) : ∃ c b', b = c :: b' ∧ isBlank c = true := by
  obtain ⟨c, b, rfl⟩ := List.exists_cons_of_ne_nil (List.ne_nil_of_mem h.mem)
  exact ⟨c, b, rfl, h.blank c (by simp)⟩

theorem isBreak_newline : IsBreak ['\n'] := ⟨by decide, by simp⟩

namespace SameBreaks

variable {s t u v : Text}

theorem refl (s : Text) : SameBreaks s s := by
  induction s with
  | nil => exact .nil
  | cons c s ih => exact .char c ih

theorem append (h : SameBreaks s t) (h' : SameBreaks u v) : SameBreaks (s ++ u) (t ++ v) := by
  induction h with
  | nil => exact h'
  | char c _ ih => exact .char c ih
  | gap ha hb _ ih =>
    rw [List.append_assoc, List.append_assoc]
    exact .gap ha hb ih

/-! ## Classes of characters -/

theorem any_head? {p : Char → Bool} (hp : IsUniform p) (h : SameBreaks s t) :
    s.head?.any p = t.head?.any p := by
  cases h with
  | nil => rfl
  | char c h => rfl
  | gap ha hb h =>
    obtain ⟨c, a, rfl, hc⟩ := ha.exists_cons
    obtain ⟨d, b, rfl, hd⟩ := hb.exists_cons
    exact hp c d hc hd

theorem dropWhile {p : Char → Bool} (hp : IsUniform p) (h : SameBreaks s t) :
    SameBreaks (s.dropWhile p) (t.dropWhile p) := by
  induction h with
  | nil => exact .nil
  | @char c s t h ih =>
    by_cases hc : p c = true
    · rw [List.dropWhile_cons_of_pos hc, List.dropWhile_cons_of_pos hc]
      exact ih
    · rw [List.dropWhile_cons_of_neg hc, List.dropWhile_cons_of_neg hc]
      exact .char c h
  | @gap a b s t ha hb h ih =>
    have hall {x : Text} (hx : IsBreak x) : ∀ c ∈ x, p c = p '\n' := fun c hc =>
      hp c '\n' (hx.blank c hc) (by decide)
    by_cases hn : p '\n' = true
    · rw [List.dropWhile_append_of_pos fun c hc => (hall ha c hc).trans hn,
        List.dropWhile_append_of_pos fun c hc => (hall hb c hc).trans hn]
      exact ih
    · have hstays {x : Text} (hx : IsBreak x) (y : Text) : (x ++ y).dropWhile p = x ++ y := by
        obtain ⟨c, x, rfl, -⟩ := hx.exists_cons
        exact List.dropWhile_cons_of_neg (by rw [hall hx c (by simp)]; exact hn)
      rw [hstays ha, hstays hb]
      exact .gap ha hb h

theorem takeWhile_eq {p : Char → Bool} (hp : ∀ c, isBlank c = true → p c = false)
    (h : SameBreaks s t) : s.takeWhile p = t.takeWhile p := by
  induction h with
  | nil => rfl
  | char c h ih => rw [List.takeWhile_cons, List.takeWhile_cons, ih]
  | gap ha hb h ih =>
    obtain ⟨c, a, rfl, hc⟩ := ha.exists_cons
    obtain ⟨d, b, rfl, hd⟩ := hb.exists_cons
    rw [List.cons_append, List.cons_append, List.takeWhile_cons_of_neg (by simp [hp c hc]),
      List.takeWhile_cons_of_neg (by simp [hp d hd])]

theorem blanks (h : SameBreaks s t) : SameBreaks (blanks s) (Text.blanks t) :=
  h.dropWhile fun _ _ hc hd => hc.trans hd.symm

theorem wordEnds_eq (h : SameBreaks s t) : wordEnds s = wordEnds t := by
  have hword : IsUniform isWord := fun c d hc hd =>
    (not_isWord_of_isBlank hc).trans (not_isWord_of_isBlank hd).symm
  rw [wordEnds, wordEnds, h.any_head? hword]

theorem run_eq {p : Char → Bool} (hp : ∀ c, isBlank c = true → p c = false)
    (h : SameBreaks s t) : (run p s).map Prod.fst = (run p t).map Prod.fst := by
  rw [run, run, h.takeWhile_eq hp]
  split <;> rfl

end SameBreaks

/-! ## Scanners -/

section
variable {α β : Type} {r : α → β → Prop} {x x' : Option α} {y y' : Option β}

theorem rel_getD (h : Option.Rel r x y) {a : α} {b : β} (hab : r a b) :
    r (x.getD a) (y.getD b) := by
  cases h with
  | none => exact hab
  | some h => exact h

theorem rel_or (h : Option.Rel r x y) (h' : Option.Rel r x' y') :
    Option.Rel r (x.or x') (y.or y') := by
  cases h with
  | none => exact h'
  | some h => exact .some h

theorem rel_bind {γ δ : Type} {q : γ → δ → Prop} {f : α → Option γ} {g : β → Option δ}
    (h : Option.Rel r x y) (hfg : ∀ a b, r a b → Option.Rel q (f a) (g b)) :
    Option.Rel q (x >>= f) (y >>= g) := by
  cases h with
  | none => exact .none
  | some h => exact hfg _ _ h

theorem isSome_eq_of_rel (h : Option.Rel r x y) : x.isSome = y.isSome := by
  cases h <;> rfl

theorem bind_eq_of_rel {γ : Type} {f : α → Option γ} {g : β → Option γ} (h : Option.Rel r x y)
    (hfg : ∀ a b, r a b → f a = g b) : x >>= f = y >>= g := by
  cases h with
  | none => rfl
  | some h => exact hfg _ _ h

end

section
variable {f g : Scanner}

theorem KeepsBreaks.optional (hf : KeepsBreaks f) {s t : Text} (h : SameBreaks s t) :
    SameBreaks (optional f s) (Text.optional f t) :=
  rel_getD (hf h) h

theorem KeepsBreaks.bind (hf : KeepsBreaks f) (hg : KeepsBreaks g) :
    KeepsBreaks fun s => f s >>= g :=
  fun _ _ h => rel_bind (hf h) fun _ _ h => hg h

theorem KeepsBreaks.or (hf : KeepsBreaks f) (hg : KeepsBreaks g) :
    KeepsBreaks fun s => (f s).or (g s) :=
  fun _ _ h => rel_or (hf h) (hg h)

theorem keepsBreaks_keyword {k : Text} (hk : ∀ x ∈ k, x.isAlpha = true) :
    KeepsBreaks (keyword k) := by
  induction k with
  | nil => exact fun s t h => .some h
  | cons x k ih =>
    have hstops {b : Text} (hb : IsBreak b) (y : Text) : keyword (x :: k) (b ++ y) = none := by
      obtain ⟨c, b, rfl, hc⟩ := hb.exists_cons
      refine keyword_of_head ?_ k (b ++ y)
      by_contra hf
      rw [isBlank_of_foldsTo (hk x (by simp)) (by simpa using hf)] at hc
      cases hc
    intro s t h
    cases h with
    | nil => exact .none
    | char c h =>
      rw [keyword, keyword]
      split
      · exact ih (fun y hy => hk y (by simp [hy])) h
      · exact .none
    | gap ha hb h =>
      rw [hstops ha, hstops hb]
      exact .none

theorem keepsBreaks_char {x : Char} (hx : isBlank x = false) : KeepsBreaks (char x) := by
  have hstops {b : Text} (hb : IsBreak b) (y : Text) : char x (b ++ y) = none := by
    obtain ⟨c, b, rfl, hc⟩ := hb.exists_cons
    refine if_neg ?_
    rintro rfl
    rw [hx] at hc
    cases hc
  intro s t h
  cases h with
  | nil => exact .none
  | char c h =>
    rw [Text.char, Text.char]
    split
    · exact .some h
    · exact .none
  | gap ha hb h =>
    rw [hstops ha, hstops hb]
    exact .none

theorem keepsBreaks_blanks1 : KeepsBreaks blanks1 := by
  have hreads {b : Text} (hb : IsBreak b) (y : Text) :
      blanks1 (b ++ y) = some (Text.blanks (b ++ y)) := by
    obtain ⟨c, b, rfl, hc⟩ := hb.exists_cons
    rw [List.cons_append, blanks1, many1, if_pos hc, Text.blanks, trimStart,
      List.dropWhile_cons_of_pos hc]
  intro s t h
  cases h with
  | nil => exact .none
  | char c h =>
    rw [blanks1, many1, many1]
    split
    · exact .some h.blanks
    · exact .none
  | gap ha hb h =>
    rw [hreads ha, hreads hb]
    exact .some (SameBreaks.gap ha hb h).blanks

variable {k : Text} (hk : ∀ x ∈ k, x.isAlpha = true)
include hk

theorem keepsBreaks_keywordBlanks : KeepsBreaks (keywordBlanks k) :=
  (keepsBreaks_keyword hk).bind keepsBreaks_blanks1

theorem keepsBreaks_keywordEnd : KeepsBreaks (keywordEnd k) := by
  refine (keepsBreaks_keyword hk).bind (g := fun s => if wordEnds s then some s else none) ?_
  intro s t h
  show Option.Rel _ (if wordEnds s then _ else _) (if wordEnds t then _ else _)
  rw [h.wordEnds_eq]
  split
  · exact .some h
  · exact .none

omit hk in
theorem keepsBreaks_keywords {ks : List Text} (hks : ∀ k ∈ ks, ∀ x ∈ k, x.isAlpha = true) :
    KeepsBreaks (keywords ks) := by
  induction ks with
  | nil => exact fun s t h => .some h
  | cons k ks ih =>
    exact (keepsBreaks_keywordBlanks (hks k (by simp))).bind
      (ih fun k hm => hks k (List.mem_cons_of_mem _ hm))

end

/-! ## Lines -/

theorem trimmedLines_eq (s : Text) :
    trimmedLines s = ((splitOn '\n' s).map trim).filter (· ≠ []) :=
  filter_map_lines trim_dropReturn rfl s

theorem trimmedLines_append (s t : Text) :
    trimmedLines (s ++ '\n' :: t) = trimmedLines s ++ trimmedLines t := by
  simp only [trimmedLines_eq, splitOn_append, List.map_append, List.filter_append]

theorem trimmedLines_of_line {s : Text} (h : '\n' ∉ s) :
    trimmedLines s = if trim s = [] then [] else [trim s] := by
  rw [trimmedLines_eq, splitOn_of_not_mem h]
  by_cases hs : trim s = [] <;> simp [hs]

theorem contentLines_eq_of_trimmedLines (s : Text) :
    contentLines s = ((trimmedLines s).map withoutComment).filter (· ≠ []) := by
  have hskip (ls : List Text) : (ls.map fun line => withoutComment (trim line)).filter (· ≠ []) =
      (((ls.map trim).filter (· ≠ [])).map withoutComment).filter (· ≠ []) := by
    induction ls with
    | nil => rfl
    | cons l ls ih =>
      rw [List.map_cons, List.map_cons, List.filter_cons, List.filter_cons, ih]
      by_cases hl : trim l = []
      · simp [hl, withoutComment, beforeComment]
      · simp [hl, List.filter_cons]
  exact hskip (lines s)

section
variable {b : Text}

theorem trimmedLines_blanks_append (hb : ∀ c ∈ b, isBlank c = true) (s : Text) :
    trimmedLines (b ++ s) = trimmedLines s := by
  induction b with
  | nil => rfl
  | cons c b ih =>
    rw [List.cons_append, ← ih fun d hd => hb d (List.mem_cons_of_mem c hd)]
    by_cases hc : c = '\n'
    · rw [hc]
      exact trimmedLines_append [] (b ++ s)
    · obtain ⟨l, ls, hl⟩ := List.exists_cons_of_ne_nil (splitOn_ne_nil '\n' (b ++ s))
      have hsplit : splitOn '\n' (c :: (b ++ s)) = (c :: l) :: ls := by
        rw [splitOn, if_neg hc, hl]
      have htrim : trim (c :: l) = trim l :=
        trim_append_of_blank (s := [c]) (by simpa using hb c (by simp))
      rw [trimmedLines_eq, trimmedLines_eq, hsplit, hl, List.map_cons, htrim, List.map_cons]

theorem trimmedLines_append_blanks (s : Text) (hb : ∀ c ∈ b, isBlank c = true) (hn : '\n' ∉ b) :
    trimmedLines (s ++ b) = trimmedLines s := by
  obtain ⟨hbreak, hs⟩ := exists_lastLine s
  have hline : trimmedLines (lastLine s ++ b) = trimmedLines (lastLine s) := by
    rw [trimmedLines_of_line (by simp [hbreak, hn]), trimmedLines_of_line hbreak,
      trim_append_blank hb]
  rcases hs with hs | ⟨w, hs⟩
  · rwa [← hs] at hline
  · rw [hs, List.append_assoc, List.cons_append, trimmedLines_append, hline, trimmedLines_append]

end

theorem IsBreak.trimmedLines_append {a : Text} (ha : IsBreak a) (s t : Text) :
    trimmedLines (s ++ (a ++ t)) = trimmedLines s ++ trimmedLines t := by
  obtain ⟨b, d, rfl, hn⟩ := List.eq_append_cons_of_mem ha.mem
  have hb : ∀ c ∈ b, isBlank c = true := fun c hc => ha.blank c (by simp [hc])
  have hd : ∀ c ∈ d, isBlank c = true := fun c hc => ha.blank c (by simp [hc])
  have hassoc : s ++ (b ++ '\n' :: d ++ t) = s ++ b ++ '\n' :: (d ++ t) := by simp
  rw [hassoc, Definition.trimmedLines_append, trimmedLines_append_blanks s hb hn,
    trimmedLines_blanks_append hd]

namespace SameBreaks

variable {s t : Text}

theorem trimmedLines_append_eq (h : SameBreaks s t) (p : Text) :
    trimmedLines (p ++ s) = trimmedLines (p ++ t) := by
  induction h generalizing p with
  | nil => rfl
  | @char c s t h ih =>
    rw [List.append_cons p c s, List.append_cons p c t]
    exact ih (p ++ [c])
  | gap ha hb h ih =>
    rw [ha.trimmedLines_append, hb.trimmedLines_append]
    exact congrArg _ (ih [])

theorem contentLines_eq (h : SameBreaks s t) : contentLines s = contentLines t := by
  have hlines : trimmedLines s = trimmedLines t := h.trimmedLines_append_eq []
  rw [contentLines_eq_of_trimmedLines, hlines, ← contentLines_eq_of_trimmedLines]

theorem eq_nil_iff (h : SameBreaks s t) : s = [] ↔ t = [] := by
  have hhead : s.head?.any (fun _ => true) = t.head?.any (fun _ => true) :=
    h.any_head? fun _ _ _ _ => rfl
  cases s <;> cases t <;> simp at hhead ⊢

end SameBreaks

theorem exists_trim (s : Text) : ∃ b e, s = b ++ (trim s ++ e) ∧ (∀ c ∈ b, isBlank c = true) ∧
    ∀ c ∈ e, isBlank c = true := by
  obtain ⟨b, hs, hb⟩ := exists_trimStart s
  obtain ⟨e, he, hblank⟩ := exists_dropEndWhile isBlank (trimStart s)
  exact ⟨b, e, by rw [trim, trimEnd, ← he, ← hs], hb, hblank⟩

theorem blanks_of_trim_eq_nil {s : Text} (h : trim s = []) : ∀ c ∈ s, isBlank c = true := by
  obtain ⟨b, e, hs, hb, he⟩ := exists_trim s
  rw [hs, h, List.nil_append]
  exact List.forall_mem_append.2 ⟨hb, he⟩

/-- Between two lines that hold something stands one line break. -/
theorem exists_trim_append {l r : Text} (hl : trim l ≠ []) (hr : trim r ≠ []) :
    ∃ b, IsBreak b ∧ trim (l ++ '\n' :: r) = trim l ++ (b ++ trim r) := by
  obtain ⟨bl, el, hls, hbl, hel⟩ := exists_trim l
  obtain ⟨br, er, hrs, hbr, her⟩ := exists_trim r
  refine ⟨el ++ '\n' :: br, ⟨?_, by simp⟩, ?_⟩
  · exact List.forall_mem_append.2 ⟨hel, List.forall_mem_cons.2 ⟨by decide, hbr⟩⟩
  · have hs : l ++ '\n' :: r = bl ++ (trim l ++ ((el ++ '\n' :: br) ++ trim r) ++ er) := by
      conv_lhs => rw [hls, hrs]
      simp
    rw [hs, trim_append_of_blank hbl, trim_append_blank her]
    refine trim_eq_self ?_ ?_
    · rw [List.head?_append_of_ne_nil _ hl]
      exact head_trim l
    · rw [List.getLast?_append_of_ne_nil _ (List.append_ne_nil_of_right_ne_nil _ hr),
        List.getLast?_append_of_ne_nil _ hr]
      exact last_dropEndWhile (trimStart r)

/-- A trimmed text differs from its trimmed lines, one per line, only at its line
breaks. -/
theorem sameBreaks_trim (s : Text) : SameBreaks (trim s) (join ['\n'] (trimmedLines s)) := by
  by_cases hn : '\n' ∈ s
  · obtain ⟨l, r, hs, hl⟩ := List.eq_append_cons_of_mem hn
    have ih := sameBreaks_trim r
    rw [hs, trimmedLines_append, trimmedLines_of_line hl]
    by_cases hlt : trim l = []
    · have hblank : ∀ c ∈ l ++ ['\n'], isBlank c = true :=
        List.forall_mem_append.2 ⟨blanks_of_trim_eq_nil hlt, by decide⟩
      rw [if_pos hlt, List.append_cons, trim_append_of_blank hblank]
      exact ih
    · rw [if_neg hlt]
      by_cases hrt : trim r = []
      · have hblank := blanks_of_trim_eq_nil hrt
        have hlines : trimmedLines r = [] := by
          rw [← List.append_nil r, trimmedLines_blanks_append hblank]
          rfl
        rw [hlines, trim_append_blank (List.forall_mem_cons.2 ⟨by decide, hblank⟩)]
        exact .refl _
      · obtain ⟨b, hb, htrim⟩ := exists_trim_append hlt hrt
        have hne : trimmedLines r ≠ [] := by
          intro hlines
          rw [hlines] at ih
          exact hrt (ih.eq_nil_iff.2 rfl)
        obtain ⟨x, xs, hx⟩ := List.exists_cons_of_ne_nil hne
        rw [htrim, hx, List.singleton_append, join, List.append_assoc, ← hx]
        exact (SameBreaks.refl _).append (.gap hb isBreak_newline ih)
  · rw [trimmedLines_of_line hn]
    split
    · next h =>
      rw [h]
      exact .nil
    · exact .refl _
termination_by s.length
decreasing_by
  rw [hs]
  simp only [List.length_append, List.length_cons]
  omega

end SchemaDialects.Definition
