import Mathlib.Data.List.DropRight
import SchemaDialects.Text.Basic

/-!
# Trimming and cutting

Blanks at the ends of a text do not count once it is trimmed, and a text is cut
the same way on both sides of a separator.
-/

namespace SchemaDialects.Text

/-- A fact about the members of a list is decided over the list, also where the
members' type is finite. -/
instance (priority := 1100) decidableForallMem {α : Type} (p : α → Prop) [DecidablePred p]
    (l : List α) : Decidable (∀ x ∈ l, p x) :=
  List.decidableBAll p l

instance (priority := 1100) decidableExistsMem {α : Type} (p : α → Prop) [DecidablePred p]
    (l : List α) : Decidable (∃ x ∈ l, p x) :=
  List.decidableBEx p l

theorem dropWhile_ne_nil {α : Type} {p : α → Bool} {l : List α} (hne : l ≠ [])
    (h : l.getLast?.any p = false) : l.dropWhile p ≠ [] := by
  rw [Ne, List.dropWhile_eq_nil_iff]
  intro hall
  have := hall _ (List.getLast_mem hne)
  rw [List.getLast?_eq_some_getLast hne] at h
  simp [this] at h

theorem dropWhile_eq_self {α : Type} {p : α → Bool} {l : List α} (h : l.head?.any p = false) :
    l.dropWhile p = l := by
  cases l with
  | nil => rfl
  | cons x l => exact List.dropWhile_cons_of_neg (by simpa using h)

/-! ## The end of a text -/

section
variable {p : Char → Bool}

theorem dropEndWhile_eq_self {s : Text} (h : s.getLast?.any p = false) : dropEndWhile p s = s := by
  rw [dropEndWhile, dropWhile_eq_self (by simpa using h), List.reverse_reverse]

theorem dropEndWhile_append_of_all {s t : Text} (h : ∀ c ∈ t, p c = true) :
    dropEndWhile p (s ++ t) = dropEndWhile p s := by
  rw [dropEndWhile, List.reverse_append, List.dropWhile_append_of_pos (by simpa using h)]
  rfl

theorem dropEndWhile_append_of_ne {s t : Text} (h : dropEndWhile p t ≠ []) :
    dropEndWhile p (s ++ t) = s ++ dropEndWhile p t := by
  have h' : (t.reverse.dropWhile p).isEmpty = false := by simpa [dropEndWhile] using h
  rw [dropEndWhile, List.reverse_append, List.dropWhile_append, h']
  simp [dropEndWhile]

theorem isPrefix_dropEndWhile (p : Char → Bool) (s : Text) : dropEndWhile p s <+: s :=
  List.rdropWhile_prefix p s

theorem exists_dropEndWhile (p : Char → Bool) (s : Text) :
    ∃ b, s = dropEndWhile p s ++ b ∧ ∀ c ∈ b, p c = true := by
  refine ⟨(s.reverse.takeWhile p).reverse, ?_, fun c hc => ?_⟩
  · rw [dropEndWhile, ← List.reverse_append, List.takeWhile_append_dropWhile, List.reverse_reverse]
  · exact List.mem_takeWhile_imp (List.mem_reverse.1 hc)

theorem last_dropEndWhile (s : Text) : (dropEndWhile p s).getLast?.any p = false := by
  rw [dropEndWhile, List.getLast?_reverse]
  have := List.head?_dropWhile_not p s.reverse
  cases h : (s.reverse.dropWhile p).head? with
  | none => rfl
  | some c => simpa [h] using this

end

/-! ## Trimming -/

theorem trimStart_eq_self {s : Text} (h : s.head?.any isBlank = false) : trimStart s = s :=
  dropWhile_eq_self h

theorem trimEnd_eq_self {s : Text} (h : s.getLast?.any isBlank = false) : trimEnd s = s :=
  dropEndWhile_eq_self h

theorem trim_eq_self {s : Text} (hs : s.head?.any isBlank = false)
    (he : s.getLast?.any isBlank = false) : trim s = s := by
  rw [trim, trimStart_eq_self hs, trimEnd_eq_self he]

theorem trimStart_append_of_blank {s t : Text} (h : ∀ c ∈ s, isBlank c = true) :
    trimStart (s ++ t) = trimStart t :=
  List.dropWhile_append_of_pos h

theorem trim_append_of_blank {s t : Text} (h : ∀ c ∈ s, isBlank c = true) :
    trim (s ++ t) = trim t := by
  rw [trim, trimStart_append_of_blank h, trim]

theorem trimEnd_cons (c : Char) (s : Text) :
    trimEnd (c :: s) =
      if trimEnd s = [] then (if isBlank c then [] else [c]) else c :: trimEnd s := by
  split
  · next h =>
    have hall : ∀ x ∈ s, isBlank x = true := by
      rw [trimEnd, dropEndWhile, List.reverse_eq_nil_iff, List.dropWhile_eq_nil_iff] at h
      intro x hx
      exact h x (List.mem_reverse.2 hx)
    have := dropEndWhile_append_of_all (s := [c]) hall
    rw [List.singleton_append] at this
    rw [trimEnd, this]
    by_cases hc : isBlank c = true <;> simp [dropEndWhile, hc]
  · next h => exact dropEndWhile_append_of_ne (s := [c]) h

theorem trimEnd_append_of_ne {s t : Text} (h : trimEnd t ≠ []) :
    trimEnd (s ++ t) = s ++ trimEnd t :=
  dropEndWhile_append_of_ne h

theorem trimEnd_eq_nil_iff {s : Text} : trimEnd s = [] ↔ ∀ c ∈ s, isBlank c = true := by
  rw [trimEnd, dropEndWhile, List.reverse_eq_nil_iff, List.dropWhile_eq_nil_iff]
  simp

theorem trim_append_blank {s t : Text} (h : ∀ c ∈ t, isBlank c = true) :
    trim (s ++ t) = trim s := by
  by_cases hs : ∀ c ∈ s, isBlank c = true
  · rw [trim_append_of_blank hs, trim, trim, trimStart, trimStart,
      List.dropWhile_eq_nil_iff.2 h, List.dropWhile_eq_nil_iff.2 hs]
  · have hne : (s.dropWhile isBlank).isEmpty = false := by
      rw [List.isEmpty_eq_false_iff, Ne, List.dropWhile_eq_nil_iff]
      exact hs
    rw [trim, trimStart, List.dropWhile_append, hne]
    exact dropEndWhile_append_of_all h

theorem trim_dropReturn (s : Text) : trim (dropReturn s) = trim s := by
  rw [dropReturn]
  split
  · next h =>
    obtain ⟨t, rfl⟩ := List.getLast?_eq_some_iff.1 h
    rw [List.dropLast_concat, trim_append_blank (by decide)]
  · rfl

/-! ## Cutting at a separator -/

theorem splitOn_of_not_mem {sep : Char} {s : Text} (h : sep ∉ s) : splitOn sep s = [s] := by
  induction s with
  | nil => rfl
  | cons c s ih =>
    have hc : c ≠ sep := fun e => h (by simp [e])
    rw [splitOn, if_neg hc, ih fun hs => h (by simp [hs])]

theorem not_mem_of_mem_splitOn {sep : Char} {s p : Text} (h : p ∈ splitOn sep s) : sep ∉ p := by
  induction s generalizing p with
  | nil =>
    rw [splitOn, List.mem_singleton] at h
    simp [h]
  | cons c s ih =>
    rw [splitOn] at h
    split at h
    · rcases List.mem_cons.1 h with rfl | h
      · simp
      · exact ih h
    · next hc =>
      obtain ⟨q, qs, hq⟩ := List.exists_cons_of_ne_nil (splitOn_ne_nil sep s)
      rw [hq] at h ih
      rcases List.mem_cons.1 h with rfl | h
      · intro hm
        rcases List.mem_cons.1 hm with rfl | hm
        · exact hc rfl
        · exact ih (by simp) hm
      · exact ih (List.mem_cons_of_mem _ h)

theorem splitOn_append (sep : Char) (s t : Text) :
    splitOn sep (s ++ sep :: t) = splitOn sep s ++ splitOn sep t := by
  induction s with
  | nil => simp [splitOn]
  | cons c s ih =>
    obtain ⟨p, ps, hp⟩ := List.exists_cons_of_ne_nil (splitOn_ne_nil sep s)
    rw [List.cons_append, splitOn, splitOn]
    split
    · rw [ih, List.cons_append]
    · rw [ih, hp]
      rfl

/-- The carriage returns at the ends of lines and an empty last line do not count for
what ignores them. -/
theorem filter_map_lines {f : Text → Text} (hreturn : ∀ line, f (dropReturn line) = f line)
    (hnil : f [] = []) (s : Text) :
    ((lines s).map f).filter (· ≠ []) = ((splitOn '\n' s).map f).filter (· ≠ []) := by
  have hlast : splitOn '\n' s = (splitOn '\n' s).dropLast ++ [(splitOn '\n' s).getLastD []] := by
    rw [List.getLastD_eq_getLast?, List.getLast?_eq_some_getLast (splitOn_ne_nil _ _)]
    exact (List.dropLast_append_getLast _).symm
  have hmap : ((splitOn '\n' s).dropLast.map dropReturn).map f
      = (splitOn '\n' s).dropLast.map f := by
    rw [List.map_map]
    exact List.map_congr_left fun l _ => hreturn l
  rw [lines, List.map_append, List.filter_append, hmap]
  conv_rhs => rw [hlast]
  rw [List.map_append, List.filter_append]
  congr 1
  split
  · next h =>
    rw [h, List.map_singleton, hnil]
    rfl
  · rfl

end SchemaDialects.Text
