import SchemaDialects.Definition.Lines
import SchemaDialects.Proofs.Text.Trim

/-!
# Lines laid out and read back

The content lines of a text are the contents of the pieces between its line
feeds. A header, definitions with commas between them and a closing line,
written one per line, are read back as they were.
-/

namespace SchemaDialects.Definition

open Text

/-- What a line holds apart from outer blanks and its comment. -/
def content (line : Text) : Text := withoutComment (trim line)

@[simp] theorem content_nil : content [] = [] := rfl

theorem content_dropReturn (line : Text) : content (dropReturn line) = content line := by
  rw [content, trim_dropReturn, content]

theorem contentLines_eq (s : Text) :
    contentLines s = ((splitOn '\n' s).map content).filter (· ≠ []) :=
  filter_map_lines content_dropReturn content_nil s

theorem contentLines_append (s t : Text) :
    contentLines (s ++ '\n' :: t) = contentLines s ++ contentLines t := by
  simp only [contentLines_eq, splitOn_append, List.map_append, List.filter_append]

theorem contentLines_of_line {s : Text} (h : '\n' ∉ s) :
    contentLines s = if content s = [] then [] else [content s] := by
  rw [contentLines_eq, splitOn_of_not_mem h]
  by_cases hc : content s = [] <;> simp [hc]

/-! ## The contents of lines -/

theorem isPrefix_beforeComment {q : Option Char} {s u : Text} (h : beforeComment q s = some u) :
    u <+: s := by
  induction s generalizing q u with
  | nil => cases h
  | cons c s ih =>
    have hcons : ∀ {q}, (beforeComment q s).map (c :: ·) = some u → u <+: c :: s := by
      intro q h
      obtain ⟨v, hv, rfl⟩ := Option.map_eq_some_iff.1 h
      exact (List.cons_prefix_cons).2 ⟨rfl, ih hv⟩
    cases q with
    | some q => exact hcons h
    | none =>
      rw [beforeComment] at h
      split at h
      · obtain rfl := Option.some.inj h
        exact List.nil_prefix
      · exact hcons h

theorem isPrefix_withoutComment (s : Text) : withoutComment s <+: s := by
  unfold withoutComment
  cases h : beforeComment none s with
  | none => exact List.prefix_refl s
  | some u => exact (isPrefix_dropEndWhile _ u).trans (isPrefix_beforeComment h)

theorem any_head_of_isPrefix {p : Char → Bool} {s t : Text} (h : s <+: t) (ht : t.head?.any p = false) :
    s.head?.any p = false := by
  obtain ⟨u, rfl⟩ := h
  cases s with
  | nil => rfl
  | cons c s => exact ht

theorem head_trimStart (s : Text) : (trimStart s).head?.any isBlank = false := by
  have := List.head?_dropWhile_not isBlank s
  rw [trimStart]
  cases h : (s.dropWhile isBlank).head? with
  | none => rfl
  | some c => simpa [h] using this

theorem head_trim (s : Text) : (trim s).head?.any isBlank = false :=
  any_head_of_isPrefix (isPrefix_dropEndWhile _ _) (head_trimStart s)

theorem trim_trim (s : Text) : trim (trim s) = trim s :=
  trim_eq_self (head_trim s) (last_dropEndWhile _)

theorem ends_content (line : Text) :
    (content line).head?.any isBlank = false ∧ (content line).getLast?.any isBlank = false := by
  refine ⟨any_head_of_isPrefix (isPrefix_withoutComment _) (head_trim line), ?_⟩
  unfold content withoutComment
  cases beforeComment none (trim line) with
  | none => exact last_dropEndWhile _
  | some u => exact last_dropEndWhile u

theorem content_subset (line : Text) : ∀ c ∈ content line, c ∈ line := fun _ hc =>
  (List.dropWhile_suffix _).subset ((isPrefix_dropEndWhile _ _).subset
    ((isPrefix_withoutComment _).subset hc))

theorem ends_of_mem_contentLines {s l : Text} (h : l ∈ contentLines s) :
    l.head?.any isBlank = false ∧ l.getLast?.any isBlank = false ∧ '\n' ∉ l := by
  rw [contentLines_eq] at h
  obtain ⟨line, hline, rfl⟩ := List.mem_map.1 (List.mem_filter.1 h).1
  have hends := ends_content line
  exact ⟨hends.1, hends.2, fun hm => not_mem_of_mem_splitOn hline (content_subset line _ hm)⟩

/-! ## Lines that are read as they stand -/

/-- A line with no blanks at its ends, no comment and no line feed. -/
structure IsLine (s : Text) : Prop where
  ne_nil : s ≠ []
  no_break : '\n' ∉ s
  head : s.head?.any isBlank = false
  last : s.getLast?.any isBlank = false
  no_comment : beforeComment none s = none

/-- A definition that is written on one line. -/
structure IsDefinition (s : Text) : Prop extends IsLine s where
  no_comma : s.getLast? ≠ some ','
  not_closing : isClosing s = false

theorem IsLine.content_eq {s b e : Text} (h : IsLine s) (hb : ∀ c ∈ b, isBlank c = true)
    (he : ∀ c ∈ e, isBlank c = true) : content (b ++ s ++ e) = s := by
  rw [content, trim_append_blank he, trim_append_of_blank hb, trim_eq_self h.head h.last,
    withoutComment, h.no_comment]

theorem beforeComment_concat {c : Char} (hc : c ≠ '-') {q : Option Char} {s : Text}
    (h : beforeComment q s = none) : beforeComment q (s ++ [c]) = none := by
  induction s generalizing q with
  | nil => cases q <;> simp [beforeComment, hc]
  | cons d s ih =>
    rw [List.cons_append]
    cases q with
    | some q =>
      simp only [beforeComment, Option.map_eq_none_iff] at h ⊢
      exact ih h
    | none =>
      simp only [beforeComment] at h ⊢
      split at h
      · cases h
      · next hd =>
        have hd' : ¬ (d = '-' ∧ (s ++ [c]).head? = some '-') := by
          rintro ⟨rfl, hs⟩
          cases s with
          | nil => exact hc (by simpa using hs)
          | cons e s => exact hd ⟨rfl, by simpa using hs⟩
        rw [if_neg hd']
        simp only [Option.map_eq_none_iff] at h ⊢
        exact ih h

theorem IsLine.concat {c : Char} {s : Text} (h : IsLine s) (hb : isBlank c = false)
    (hc : c ≠ '-') : IsLine (s ++ [c]) where
  ne_nil := by simp
  no_break := by
    have : c ≠ '\n' := by rintro rfl; revert hb; decide
    simp [h.no_break, this.symm]
  head := by
    obtain ⟨d, s, rfl⟩ := List.exists_cons_of_ne_nil h.ne_nil
    exact h.head
  last := by simp [hb]
  no_comment := beforeComment_concat hc h.no_comment

/-! ## A laid-out table -/

theorem contentLines_join {defs : List Text} (h : ∀ d ∈ defs, IsDefinition d) (hne : defs ≠ []) :
    contentLines ("  ".toList ++ join ",\n  ".toList defs)
      = defs.dropLast.map (· ++ [',']) ++ [defs.getLast hne] := by
  induction defs with
  | nil => exact absurd rfl hne
  | cons d defs ih =>
    have hd := h d (by simp)
    cases defs with
    | nil =>
      have hc : content ("  ".toList ++ d) = d := by
        simpa using hd.content_eq (b := "  ".toList) (e := []) (by decide) (by simp)
      have hb : '\n' ∉ "  ".toList ++ d := by simp [hd.no_break]
      rw [join, contentLines_of_line hb, hc, if_neg hd.ne_nil]
      rfl
    | cons e defs =>
      have hl := hd.concat (c := ',') (by decide) (by decide)
      have hc : content ("  ".toList ++ (d ++ [','])) = d ++ [','] := by
        simpa using hl.content_eq (b := "  ".toList) (e := []) (by decide) (by simp)
      have hb : '\n' ∉ "  ".toList ++ (d ++ [',']) := by simp [hd.no_break]
      have hs : "  ".toList ++ join ",\n  ".toList (d :: e :: defs)
          = ("  ".toList ++ (d ++ [','])) ++ '\n' :: ("  ".toList ++ join ",\n  ".toList (e :: defs)) := by
        simp [join]
      rw [hs, contentLines_append, contentLines_of_line hb, hc, if_neg (by simp),
        ih (fun x hx => h x (List.mem_cons_of_mem _ hx)) (by simp)]
      rfl

theorem not_comma {d : Text} (h : IsDefinition d) : d.getLast?.any (· == ',') = false := by
  have := h.no_comma
  cases hl : d.getLast? with
  | none => rfl
  | some c => simpa [hl] using this

theorem withoutComma_concat {d : Text} (h : IsDefinition d) : withoutComma (d ++ [',']) = d := by
  rw [withoutComma, dropEndWhile_append_of_all (by simp), dropEndWhile_eq_self (not_comma h),
    trimEnd_eq_self h.last]

theorem withoutComma_eq_self {d : Text} (h : IsDefinition d) : withoutComma d = d := by
  rw [withoutComma, dropEndWhile_eq_self (not_comma h), trimEnd_eq_self h.last]

theorem isClosing_concat {d : Text} (h : IsDefinition d) : isClosing (d ++ [',']) = false := by
  obtain ⟨c, d, rfl⟩ := List.exists_cons_of_ne_nil h.ne_nil
  exact h.not_closing

theorem exists_withoutComment {c : Char} (hb : isBlank c = false) (hd : c ≠ '-') (s : Text) :
    ∃ t, withoutComment (c :: s) = c :: t := by
  rw [withoutComment, beforeComment]
  simp only [show ¬ (c = '-' ∧ s.head? = some '-') by simp [hd], if_false]
  cases beforeComment _ s with
  | none => exact ⟨s, rfl⟩
  | some t =>
    by_cases ht : trimEnd t = []
    · exact ⟨[], by simp [trimEnd_cons, ht, hb]⟩
    · exact ⟨trimEnd t, by simp [trimEnd_cons, ht]⟩

theorem exists_content {c : Char} (hb : isBlank c = false) (hd : c ≠ '-') (s : Text) :
    ∃ t, content (c :: s) = c :: t := by
  obtain ⟨t, ht⟩ : ∃ t, trim (c :: s) = c :: t := by
    rw [trim, trimStart_eq_self (by simp [hb]), trimEnd_cons]
    split
    · exact ⟨[], by simp [hb]⟩
    · exact ⟨_, rfl⟩
  obtain ⟨u, hu⟩ := exists_withoutComment hb hd t
  exact ⟨u, by rw [content, ht, hu]⟩

theorem isClosing_content (s : Text) : isClosing (content (')' :: s)) = true := by
  obtain ⟨t, ht⟩ := exists_content (c := ')') (by decide) (by decide) s
  rw [ht]
  rfl

theorem content_closing_ne_nil (s : Text) : content (')' :: s) ≠ [] := by
  intro h
  have := isClosing_content s
  rw [h] at this
  cases this

theorem contentLines_ne_nil {c : Char} (hb : isBlank c = false) (hd : c ≠ '-') (s : Text) :
    contentLines (c :: s) ≠ [] := by
  have hc : c ≠ '\n' := by
    rintro rfl
    exact absurd hb (by decide)
  have hline : ∀ {v : Text}, '\n' ∉ v → contentLines (c :: v) ≠ [] := by
    intro v hv
    obtain ⟨t, ht⟩ := exists_content hb hd v
    rw [contentLines_of_line (by simp [hc.symm, hv]), ht]
    simp
  by_cases hs : '\n' ∈ s
  · obtain ⟨v, u, rfl, hv⟩ := List.eq_append_cons_of_mem hs
    rw [← List.cons_append, contentLines_append]
    simp [hline hv]
  · exact hline hs

theorem Layout.ofLines_of_closing {h cl : Text} {ds rest : List Text}
    (hd : ∀ d ∈ ds, isClosing d = false) (hc : isClosing cl = true) :
    Layout.ofLines (h :: (ds ++ cl :: rest)) = ⟨h, ds.map withoutComma, some cl⟩ := by
  have hp : ∀ d ∈ ds, (!isClosing d) = true := fun d hm => by simp [hd d hm]
  have ht : (ds ++ cl :: rest).takeWhile (fun l => !isClosing l) = ds := by
    rw [List.takeWhile_append_of_pos hp, List.takeWhile_cons_of_neg (by simp [hc]),
      List.append_nil]
  have hr : (ds ++ cl :: rest).dropWhile (fun l => !isClosing l) = cl :: rest := by
    rw [List.dropWhile_append_of_pos hp, List.dropWhile_cons_of_neg (by simp [hc])]
  simp only [Layout.ofLines, List.tail_cons, List.headD_cons, ht, hr, List.head?_cons]

/-- A table that is written one definition per line, with its definitions on the
lines between the header and the closing parenthesis. -/
def laidOut (header : Text) (defs : List Text) (ending : Text) : Text :=
  header ++ '\n' :: ("  ".toList ++ join ",\n  ".toList defs) ++ '\n' :: ')' :: ending

theorem ofLines_laidOut {header : Text} {defs : List Text} {ending : Text} (hh : IsLine header)
    (hd : ∀ d ∈ defs, IsDefinition d) (hne : defs ≠ []) (he : '\n' ∉ ending) :
    Layout.ofLines (contentLines (laidOut header defs ending))
      = ⟨header, defs, some (content (')' :: ending))⟩ := by
  have hc : content header = header := by
    simpa using hh.content_eq (b := []) (e := []) (by simp) (by simp)
  have hl : '\n' ∉ ')' :: ending := by simp [he]
  rw [laidOut, List.append_assoc, List.cons_append, contentLines_append, contentLines_append,
    contentLines_of_line hh.no_break, hc, if_neg hh.ne_nil, contentLines_join hd hne,
    contentLines_of_line hl, if_neg (content_closing_ne_nil _), List.singleton_append]
  rw [Layout.ofLines_of_closing ?_ (isClosing_content _)]
  · have hlast := hd _ (List.getLast_mem hne)
    rw [List.map_append, List.map_map, List.map_singleton, withoutComma_eq_self hlast]
    have hm : defs.dropLast.map (withoutComma ∘ (· ++ [','])) = defs.dropLast :=
      (List.map_congr_left fun d hm => withoutComma_concat (hd d (List.dropLast_subset _ hm))).trans
        (List.map_id' _)
    rw [hm, List.dropLast_append_getLast]
  · intro d hm
    rcases List.mem_append.1 hm with hm | hm
    · obtain ⟨d, hd', rfl⟩ := List.mem_map.1 hm
      exact isClosing_concat (hd d (List.dropLast_subset _ hd'))
    · rw [List.mem_singleton.1 hm]
      exact (hd _ (List.getLast_mem hne)).not_closing

end SchemaDialects.Definition
