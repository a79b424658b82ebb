import SchemaDialects.Proofs.Definition.Lines

/-!
# What follows on the last line

What is put behind a text counts on the text's last line only. Blanks do not
count there, and neither does a comment, unless the line's quotes hide it.
-/

namespace SchemaDialects.Definition

open Text

def lastLine (s : Text) : Text := (splitOn '\n' s).getLastD []

theorem lastLine_of_line {s : Text} (h : '\n' ∉ s) : lastLine s = s := by
  rw [lastLine, splitOn_of_not_mem h]
  rfl

theorem lastLine_append (s t : Text) : lastLine (s ++ '\n' :: t) = lastLine t := by
  rw [lastLine, splitOn_append, List.getLastD_eq_getLast?, List.getLast?_append, lastLine,
    List.getLastD_eq_getLast?, List.getLast?_eq_some_getLast (splitOn_ne_nil _ _), Option.some_or]

theorem exists_lastLine (s : Text) :
    '\n' ∉ lastLine s ∧ (s = lastLine s ∨ ∃ w, s = w ++ '\n' :: lastLine s) := by
  by_cases h : '\n' ∈ s
  · obtain ⟨t, w, ht, hw⟩ := List.eq_append_cons_of_mem (List.mem_reverse.2 h)
    have hs : s = w.reverse ++ '\n' :: t.reverse := by
      rw [← List.reverse_reverse s, ht]
      simp
    have hlast : lastLine s = t.reverse := by
      rw [hs, lastLine_append, lastLine_of_line (by simpa using hw)]
    exact ⟨by simpa [hlast] using hw, Or.inr ⟨w.reverse, by rw [hlast]; exact hs⟩⟩
  · exact ⟨by rwa [lastLine_of_line h], Or.inl (lastLine_of_line h).symm⟩

theorem contentLines_append_line {s w : Text} (hw : '\n' ∉ w)
    (h : content (lastLine s ++ w) = content (lastLine s)) :
    contentLines (s ++ w) = contentLines s := by
  obtain ⟨hbreak, hs⟩ := exists_lastLine s
  have hbreak' : '\n' ∉ lastLine s ++ w := by simp [hbreak, hw]
  have hline : contentLines (lastLine s ++ w) = contentLines (lastLine s) := by
    rw [contentLines_of_line hbreak', contentLines_of_line hbreak, h]
  rcases hs with hs | ⟨v, hs⟩
  · rw [hs]
    rwa [← hs] at hline ⊢
  · rw [hs, List.append_assoc, List.cons_append, contentLines_append, contentLines_append, hline]

/-! ## Blanks -/

theorem content_append_blank (line : Text) {b : Text} (hb : ∀ c ∈ b, isBlank c = true) :
    content (line ++ b) = content line := by
  rw [content, trim_append_blank hb, content]

theorem contentLines_append_blanks (s : Text) {b : Text} (hb : ∀ c ∈ b, isBlank c = true) :
    contentLines (s ++ b) = contentLines s := by
  induction b generalizing s with
  | nil => rw [List.append_nil]
  | cons c b ih =>
    have hstep : contentLines (s ++ [c]) = contentLines s := by
      by_cases hc : c = '\n'
      · have hnil : contentLines [] = [] := rfl
        rw [hc, contentLines_append, hnil, List.append_nil]
      · have hline : ∀ d ∈ [c], isBlank d = true := fun d hd => hb d (by simp_all)
        exact contentLines_append_line (by simpa using Ne.symm hc) (content_append_blank _ hline)
    rw [← List.singleton_append, ← List.append_assoc, ih _ fun d hd => hb d (by simp [hd]), hstep]

/-- A text that goes on, if at all, on the next line. -/
def EndsLine (t : Text) : Prop :=
  t = [] ∨ (∃ u, t = '\n' :: u) ∨ ∃ u, t = '\r' :: '\n' :: u

theorem EndsLine.contentLines {t : Text} (h : EndsLine t) :
    ∃ ls, ∀ s, contentLines (s ++ t) = contentLines s ++ ls := by
  rcases h with rfl | ⟨u, rfl⟩ | ⟨u, rfl⟩
  · exact ⟨[], fun s => by rw [List.append_nil, List.append_nil]⟩
  · exact ⟨_, fun s => contentLines_append s u⟩
  · refine ⟨Definition.contentLines u, fun s => ?_⟩
    have hs : s ++ '\r' :: '\n' :: u = (s ++ ['\r']) ++ '\n' :: u := by simp
    rw [hs, contentLines_append, contentLines_append_blanks s (b := ['\r']) (by decide)]

/-! ## Comments -/

/-- The quote that is open behind `c`. -/
def quoteAfter (q : Option Char) (c : Char) : Option Char :=
  match q with
  | some q => if c = q then none else some q
  | none => if c = '\'' ∨ c = '"' ∨ c = '`' then some c else none

theorem beforeComment_cons (q : Option Char) (c : Char) (s : Text) :
    beforeComment q (c :: s) = if q = none ∧ c = '-' ∧ s.head? = some '-' then some []
      else (beforeComment (quoteAfter q c) s).map (c :: ·) := by
  cases q with
  | none => simp [beforeComment, quoteAfter]
  | some q => simp [beforeComment, quoteAfter]

theorem beforeComment_append {q : Option Char} {s u : Text} (h : beforeComment q s = some u)
    (t : Text) : beforeComment q (s ++ t) = some u := by
  induction s generalizing q u with
  | nil => cases h
  | cons c s ih =>
    rw [List.cons_append]
    rw [beforeComment_cons] at h ⊢
    by_cases hd : q = none ∧ c = '-' ∧ s.head? = some '-'
    · have hhead : (s ++ t).head? = some '-' := by rw [List.head?_append, hd.2.2]; rfl
      rw [if_pos hd] at h
      rw [if_pos ⟨hd.1, hd.2.1, hhead⟩, h]
    · rw [if_neg hd] at h
      obtain ⟨v, hv, rfl⟩ := Option.map_eq_some_iff.1 h
      rw [if_neg, ih hv]
      · rfl
      · rintro ⟨hq, hc, hs⟩
        cases s with
        | nil => cases hv
        | cons d s => exact hd ⟨hq, hc, hs⟩

/-- Behind a part without a comment the search goes on with the quote that is open
there. The two dashes of a comment do not stand in both parts. -/
theorem beforeComment_append_of_none {q : Option Char} {s t : Text} (h : beforeComment q s = none)
    (hdash : t.head? ≠ some '-') :
    beforeComment q (s ++ t) = (beforeComment (s.foldl quoteAfter q) t).map (s ++ ·) := by
  induction s generalizing q with
  | nil => simp
  | cons c s ih =>
    rw [beforeComment_cons] at h
    rw [List.cons_append, beforeComment_cons, List.foldl_cons]
    by_cases hd : q = none ∧ c = '-' ∧ s.head? = some '-'
    · rw [if_pos hd] at h
      cases h
    · rw [if_neg hd] at h
      rw [if_neg, ih (Option.map_eq_none_iff.1 h), Option.map_map]
      · rfl
      · rintro ⟨hq, hc, hhead⟩
        cases s with
        | nil => exact hdash hhead
        | cons e s => exact hd ⟨hq, hc, hhead⟩

theorem beforeComment_blanks_dashes {b : Text} (hb : ∀ c ∈ b, isBlank c = true) {q : Option Char}
    {u : Text} (h : beforeComment q (b ++ "--".toList) = some u) : u = b := by
  induction b generalizing q u with
  | nil =>
    have hdashes : ∀ q, beforeComment (some q) "--".toList = none := by
      intro q
      by_cases hq : '-' = q
      · rw [← hq]
        rfl
      · simp [beforeComment, hq]
    cases q with
    | none => exact (Option.some.inj h).symm
    | some q =>
      rw [List.nil_append, hdashes] at h
      cases h
  | cons c b ih =>
    have hc : c ≠ '-' := by
      rintro rfl
      exact absurd (hb '-' (by simp)) (by decide)
    rw [List.cons_append, beforeComment_cons, if_neg fun hd => hc hd.2.1] at h
    obtain ⟨v, hv, rfl⟩ := Option.map_eq_some_iff.1 h
    rw [ih (fun d hd => hb d (by simp [hd])) hv]

/-- A comment behind blanks is cut where it starts, if at all. -/
theorem beforeComment_blanks {b : Text} (hb : ∀ c ∈ b, isBlank c = true) (hne : b ≠ [])
    {q : Option Char} {s u : Text} (hs : beforeComment q s = none)
    (h : beforeComment q (s ++ (b ++ "--".toList)) = some u) : u = s ++ b := by
  induction s generalizing q u with
  | nil => exact beforeComment_blanks_dashes hb h
  | cons c s ih =>
    rw [List.cons_append] at h ⊢
    rw [beforeComment_cons] at h hs
    by_cases hd : q = none ∧ c = '-' ∧ s.head? = some '-'
    · rw [if_pos hd] at hs
      cases hs
    · rw [if_neg hd] at hs
      rw [if_neg] at h
      · obtain ⟨v, hv, rfl⟩ := Option.map_eq_some_iff.1 h
        rw [ih (by simpa using hs) hv]
      · rintro ⟨hq, hc, hhead⟩
        cases s with
        | cons d s => exact hd ⟨hq, hc, hhead⟩
        | nil =>
          obtain ⟨d, b, rfl⟩ := List.exists_cons_of_ne_nil hne
          obtain rfl := Option.some.inj hhead
          exact absurd (hb '-' (by simp)) (by decide)

theorem beforeComment_unquoted {a : Text} (ha : ∀ c ∈ a, c ∉ ['-', '\'', '"', '`']) (s : Text) :
    beforeComment none (a ++ s) = (beforeComment none s).map (a ++ ·) := by
  induction a with
  | nil => simp
  | cons c a ih =>
    have hc : c ≠ '-' ∧ c ≠ '\'' ∧ c ≠ '"' ∧ c ≠ '`' := by simpa using ha c (by simp)
    have hopen : quoteAfter none c = none := by simp [quoteAfter, hc.2.1, hc.2.2.1, hc.2.2.2]
    rw [List.cons_append, beforeComment_cons, if_neg fun hd => hc.1 hd.2.1, hopen,
      ih fun d hd => ha d (by simp [hd]), Option.map_map]
    rfl

theorem beforeComment_inQuotes {q : Char} {s : Text} (h : q ∉ s) (t : Text) :
    beforeComment (some q) (s ++ q :: t) = (beforeComment none t).map (s ++ q :: ·) := by
  induction s with
  | nil => simp [beforeComment]
  | cons c s ih =>
    obtain ⟨hc, hs⟩ := not_or.1 (List.mem_cons.not.1 h)
    rw [List.cons_append, beforeComment, if_neg (Ne.symm hc), ih hs, Option.map_map]
    rfl

theorem beforeComment_indent {b : Text} (hb : ∀ c ∈ b, isBlank c = true) (s : Text) :
    beforeComment none (b ++ s) = (beforeComment none s).map (b ++ ·) := by
  refine beforeComment_unquoted (fun c hc hmem => ?_) s
  have hsigns : ∀ x ∈ ['-', '\'', '"', '`'], isBlank x = false := by decide
  exact absurd (hb c hc) (by simp [hsigns c hmem])

/-- Whether a comment behind the line would be seen. -/
def showsComment (line : Text) : Bool := (beforeComment none (line ++ " --".toList)).isSome

theorem exists_trimStart (s : Text) : ∃ b, s = b ++ trimStart s ∧ ∀ c ∈ b, isBlank c = true :=
  ⟨s.takeWhile isBlank, List.takeWhile_append_dropWhile.symm, fun _ hc => List.mem_takeWhile_imp hc⟩

theorem exists_trimEnd_dashes (s x : Text) :
    ∃ z, trimEnd (s ++ ("--".toList ++ x)) = s ++ ("--".toList ++ z) := by
  by_cases hx : trimEnd x = []
  · refine ⟨[], ?_⟩
    rw [← List.append_assoc, trimEnd, dropEndWhile_append_of_all (trimEnd_eq_nil_iff.1 hx),
      List.append_nil]
    refine dropEndWhile_eq_self ?_
    rw [List.getLast?_append]
    rfl
  · exact ⟨trimEnd x, by rw [← List.append_assoc, trimEnd_append_of_ne hx, List.append_assoc]⟩

/-- Where a comment behind the line would be cut, the line itself ends without its comment. -/
theorem trimEnd_of_beforeComment {s u : Text} (h : beforeComment none (s ++ " --".toList) = some u) :
    trimEnd u = withoutComment (trimEnd s) := by
  obtain ⟨e, he, hblank⟩ := exists_dropEndWhile isBlank s
  change s = trimEnd s ++ e at he
  have hlast : (trimEnd s).getLast?.any isBlank = false := last_dropEndWhile _
  generalize trimEnd s = n at he hlast
  rw [he, List.append_assoc] at h
  rw [withoutComment]
  cases hn : beforeComment none n with
  | some v =>
    have := beforeComment_append hn (e ++ " --".toList)
    rw [h] at this
    rw [Option.some.inj this]
  | none =>
    have hsplit : n ++ (e ++ " --".toList) = n ++ ((e ++ [' ']) ++ "--".toList) := by simp
    have hblank' : ∀ d ∈ e ++ [' '], isBlank d = true :=
      List.forall_mem_append.2 ⟨hblank, List.forall_mem_singleton.2 (by decide)⟩
    rw [hsplit] at h
    rw [beforeComment_blanks hblank' (by simp) hn h, trimEnd, dropEndWhile_append_of_all hblank']
    exact dropEndWhile_eq_self hlast

theorem content_append_comment {line : Text} (h : showsComment line = true) (x : Text) :
    content (line ++ (" -- ".toList ++ x)) = content line := by
  obtain ⟨b, hline, hb⟩ := exists_trimStart line
  have hhead := head_trimStart line
  generalize trimStart line = m at hline hhead
  subst hline
  rw [List.append_assoc, content, content, trim_append_of_blank hb, trim_append_of_blank hb]
  rw [showsComment, List.append_assoc, beforeComment_indent hb, Option.isSome_map] at h
  obtain ⟨u, hu⟩ := Option.isSome_iff_exists.1 h
  cases m with
  | nil =>
    obtain ⟨z, hz⟩ := exists_trimEnd_dashes [] (' ' :: x)
    have htrim : trim ([] ++ (" -- ".toList ++ x)) = "--".toList ++ z := hz
    rw [htrim]
    rfl
  | cons c m =>
    obtain ⟨z, hz⟩ := exists_trimEnd_dashes (c :: m ++ [' ']) (' ' :: x)
    have htrim : trim (c :: m ++ (" -- ".toList ++ x)) = c :: m ++ " --".toList ++ z := by
      have hhead' : (c :: m ++ (" -- ".toList ++ x)).head?.any isBlank = false := hhead
      rw [trim, trimStart_eq_self hhead']
      simpa using hz
    have hcut : withoutComment (c :: m ++ " --".toList ++ z) = trimEnd u := by
      rw [withoutComment, beforeComment_append hu]
    rw [htrim, hcut, trim, trimStart_eq_self hhead, trimEnd_of_beforeComment hu]

/-- A comment that the line shows does not count, and the text goes on as it did. -/
theorem contentLines_append_comment {s x t : Text} (h : showsComment (lastLine s) = true)
    (hx : '\n' ∉ x) (ht : EndsLine t) :
    contentLines (s ++ (" -- ".toList ++ x ++ t)) = contentLines (s ++ t) := by
  have hbreak : '\n' ∉ " -- ".toList ++ x := by simp [hx]
  obtain ⟨ls, hls⟩ := ht.contentLines
  rw [← List.append_assoc, hls, hls, contentLines_append_line hbreak (content_append_comment h x)]

end SchemaDialects.Definition
