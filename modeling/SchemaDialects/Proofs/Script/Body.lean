import SchemaDialects.Proofs.Definition.Chunks

/-!
# The body of a statement

The body of a statement grows with the statement once it has begun, and the
words it opens with stay the same.
-/

namespace SchemaDialects.Script

open Text Definition

/-- What is being skipped behind `s`, where all of `s` is skipped. -/
def Skipping.after : Skipping → Text → Skipping
  | st, [] => st
  | .blanks, c :: s =>
    if isBlank c then after .blanks s
    else if c = '-' ∧ s.head? = some '-' then after .lineComment s
    else if c = '/' ∧ s.head? = some '*' then after .blockComment s
    else .blanks
  | .lineComment, c :: s => if c = '\n' then after .blanks s else after .lineComment s
  | .blockComment, '*' :: '/' :: s => after .blanks s
  | .blockComment, _ :: s => after .blockComment s

/-- A character that completes no opening or closing of a comment. -/
def isBoundary (c : Char) : Prop := c ≠ '-' ∧ c ≠ '*' ∧ c ≠ '/'

theorem isBoundary_of_isBlank {c : Char} (h : isBlank c = true) : isBoundary c := by
  refine ⟨?_, ?_, ?_⟩ <;> rintro rfl <;> exact absurd h (by decide)

theorem isBoundary_of_head {y : Text} (h : ∀ c ∈ y.head?, isBlank c = true) :
    ∀ c ∈ y.head?, isBoundary c := fun c hc => isBoundary_of_isBlank (h c hc)

theorem head?_append_iff {x : Text} (hx : ∀ c ∈ x.head?, isBoundary c) (s : Text) {d : Char}
    (hd : d = '-' ∨ d = '*' ∨ d = '/') : (s ++ x).head? = some d ↔ s.head? = some d := by
  cases s with
  | cons c s => exact Iff.rfl
  | nil =>
    refine ⟨fun h => ?_, fun h => by cases h⟩
    obtain ⟨hdash, hstar, hslash⟩ := hx d (by simpa using h)
    rcases hd with rfl | rfl | rfl
    · exact absurd rfl hdash
    · exact absurd rfl hstar
    · exact absurd rfl hslash

/-- Once the statement has begun it only grows. -/
theorem skip_append {x : Text} (hx : ∀ c ∈ x.head?, isBoundary c) (st : Skipping) (s : Text) :
    skip st (s ++ x) = if skip st s = [] then skip (st.after s) x else skip st s ++ x := by
  have hdash := fun s => head?_append_iff hx s (d := '-') (Or.inl rfl)
  have hstar := fun s => head?_append_iff hx s (d := '*') (Or.inr (Or.inl rfl))
  have hslash := fun s => head?_append_iff hx s (d := '/') (Or.inr (Or.inr rfl))
  fun_induction skip st s with
  | case1 st => simp [Skipping.after]
  | case2 c s hb ih => rw [List.cons_append, skip, if_pos hb, ih, Skipping.after, if_pos hb]
  | case3 c s hb hd ih =>
    rw [List.cons_append, skip, if_neg hb, if_pos ⟨hd.1, (hdash s).2 hd.2⟩, ih, Skipping.after,
      if_neg hb, if_pos hd]
  | case4 c s hb hd hsl ih =>
    rw [List.cons_append, skip, if_neg hb, if_neg (by rwa [hdash]),
      if_pos ⟨hsl.1, (hstar s).2 hsl.2⟩, ih, Skipping.after, if_neg hb, if_neg hd, if_pos hsl]
  | case5 c s hb hd hsl =>
    rw [List.cons_append, skip, if_neg hb, if_neg (by rwa [hdash]), if_neg (by rwa [hstar]),
      if_neg (by simp)]
  | case6 s ih => rw [List.cons_append, skip, if_pos rfl, ih, Skipping.after, if_pos rfl]
  | case7 c s hc ih => rw [List.cons_append, skip, if_neg hc, ih, Skipping.after, if_neg hc]
  | case8 s ih =>
    rw [Skipping.after]
    exact ih
  | case9 c s hne ih =>
    have hne' : ∀ t, c = '*' → s ++ x = '/' :: t → False := by
      intro t hc ht
      have hs : s.head? = some '/' := (hslash s).1 (by rw [ht]; rfl)
      obtain ⟨d, s, rfl⟩ := List.exists_cons_of_ne_nil (l := s) (by rintro rfl; cases hs)
      obtain rfl := Option.some.inj hs
      exact hne s hc rfl
    rw [List.cons_append, skip, ih, Skipping.after]
    · exact hne
    · exact hne'

theorem skip_of_blanks (st : Skipping) {b : Text} (hb : ∀ c ∈ b, isBlank c = true) :
    skip st b = [] := by
  induction b generalizing st with
  | nil => cases st <;> rfl
  | cons c b ih =>
    have hc := hb c (by simp)
    have ih := fun st => ih st fun d hd => hb d (by simp [hd])
    cases st with
    | blanks => rw [skip, if_pos hc, ih]
    | lineComment =>
      rw [skip]
      split
      · exact ih _
      · exact ih _
    | blockComment =>
      have hstar : ∀ t, c = '*' → b = '/' :: t → False := by
        rintro t rfl
        exact absurd hc (by decide)
      rw [skip]
      · exact ih _
      · exact hstar

theorem skip_suffix (st : Skipping) (s : Text) : skip st s <:+ s := by
  fun_induction skip st s with
  | case1 st => exact List.suffix_refl _
  | case5 c s hc hd hsl => exact List.suffix_refl _
  | case8 s ih => exact (ih.trans (List.suffix_cons _ _)).trans (List.suffix_cons _ _)
  | case2 c s hc ih => exact ih.trans (List.suffix_cons _ _)
  | case3 c s hc hd ih => exact ih.trans (List.suffix_cons _ _)
  | case4 c s hc hd hsl ih => exact ih.trans (List.suffix_cons _ _)
  | case6 s ih => exact ih.trans (List.suffix_cons _ _)
  | case7 c s hc ih => exact ih.trans (List.suffix_cons _ _)
  | case9 c s hne ih => exact ih.trans (List.suffix_cons _ _)

theorem exists_trimEnd (s : Text) : ∃ b, s = trimEnd s ++ b ∧ ∀ c ∈ b, isBlank c = true :=
  exists_dropEndWhile isBlank s

theorem skip_trimStart (s : Text) : skip .blanks (trimStart s) = skip .blanks s := by
  induction s with
  | nil => rfl
  | cons c s ih =>
    by_cases hc : isBlank c = true
    · rw [trimStart, List.dropWhile_cons_of_pos hc, skip, if_pos hc]
      exact ih
    · rw [trimStart, List.dropWhile_cons_of_neg hc]

theorem skip_trimEnd (st : Skipping) (s : Text) : skip st (trimEnd s) = trimEnd (skip st s) := by
  obtain ⟨b, hs, hb⟩ := exists_trimEnd s
  have hbound : ∀ c ∈ b.head?, isBoundary c := fun c hc =>
    isBoundary_of_isBlank (hb c (List.mem_of_mem_head? hc))
  have happ := skip_append hbound st (trimEnd s)
  rw [← hs] at happ
  by_cases h : skip st (trimEnd s) = []
  · rw [if_pos h, skip_of_blanks _ hb] at happ
    rw [h, happ]
    rfl
  · -- What is left ends as the trimmed text does.
    have hlast : (skip st (trimEnd s)).getLast?.any isBlank = false := by
      obtain ⟨a, ha⟩ := skip_suffix st (trimEnd s)
      have hl := last_dropEndWhile (p := isBlank) s
      rw [show dropEndWhile isBlank s = trimEnd s from rfl, ← ha, List.getLast?_append] at hl
      obtain ⟨c, hc⟩ := Option.ne_none_iff_exists'.1 (mt List.getLast?_eq_none_iff.1 h)
      simpa [hc] using hl
    have hend : trimEnd (skip st (trimEnd s) ++ b) = trimEnd (skip st (trimEnd s)) :=
      dropEndWhile_append_of_all hb
    rw [if_neg h] at happ
    rw [happ, hend, trimEnd_eq_self hlast]

theorem body_eq (s : Text) : body s = trimEnd (skip .blanks s) := by
  rw [body, trim, skip_trimEnd, skip_trimStart]

theorem skip_cases (st : Skipping) (s : Text) :
    skip st s = [] ∨ ∃ c t, skip st s = c :: t ∧ isBlank c = false
      ∧ ¬(c = '-' ∧ t.head? = some '-') ∧ ¬(c = '/' ∧ t.head? = some '*') := by
  fun_induction skip st s with
  | case1 st => exact Or.inl rfl
  | case5 c s hb hd hsl => exact Or.inr ⟨c, s, rfl, by simpa using hb, hd, hsl⟩
  | case2 c s hb ih => exact ih
  | case3 c s hb hd ih => exact ih
  | case4 c s hb hd hsl ih => exact ih
  | case6 s ih => exact ih
  | case7 c s hc ih => exact ih
  | case8 s ih => exact ih
  | case9 c s hne ih => exact ih

theorem skip_skip (st : Skipping) (s : Text) : skip .blanks (skip st s) = skip st s := by
  obtain h | ⟨c, t, h, hb, hd, hsl⟩ := skip_cases st s
  · rw [h, skip]
  · rw [h, skip, if_neg (by simpa using hb), if_neg hd, if_neg hsl]

theorem head_skip (st : Skipping) (s : Text) : (skip st s).head?.any isBlank = false := by
  obtain h | ⟨c, t, h, hb, -⟩ := skip_cases st s
  · rw [h]
    rfl
  · simpa [h] using hb

theorem body_body (s : Text) : body (body s) = body s := by
  have htrim : ∀ t, trimEnd (trimEnd t) = trimEnd t := fun t =>
    trimEnd_eq_self (last_dropEndWhile t)
  rw [body_eq (body s), body_eq s, skip_trimEnd, skip_skip, htrim]

/-! ## The words of a table definition -/

/-- The words `CREATE TABLE` with blanks between them. -/
structure OpeningWords (m : Text) : Prop where
  parts : ∃ u b v, m = u ++ (b ++ v) ∧ b ≠ [] ∧ (∀ c ∈ b, isBlank c = true)
    ∧ List.Forall₂ (fun x c => foldsTo x c = true) "CREATE".toList u
    ∧ List.Forall₂ (fun x c => foldsTo x c = true) "TABLE".toList v

theorem keyword_append_of_folds {k u : Text}
    (h : List.Forall₂ (fun x c => foldsTo x c = true) k u) (s : Text) :
    keyword k (u ++ s) = some s := by
  induction h with
  | nil => rfl
  | cons hc _ ih => rw [List.cons_append, keyword, if_pos hc, ih]

/-- Reads the words `CREATE TABLE`. -/
def createTable : Scanner := fun s => keywordBlanks "CREATE".toList s >>= keywordEnd "TABLE".toList

theorem createTable_append {m : Text} (h : OpeningWords m) (s : Text) :
    createTable (m ++ s) = if wordEnds s = true then some s else none := by
  obtain ⟨u, b, v, rfl, hne, hb, hu, hv⟩ := h.parts
  have hhead : (v ++ s).head?.any isBlank = false := by
    cases hv with
    | cons hc _ => simpa using isBlank_of_foldsTo (by decide) hc
  have hblanks : blanks1 (b ++ (v ++ s)) = some (v ++ s) := many1_append hne hb hhead
  rw [createTable, keywordBlanks, List.append_assoc, List.append_assoc, keyword_append_of_folds hu]
  show blanks1 (b ++ (v ++ s)) >>= _ = _
  rw [hblanks]
  show keywordEnd "TABLE".toList (v ++ s) = _
  rw [keywordEnd, keyword_append_of_folds hv]
  rfl

theorem exists_of_createTable {s rest : Text} (h : createTable s = some rest) :
    ∃ m, s = m ++ rest ∧ OpeningWords m ∧ wordEnds rest = true := by
  obtain ⟨t, ht, hv⟩ := Option.bind_eq_some_iff.1 h
  obtain ⟨w, hw, hb⟩ := Option.bind_eq_some_iff.1 ht
  obtain ⟨u, rfl, -, hu⟩ := exists_of_keyword hw
  obtain ⟨b, rfl, hne, hblank⟩ := exists_of_many1 hb
  obtain ⟨v, rfl, -, hv'⟩ := exists_of_keyword (keyword_of_keywordEnd hv)
  have hends : wordEnds rest = true := by
    rw [keywordEnd, keyword_append_of_folds hv'] at hv
    by_contra hne
    simp [hne] at hv
  exact ⟨u ++ (b ++ v), by simp, ⟨u, b, v, rfl, hne, hblank, hu, hv'⟩, hends⟩

theorem OpeningWords.ends {m : Text} (h : OpeningWords m) :
    m ≠ [] ∧ m.head?.any isBlank = false ∧ m.getLast?.any isBlank = false := by
  obtain ⟨u, b, v, rfl, -, -, hu, hv⟩ := h.parts
  have hub := isBlank_of_folds (by decide) hu
  have hvb := isBlank_of_folds (by decide) hv
  cases hu with
  | @cons _ c _ u hc _ =>
    cases hv with
    | @cons _ d _ v hd _ =>
      refine ⟨by simp, by simpa using hub c (by simp), ?_⟩
      rw [List.getLast?_append, List.getLast?_append, List.getLast?_eq_some_getLast (by simp),
        Option.some_or, Option.some_or]
      simpa using hvb _ (List.getLast_mem _)

theorem OpeningWords.head {m : Text} (h : OpeningWords m) :
    ∃ c m', m = c :: m' ∧ foldsTo 'C' c = true := by
  obtain ⟨u, b, v, rfl, -, -, hu, -⟩ := h.parts
  cases hu with
  | @cons _ c _ u hc _ => exact ⟨c, u ++ (b ++ v), rfl, hc⟩

theorem wordEnds_of_head {s t : Text} (h : wordEnds s = true) (hh : t.head? = s.head?) :
    wordEnds t = true := by
  rw [wordEnds, hh]
  exact h

theorem blanks_body (s : Text) : blanks (body s) = body s := by
  refine trimStart_eq_self ?_
  rw [body_eq, ← skip_trimEnd]
  exact head_skip _ _

theorem isPlainCreateTable_eq (s : Text) : isPlainCreateTable s = (createTable (body s)).isSome := by
  rw [isPlainCreateTable, blanks_body]
  rfl

/-- A plain table definition opens with its two words, wherever its body ends. -/
theorem isPlainCreateTable_iff (s : Text) : isPlainCreateTable s = true ↔
    ∃ m rest, skip .blanks s = m ++ rest ∧ OpeningWords m ∧ wordEnds rest = true := by
  rw [isPlainCreateTable_eq, body_eq]
  constructor
  · intro h
    obtain ⟨rest, hr⟩ := Option.isSome_iff_exists.1 h
    obtain ⟨m, hm, hw, he⟩ := exists_of_createTable hr
    obtain ⟨b, hs, hb⟩ := exists_trimEnd (skip .blanks s)
    refine ⟨m, rest ++ b, by rw [hs, hm, List.append_assoc], hw, ?_⟩
    cases rest with
    | cons c rest => exact he
    | nil =>
      cases b with
      | nil => rfl
      | cons c b => simp [wordEnds, not_isWord_of_isBlank (hb c (by simp))]
  · rintro ⟨m, rest, hs, hw, he⟩
    rw [hs]
    by_cases hr : trimEnd rest = []
    · have hm : trimEnd (m ++ rest) = m := by
        rw [trimEnd, dropEndWhile_append_of_all (trimEnd_eq_nil_iff.1 hr)]
        exact trimEnd_eq_self hw.ends.2.2
      rw [hm, ← List.append_nil m, createTable_append hw]
      rfl
    · have hhead : (trimEnd rest).head? = rest.head? := by
        obtain ⟨b, hb, -⟩ := exists_trimEnd rest
        obtain ⟨c, t, ht⟩ := List.exists_cons_of_ne_nil hr
        rw [ht] at hb ⊢
        rw [hb]
        rfl
      rw [trimEnd_append_of_ne hr, createTable_append hw, if_pos (wordEnds_of_head he hhead)]
      rfl

theorem isPlainCreateTable_append {s y : Text} (h : isPlainCreateTable s = true)
    (hy : ∀ c ∈ y.head?, isBoundary c) (hends : wordEnds y = true) :
    isPlainCreateTable (s ++ y) = true := by
  obtain ⟨m, rest, hs, hw, he⟩ := (isPlainCreateTable_iff s).1 h
  have hne : skip .blanks s ≠ [] := by simp [hs, hw.ends.1]
  refine (isPlainCreateTable_iff _).2 ⟨m, rest ++ y, ?_, hw, ?_⟩
  · rw [skip_append hy, if_neg hne, hs, List.append_assoc]
  · cases rest with
    | cons d rest => exact he
    | nil => exact hends

theorem isPlainCreateTable_append_head {p y : Text} (h : isPlainCreateTable p = true)
    (hy : ∀ c ∈ y.head?, isBlank c = true) : isPlainCreateTable (p ++ y) = true :=
  isPlainCreateTable_append h (isBoundary_of_head hy) (wordEnds_of_blank hy)

theorem isPlainCreateTable_body (s : Text) : isPlainCreateTable (body s) = isPlainCreateTable s := by
  rw [isPlainCreateTable, isPlainCreateTable, body_body]

theorem OpeningWords.not_mem {m : Text} (h : OpeningWords m) : '-' ∉ m := by
  have hfolds : ∀ {k u : Text}, (∀ x ∈ k, foldsTo x '-' = false) →
      List.Forall₂ (fun x c => foldsTo x c = true) k u → '-' ∉ u := by
    intro k u hk h
    induction h with
    | nil => simp
    | @cons x c k u hc _ ih =>
      intro hm
      rcases List.mem_cons.1 hm with rfl | hm
      · rw [hk x (by simp)] at hc
        cases hc
      · exact ih (fun y hy => hk y (by simp [hy])) hm
  obtain ⟨u, b, v, rfl, -, hb, hu, hv⟩ := h.parts
  intro hm
  rcases List.mem_append.1 hm with hm | hm
  · exact hfolds (by decide) hu hm
  · rcases List.mem_append.1 hm with hm | hm
    · exact absurd (hb _ hm) (by decide)
    · exact hfolds (by decide) hv hm

/-- The words of a table definition do not reach into a comment. -/
theorem isPlainCreateTable_of_comment {s t : Text} (hs : skip .blanks s ≠ [])
    (h : isPlainCreateTable (s ++ ' ' :: '-' :: t) = true) : isPlainCreateTable s = true := by
  obtain ⟨m, rest, hm, hw, he⟩ := (isPlainCreateTable_iff _).1 h
  have hbound : ∀ d ∈ (' ' :: '-' :: t).head?, isBoundary d := by
    intro d hd
    obtain rfl := Option.some.inj hd
    exact isBoundary_of_isBlank (by decide)
  rw [skip_append hbound, if_neg hs] at hm
  rcases List.append_eq_append_iff.1 hm with ⟨k, hk, hrest⟩ | ⟨k, hk, hrest⟩
  · -- The words would end with a blank or hold a dash.
    cases k with
    | nil =>
      rw [List.append_nil] at hk
      exact (isPlainCreateTable_iff s).2 ⟨m, [], by rw [hk, List.append_nil], hw, rfl⟩
    | cons c k =>
      obtain ⟨rfl, hk'⟩ := List.cons.inj hrest
      cases k with
      | nil =>
        have := hw.ends.2.2
        rw [hk] at this
        simp at this
        exact absurd this (by decide)
      | cons d k =>
        obtain ⟨rfl, -⟩ := List.cons.inj hk'
        exact absurd (by rw [hk]; simp) hw.not_mem
  · refine (isPlainCreateTable_iff s).2 ⟨m, k, hk, hw, ?_⟩
    cases k with
    | nil => rfl
    | cons c k => exact wordEnds_of_head he (by rw [hrest]; rfl)

/-! ## The words written out -/

section
variable {t : Text} (hhead : t.head?.any isBlank = false) (hlast : t.getLast?.any isBlank = false)
variable (hne : t ≠ [])

theorem start_eq (t : Text) :
    "CREATE TABLE ".toList ++ t = "CREATE".toList ++ ' ' :: ("TABLE".toList ++ ' ' :: t) :=
  rfl

include hlast hne in
theorem body_start : body ("CREATE TABLE ".toList ++ t) = "CREATE TABLE ".toList ++ t := by
  have htrim : trim ("CREATE TABLE ".toList ++ t) = "CREATE TABLE ".toList ++ t :=
    trim_eq_self rfl (by rwa [List.getLast?_append_of_ne_nil _ hne])
  rw [body, htrim]
  rfl

theorem blanks_start (t : Text) : blanks ("CREATE TABLE ".toList ++ t) = "CREATE TABLE ".toList ++ t :=
  trimStart_eq_self rfl

theorem keywordBlanks_start (t : Text) :
    keywordBlanks "CREATE".toList ("CREATE TABLE ".toList ++ t) = some ("TABLE".toList ++ ' ' :: t) := by
  rw [start_eq]
  exact keywordBlanks_append rfl rfl

include hlast hne in
theorem isPlainCreateTable_start : isPlainCreateTable ("CREATE TABLE ".toList ++ t) = true := by
  have hends : wordEnds (' ' :: t) = true := by
    simp [wordEnds, not_isWord_of_isBlank (c := ' ') (by decide)]
  have hsecond : keywordEnd "TABLE".toList ("TABLE".toList ++ ' ' :: t) = some (' ' :: t) := by
    rw [keywordEnd, keyword_append (by decide), Option.bind_eq_bind, Option.bind_some, if_pos hends]
  rw [isPlainCreateTable, body_start hlast hne, blanks_start, keywordBlanks_start,
    Option.bind_eq_bind, Option.bind_some, hsecond]
  rfl

include hhead hlast hne in
theorem tableName?_start : tableName? ("CREATE TABLE ".toList ++ t) =
    nameAfter ["IF".toList, "NOT".toList, "EXISTS".toList] "(".toList t := by
  have htable : keywordBlanks "TABLE".toList (optional temporary ("TABLE".toList ++ ' ' :: t)) =
      some t := by
    have hnone : optional temporary ("TABLE".toList ++ ' ' :: t) = "TABLE".toList ++ ' ' :: t := rfl
    rw [hnone]
    exact keywordBlanks_append rfl hhead
  rw [tableName?, body_start hlast hne, createdTable?, blanks_start, keywordBlanks_start,
    Option.bind_eq_bind, Option.bind_some, htable, Option.bind_some]

end

end SchemaDialects.Script
