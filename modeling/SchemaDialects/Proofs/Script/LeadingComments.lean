import SchemaDialects.Proofs.Script.Body
import SchemaDialects.Proofs.Script.Splitting

/-!
# Comments before a statement

The comments before a statement are skipped one after the other, and the splitter
reads comments too. Both take the same ones, with one exception: where a block
comment is skipped, the star that opens it may close it. Of `/*/` with more text
behind it the splitter goes on reading the comment.
-/

namespace SchemaDialects.Script

open Text

/-! ## One comment after the other -/

/-- What follows the blank or the comment that is skipped first. A line comment leaves
its line break, which is a blank. -/
def afterIdle? : Text → Option Text
  | [] => none
  | c :: s =>
    if isBlank c then some s
    else if c = '-' ∧ s.head? = some '-' then some (s.dropWhile (· != '\n'))
    else if c = '/' ∧ s.head? = some '*' then some (afterBlock s)
    else none

theorem afterIdle?_cons (c : Char) (s : Text) : afterIdle? (c :: s) =
    if isBlank c then some s
    else if c = '-' ∧ s.head? = some '-' then some (s.dropWhile (· != '\n'))
    else if c = '/' ∧ s.head? = some '*' then some (afterBlock s)
    else none := rfl

theorem cases_of_afterIdle? {s t : Text} (h : afterIdle? s = some t) :
    (∃ c, s = c :: t ∧ isBlank c = true)
      ∨ (∃ u, s = '-' :: '-' :: u ∧ t = u.dropWhile (· != '\n'))
      ∨ (∃ u, s = '/' :: '*' :: u ∧ t = afterBlock ('*' :: u)) := by
  cases s with
  | nil => cases h
  | cons c s =>
    rw [afterIdle?_cons] at h
    split at h
    · next hb => exact .inl ⟨c, by rw [Option.some.inj h], hb⟩
    · split at h
      · next hd =>
        obtain ⟨u, rfl⟩ := List.head?_eq_some_iff.1 hd.2
        rw [List.dropWhile_cons_of_pos (by decide)] at h
        exact .inr (.inl ⟨u, by rw [hd.1], (Option.some.inj h).symm⟩)
      · split at h
        · next hs =>
          obtain ⟨u, rfl⟩ := List.head?_eq_some_iff.1 hs.2
          exact .inr (.inr ⟨u, by rw [hs.1], (Option.some.inj h).symm⟩)
        · cases h

theorem exists_cons_of_afterIdle? {s t : Text} (h : afterIdle? s = some t) :
    ∃ c u, s = c :: u ∧ t <:+ u := by
  obtain ⟨c, rfl, -⟩ | ⟨u, rfl, rfl⟩ | ⟨u, rfl, rfl⟩ := cases_of_afterIdle? h
  · exact ⟨c, t, rfl, List.suffix_refl t⟩
  · exact ⟨'-', '-' :: u, rfl, (List.dropWhile_suffix _).trans (List.suffix_cons '-' u)⟩
  · exact ⟨'/', '*' :: u, rfl, afterBlock_suffix _⟩

theorem suffix_of_afterIdle? {s t : Text} (h : afterIdle? s = some t) : t <:+ s := by
  obtain ⟨c, u, rfl, hu⟩ := exists_cons_of_afterIdle? h
  exact hu.trans (List.suffix_cons c u)

theorem length_lt_of_afterIdle? {s t : Text} (h : afterIdle? s = some t) : t.length < s.length := by
  obtain ⟨c, u, rfl, hu⟩ := exists_cons_of_afterIdle? h
  exact Nat.lt_succ_of_le hu.length_le

/-- The blanks and comments that are skipped before a statement. -/
def skippedParts (s : Text) : List Text :=
  match _h : afterIdle? s with
  | none => []
  | some t => before s t :: skippedParts t
termination_by s.length
decreasing_by exact length_lt_of_afterIdle? _h

theorem skip_lineComment (s : Text) :
    skip .lineComment s = skip .blanks (s.dropWhile (· != '\n')) := by
  induction s with
  | nil => rfl
  | cons c s ih =>
    by_cases hc : c = '\n'
    · subst hc
      rw [skip, if_pos rfl, List.dropWhile_cons_of_neg (by decide), skip, if_pos (by decide)]
    · rw [skip, if_neg hc, ih, List.dropWhile_cons_of_pos (by simpa using hc)]

theorem skip_blockComment (s : Text) : skip .blockComment s = skip .blanks (afterBlock s) := by
  fun_induction afterBlock s with
  | case1 s => rw [skip]
  | case2 c s h ih =>
    rw [skip]
    · exact ih
    · exact fun t hc ht => h t hc ht
  | case3 => rfl

theorem skip_of_some {s t : Text} (h : afterIdle? s = some t) : skip .blanks s = skip .blanks t := by
  obtain ⟨c, rfl, hc⟩ | ⟨u, rfl, rfl⟩ | ⟨u, rfl, rfl⟩ := cases_of_afterIdle? h
  · rw [skip, if_pos hc]
  · rw [← skip_lineComment]
    rfl
  · rw [← skip_blockComment]
    rfl

theorem skip_of_none {s : Text} (h : afterIdle? s = none) : skip .blanks s = s := by
  cases s with
  | nil => rfl
  | cons c s =>
    rw [afterIdle?_cons] at h
    rw [skip]
    split at h
    · cases h
    · next hb =>
      rw [if_neg hb]
      split at h
      · cases h
      · next hd =>
        rw [if_neg hd]
        split at h
        · cases h
        · next hs => rw [if_neg hs]

theorem flatten_skippedParts (s : Text) : (skippedParts s).flatten ++ skip .blanks s = s := by
  fun_induction skippedParts s with
  | case1 s h => exact skip_of_none h
  | case2 s t h ih =>
    rw [List.flatten_cons, List.append_assoc, skip_of_some h, ih, before_append (suffix_of_afterIdle? h)]

/-! ## The splitter's parts -/

/-- A blank, or a part that opens as a comment. -/
def isIdle : Text → Bool
  | [] => false
  | [c] => isBlank c
  | c :: d :: _ => (c == '-' && d == '-') || (c == '/' && d == '*')

theorem parts_cons {c : Char} {s : Text} :
    parts (c :: s) = before (c :: s) (afterPart (c :: s)) :: parts (afterPart (c :: s)) := by
  rw [parts]

theorem parts_eq_singleton {s : Text} (hne : s ≠ []) (h : afterPart s = []) : parts s = [s] := by
  obtain ⟨c, s, rfl⟩ := List.exists_cons_of_ne_nil hne
  have hbefore : before (c :: s) [] = c :: s := by simp [before]
  rw [parts_cons, h, hbefore, parts]

theorem flatten_parts (s : Text) : (parts s).flatten = s := by
  fun_induction parts s with
  | case1 => rfl
  | case2 c s ih =>
    rw [List.flatten_cons, ih, before_append ((afterPart_suffix c s).trans (List.suffix_cons c s))]

theorem before_cons_cons {s t : Text} (h : t <:+ s) (c d : Char) :
    before (c :: d :: s) t = c :: d :: before s t := by
  obtain ⟨a, rfl⟩ := h
  rw [before_append_self]
  exact before_append_self (c :: d :: a) t

theorem afterPart_of_isBlank {c : Char} (h : isBlank c = true) (s : Text) : afterPart (c :: s) = s := by
  have hne (d : Char) (hd : isBlank d = false) : c ≠ d := by
    rintro rfl
    rw [h] at hd
    cases hd
  have hquote : Quote.ofChar? c = none := by
    unfold Quote.ofChar?
    rw [if_neg (hne _ (by decide)), if_neg (hne _ (by decide)), if_neg (hne _ (by decide))]
  unfold afterPart
  simp only [hquote]
  rw [if_neg fun hd => hne '-' (by decide) hd.1, if_neg fun hd => hne '/' (by decide) hd.1]

theorem afterBlock_cons (c : Char) (s : Text) : afterBlock (c :: s) =
    if c = '*' ∧ s.head? = some '/' then s.tail else afterBlock s := by
  by_cases h : c = '*' ∧ s.head? = some '/'
  · obtain ⟨rfl, hs⟩ := h
    obtain ⟨u, rfl⟩ := List.head?_eq_some_iff.1 hs
    rfl
  · rw [if_neg h, afterBlock]
    rintro u rfl rfl
    exact h ⟨rfl, rfl⟩

theorem afterBlock_cons_suffix (c : Char) (s : Text) : afterBlock (c :: s) <:+ s := by
  rw [afterBlock_cons]
  split
  · exact List.tail_suffix s
  · exact afterBlock_suffix s

theorem afterBlock_eq_self_iff {s : Text} : afterBlock s = s ↔ s = [] := by
  refine ⟨fun h => ?_, fun h => by rw [h]; rfl⟩
  cases s with
  | nil => rfl
  | cons c s =>
    have hlength := (afterBlock_cons_suffix c s).length_le
    rw [h, List.length_cons] at hlength
    omega

/-- The splitter takes the same comment, unless its opening star closes it before the end. -/
theorem afterPart_eq_iff {s t : Text} (h : afterIdle? s = some t) :
    afterPart s = t ↔ (before s t = "/*/".toList → t = []) := by
  obtain ⟨c, rfl, hc⟩ | ⟨u, rfl, rfl⟩ | ⟨u, rfl, rfl⟩ := cases_of_afterIdle? h
  · have hbefore : before (c :: t) t = [c] := before_append_self [c] t
    rw [hbefore, afterPart_of_isBlank hc]
    exact iff_of_true rfl nofun
  · rw [before_cons_cons (List.dropWhile_suffix _)]
    exact iff_of_true rfl nofun
  · rw [before_cons_cons (afterBlock_cons_suffix '*' u)]
    have hblock : afterBlock ('*' :: u) = if u.head? = some '/' then u.tail else afterBlock u := by
      simp [afterBlock_cons]
    show afterBlock u = _ ↔ _
    rw [hblock]
    by_cases hu : u.head? = some '/'
    · rw [if_pos hu]
      obtain ⟨u, rfl⟩ := List.head?_eq_some_iff.1 hu
      have hslash : before ('/' :: u) u = ['/'] := before_append_self ['/'] u
      rw [List.tail_cons, hslash, afterBlock_cons, if_neg (by simp), afterBlock_eq_self_iff]
      exact (imp_iff_right rfl).symm
    · rw [if_neg hu]
      refine iff_of_true rfl fun hbare => absurd ?_ hu
      have hslash : before u (afterBlock u) = ['/'] :=
        (List.cons.inj (List.cons.inj hbare).2).2
      rw [← before_append (afterBlock_suffix u), hslash]
      rfl

theorem isIdle_before {s t : Text} (h : afterIdle? s = some t) : isIdle (before s t) = true := by
  obtain ⟨c, rfl, hc⟩ | ⟨u, rfl, rfl⟩ | ⟨u, rfl, rfl⟩ := cases_of_afterIdle? h
  · rw [show before (c :: t) t = [c] from before_append_self [c] t]
    exact hc
  · rw [before_cons_cons (List.dropWhile_suffix _)]
    rfl
  · rw [before_cons_cons (afterBlock_cons_suffix '*' u)]
    rfl

/-! ## The same comments -/

/-- The text before the statement is a number of the splitter's parts, each of them a
blank or a comment. -/
def RemovesWholeComments (s : Text) : Prop :=
  ∃ ps qs b, parts s = ps ++ qs ∧ (∀ p ∈ ps, isIdle p = true)
    ∧ qs.flatten = body s ++ b ∧ ∀ c ∈ b, isBlank c = true

/-- No text stands behind a skipped `/*/`. -/
def BareCommentIsLast (s : Text) : Prop :=
  ∀ ps qs, skippedParts s = ps ++ "/*/".toList :: qs → s = ps.flatten ++ "/*/".toList

theorem skippedParts_of_some {s t : Text} (h : afterIdle? s = some t) :
    skippedParts s = before s t :: skippedParts t := by
  rw [skippedParts]
  split
  · next hs => rw [h] at hs; cases hs
  · next u hs =>
    rw [h] at hs
    obtain rfl := Option.some.inj hs
    rfl

theorem skippedParts_of_none {s : Text} (h : afterIdle? s = none) : skippedParts s = [] := by
  rw [skippedParts]
  split
  · rfl
  · next t hs => rw [h] at hs; cases hs

theorem bareCommentIsLast_iff {s t : Text} (h : afterIdle? s = some t) : BareCommentIsLast s ↔
    (before s t = "/*/".toList → t = []) ∧ BareCommentIsLast t := by
  have hs := before_append (suffix_of_afterIdle? h)
  unfold BareCommentIsLast
  rw [skippedParts_of_some h]
  refine ⟨fun hlast => ⟨fun hbare => ?_, fun ps qs hparts => ?_⟩, fun ⟨hbare, hlast⟩ ps qs hparts => ?_⟩
  · have hwhole := hlast [] (skippedParts t) (by rw [hbare]; rfl)
    rw [← hs, hbare] at hwhole
    exact List.append_right_eq_self.1 hwhole
  · have hwhole := hlast (before s t :: ps) qs (by rw [hparts]; rfl)
    rw [List.flatten_cons, List.append_assoc] at hwhole
    exact List.append_cancel_left (hs.trans hwhole)
  · cases ps with
    | nil =>
      obtain ⟨hfirst, -⟩ := List.cons.inj hparts
      rw [← hs, hfirst, hbare hfirst]
      rfl
    | cons p ps =>
      obtain ⟨rfl, hrest⟩ := List.cons.inj hparts
      rw [List.flatten_cons, List.append_assoc, ← hlast ps qs hrest, hs]

theorem prefix_iff (s : Text) : skippedParts s <+: parts s ↔ BareCommentIsLast s := by
  fun_induction skippedParts s with
  | case1 s h =>
    have hnone : BareCommentIsLast s := by
      intro ps qs hparts
      rw [skippedParts_of_none h] at hparts
      simp at hparts
    exact iff_of_true List.nil_prefix hnone
  | case2 s t h ih =>
    obtain ⟨c, u, rfl, hu⟩ := exists_cons_of_afterIdle? h
    have hpart := (afterPart_suffix c u).trans (List.suffix_cons c u)
    rw [bareCommentIsLast_iff h, ← ih, ← afterPart_eq_iff h, parts_cons, List.cons_prefix_cons]
    constructor
    · rintro ⟨hfirst, hrest⟩
      have hwhole := (before_append (suffix_of_afterIdle? h)).trans (before_append hpart).symm
      rw [hfirst] at hwhole
      have hsame := (List.append_cancel_left hwhole).symm
      exact ⟨hsame, hsame ▸ hrest⟩
    · rintro ⟨hsame, hrest⟩
      rw [hsame]
      exact ⟨rfl, hrest⟩

theorem isIdle_of_mem {s p : Text} (h : p ∈ skippedParts s) : isIdle p = true := by
  fun_induction skippedParts s with
  | case1 => cases h
  | case2 s t hs ih =>
    cases List.mem_cons.1 h with
    | inl hp =>
      rw [hp]
      exact isIdle_before hs
    | inr hp => exact ih hp

theorem removesWholeComments_of_prefix {s : Text} (h : skippedParts s <+: parts s) :
    RemovesWholeComments s := by
  obtain ⟨qs, hqs⟩ := h
  obtain ⟨b, hb, hblank⟩ := exists_trimEnd (skip .blanks s)
  refine ⟨skippedParts s, qs, b, hqs.symm, fun p => isIdle_of_mem, ?_, hblank⟩
  have hall := flatten_parts s
  rw [← hqs, List.flatten_append] at hall
  rw [body_eq, ← hb]
  exact List.append_cancel_left (hall.trans (flatten_skippedParts s).symm)

/-- What stands before a statement falls into the blanks and comments that are skipped.
They are the splitter's, and the statement does not begin inside a comment, as long as
no text stands behind a `/*/` among them: behind one the splitter's comment goes on. -/
theorem skips_whole_comments (s : Text) :
    (skippedParts s).flatten ++ skip .blanks s = s ∧ body s = trimEnd (skip .blanks s) ∧
    (skippedParts s <+: parts s ↔ BareCommentIsLast s) ∧
    (BareCommentIsLast s → RemovesWholeComments s) :=
  ⟨flatten_skippedParts s, body_eq s, prefix_iff s,
    fun h => removesWholeComments_of_prefix ((prefix_iff s).2 h)⟩

/-- The splitter reads one comment, and the statement is taken from its middle. -/
theorem not_removesWholeComments_bare :
    let s := "/*/ CREATE TABLE t (\n  id INT\n); */".toList
    body s = "CREATE TABLE t (\n  id INT\n); */".toList ∧ ¬ RemovesWholeComments s := by
  intro s
  have hbody : body s = "CREATE TABLE t (\n  id INT\n); */".toList := by decide
  have hparts : parts s = [s] := parts_eq_singleton (by decide) (by decide)
  refine ⟨hbody, ?_⟩
  rintro ⟨ps, qs, b, hsplit, -, hrest, -⟩
  rw [hbody] at hrest
  rw [hparts] at hsplit
  cases ps with
  | nil =>
    -- The statement would begin with the text.
    rw [← show [s] = qs from hsplit] at hrest
    have hhead : some '/' = some 'C' := congrArg List.head? hrest
    exact absurd hhead (by decide)
  | cons p ps =>
    obtain ⟨-, hnil⟩ := List.cons.inj hsplit
    obtain ⟨-, rfl⟩ := List.append_eq_nil_iff.1 hnil.symm
    cases hrest

end SchemaDialects.Script
