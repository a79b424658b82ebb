import SchemaDialects.Proofs.Definition.CommentText
import SchemaDialects.Proofs.Definition.Quoting

/-!
# Columns with other quotes

A column line has its quotes changed before anything in it is read. The scan for
comments closes a name only with the quote that opened it, the change of quotes
tells names from literals. Main statement: a line of a column is one also with the
new quotes, and it leaves nothing open.
-/

namespace SchemaDialects.Definition

open Text Script
open Dialect (isMarkerChar)

/-! ## Names and comments -/

section
variable {p : Char → Bool} (hp : p '"' = p '`') (q : Quoting) (s : Text)
include hp

theorem any_head?_requoteAt : (requoteAt '`' '"' q s).head?.any p = s.head?.any p := by
  have h := congrArg (fun l => l.head?.any id) (map_requoteAt hp q s)
  rwa [List.head?_map, List.head?_map, Option.any_map, Option.any_map] at h

theorem any_getLast?_requoteAt : (requoteAt '`' '"' q s).getLast?.any p = s.getLast?.any p := by
  have h := congrArg (fun l => l.getLast?.any id) (map_requoteAt hp q s)
  rwa [List.getLast?_map, List.getLast?_map, Option.any_map, Option.any_map] at h

end

/-- The quote `q` of a name, if one is open. -/
def nameQuote (q : Char) (inName : Bool) : Option Char := if inName then some q else none

section
variable {c : Char} (hc : c ≠ '\'') (hc' : c ≠ '"') (inName : Bool)
include hc

theorem step_nameQuote : Quoting.step '`' ⟨false, inName⟩ c = ⟨false, inName ^^ c == '`'⟩ := by
  by_cases htick : c = '`'
  · simp [Quoting.step, htick]
  · cases inName <;> simp [Quoting.step, hc, htick]

theorem requoteAt_cons_nameQuote (s : Text) :
    requoteAt '`' '"' ⟨false, inName⟩ (c :: s) = (if c = '`' then '"' else c)
      :: requoteAt '`' '"' ⟨false, inName ^^ c == '`'⟩ s := by
  rw [requoteAt_cons, step_nameQuote hc]
  simp [hc]

include hc'

theorem quoteAfter_nameQuote :
    quoteAfter (nameQuote '`' inName) c = nameQuote '`' (inName ^^ c == '`')
      ∧ quoteAfter (nameQuote '"' inName) (if c = '`' then '"' else c)
        = nameQuote '"' (inName ^^ c == '`') := by
  by_cases htick : c = '`'
  · cases inName <;> simp [quoteAfter, nameQuote, htick]
  · cases inName <;> simp [quoteAfter, nameQuote, htick, hc, hc']

end

section
variable {s : Text} (hs : '\'' ∉ s) (hs' : '"' ∉ s) (inName : Bool)
include hs hs'

/-- All readers have the same names open at the end. -/
theorem exists_nameQuote : ∃ b, Quoting.run '`' ⟨false, inName⟩ s = ⟨false, b⟩
    ∧ s.foldl quoteAfter (nameQuote '`' inName) = nameQuote '`' b
    ∧ (requoteAt '`' '"' ⟨false, inName⟩ s).foldl quoteAfter (nameQuote '"' inName)
      = nameQuote '"' b := by
  induction s generalizing inName with
  | nil => exact ⟨inName, rfl, rfl, rfl⟩
  | cons c s ih =>
    have hc : c ≠ '\'' := fun h => hs (by simp [h])
    have hc' : c ≠ '"' := fun h => hs' (by simp [h])
    obtain ⟨b, hrun, hfold, hfold'⟩ :=
      ih (fun h => hs (by simp [h])) (fun h => hs' (by simp [h])) (inName ^^ c == '`')
    obtain ⟨hafter, hafter'⟩ := quoteAfter_nameQuote hc hc' inName
    refine ⟨b, ?_, ?_, ?_⟩
    · rw [← hrun, Quoting.run, List.foldl_cons, step_nameQuote hc]
      rfl
    · rw [List.foldl_cons, hafter, hfold]
    · rw [requoteAt_cons_nameQuote hc, List.foldl_cons, hafter', hfold']

theorem beforeComment_requoteAt (h : beforeComment (nameQuote '`' inName) s = none) :
    beforeComment (nameQuote '"' inName) (requoteAt '`' '"' ⟨false, inName⟩ s) = none := by
  induction s generalizing inName with
  | nil => cases inName <;> rfl
  | cons c s ih =>
    have hc : c ≠ '\'' := fun h => hs (by simp [h])
    have hc' : c ≠ '"' := fun h => hs' (by simp [h])
    obtain ⟨hafter, hafter'⟩ := quoteAfter_nameQuote hc hc' inName
    have hopen : nameQuote '"' inName = none → nameQuote '`' inName = none := by
      cases inName <;> simp [nameQuote]
    have hdash : (if c = '`' then '"' else c) = '-' → c = '-' := by
      split <;> simp_all
    have hhead := any_head?_requoteAt (p := (· == '-')) (by decide) ⟨false, inName ^^ c == '`'⟩ s
    rw [beforeComment_cons] at h
    rw [requoteAt_cons_nameQuote hc, beforeComment_cons, hafter', if_neg]
    · split at h
      · cases h
      · rw [hafter] at h
        rw [ih (fun h => hs (by simp [h])) (fun h => hs' (by simp [h])) _ (Option.map_eq_none_iff.1 h)]
        rfl
    · rintro ⟨hq, hsign, hnext⟩
      rw [hnext] at hhead
      rw [if_pos ⟨hopen hq, hdash hsign, by simpa [Option.any_eq_true] using hhead.symm⟩] at h
      cases h

end

/-! ## Keywords -/

/-- A keyword that is read in the line has no quote, so it stood there before. -/
theorem exists_keyword_of_requoteAt {k s r : Text} {q : Quoting}
    (hk : ∀ x ∈ k, foldsTo x '"' = false) (h : keyword k (requoteAt '`' '"' q s) = some r) :
    ∃ q' u, keyword k s = some u ∧ r = requoteAt '`' '"' q' u := by
  induction k generalizing q s with
  | nil => exact ⟨q, s, rfl, (Option.some.inj h).symm⟩
  | cons x k ih =>
    cases s with
    | nil => cases h
    | cons c s =>
      rw [requoteAt_cons, keyword] at h
      split at h
      · rw [if_neg (by simp [hk x])] at h
        cases h
      · split at h
        · next hf =>
          obtain ⟨q', u, hu, hr⟩ := ih (fun z hz => hk z (by simp [hz])) h
          exact ⟨q', u, by rw [keyword, if_pos hf, hu], hr⟩
        · cases h

theorem wordEnds_of_requoteAt {q : Quoting} {s : Text}
    (h : wordEnds (requoteAt '`' '"' q s) = true) : wordEnds s = true := by
  cases s with
  | nil => rfl
  | cons c s =>
    rw [requoteAt_cons] at h
    split at h
    · next hc =>
      have hword : isWord '`' = false := not_isWord_of_isAscii (by decide)
      simp [hc.1, wordEnds, hword]
    · exact h

theorem keywordEnd_requoteAt {k s : Text} (hk : ∀ x ∈ k, isMarkerChar x = true) (q : Quoting)
    (h : keywordEnd k s = none) : keywordEnd k (requoteAt '`' '"' q s) = none := by
  have hfolds : ∀ x ∈ k, foldsTo x '"' = false := fun x hx =>
    foldsTo_of_wordEnds hk (wordEnds_of_isAscii (by decide) []) x hx '"' rfl
  refine Option.eq_none_iff_forall_ne_some.2 fun r hr => ?_
  obtain ⟨q', u, hu, rfl⟩ := exists_keyword_of_requoteAt hfolds (keyword_of_keywordEnd hr)
  have hends : wordEnds u = true := wordEnds_of_requoteAt (wordEnds_of_keywordEnd hr)
  rw [keywordEnd, hu, Option.bind_eq_bind, Option.bind_some, if_pos hends] at h
  cases h

theorem IsColumn.requoteAt {line : Text} (h : IsColumn line) (hquote : '"' ∉ line) :
    IsColumn (Definition.requoteAt '`' '"' .closed line)
      ∧ Quoting.closed.run '`' line = .closed := by
  obtain ⟨b, hrun, hfold, hfold'⟩ := exists_nameQuote h.no_literal hquote false
  have hb : b = false := by
    cases b with
    | false => rfl
    | true =>
      have hopen : line.foldl quoteAfter none = some '`' := hfold
      rw [h.closed] at hopen
      cases hopen
  subst hb
  have hchars : ∀ k ∈ constraintKeywords, ∀ x ∈ k, isMarkerChar x = true := by decide
  have hlength : line.length = (Definition.requoteAt '`' '"' .closed line).length :=
    (forall₂_requoteAt .closed line).length_eq
  refine ⟨{
    ne_nil := fun hnil => h.ne_nil (List.eq_nil_of_length_eq_zero (by rw [hlength, hnil]; rfl))
    no_break := not_mem_requoteAt (by decide) _ h.no_break
    head := (any_head?_requoteAt (by decide) _ _).trans h.head
    last := (any_getLast?_requoteAt (by decide) _ _).trans h.last
    no_comment := beforeComment_requoteAt h.no_literal hquote false h.no_comment
    no_comma := fun hcomma => ?_
    not_closing := ?_
    no_literal := not_mem_requoteAt (by decide) _ h.no_literal
    closed := hfold'
    no_keyword := fun k hk => keywordEnd_requoteAt (hchars k hk) _ (h.no_keyword k hk) }, hrun⟩
  · have hlast := any_getLast?_requoteAt (p := (· == ',')) (by decide) .closed line
    rw [hcomma, not_comma h.toIsDefinition] at hlast
    cases hlast
  · have hclosing : ∀ s : Text, isClosing s = s.head?.any (· == ')') := fun s => by cases s <;> rfl
    rw [hclosing, any_head?_requoteAt (by decide), ← hclosing, h.not_closing]

end SchemaDialects.Definition
