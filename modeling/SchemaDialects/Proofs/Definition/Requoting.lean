import SchemaDialects.Proofs.Catalog.Literals
import SchemaDialects.Proofs.Definition.Quoting
import SchemaDialects.Proofs.Rendering.Lines

/-!
# There and back

Requoting runs through a text with two switches. On the way back the quotes just written
move them exactly as the old ones did, until the text itself brings a quote of the target
dialect outside strings: that one is taken for a written one, and is not given back.

A name in quotes comes out as the other dialect quotes it only if it holds neither quote
character: what is doubled on one side is not what needs doubling on the other.
-/

namespace SchemaDialects.Definition

open Text

section
variable {old new : Char}

variable (hold : old ≠ '\'')
include hold

theorem requoteAt_cons_of_ne (q : Quoting) (c : Char) (s : Text) :
    requoteAt old new q (c :: s) =
      (if c = old ∧ q.inString = false then new else c) :: requoteAt old new (q.step old c) s := by
  rw [requoteAt_cons]
  by_cases hc : c = old
  · simp [hc, hold]
  · simp [hc]

variable (hnew : new ≠ '\'')
include hnew

/-! ## The way back -/

/-- The written quote moves the switches as the one that was read. -/
theorem step_written {q : Quoting} {c : Char}
    (hc : c = new → q.inString = true) :
    q.step new (if c = old ∧ q.inString = false then new else c) = q.step old c := by
  by_cases hread : c = old ∧ q.inString = false
  · simp [Quoting.step, hread, hold, hnew]
  · rw [if_neg hread]
    by_cases hquote : c = '\'' ∧ q.inName = false
    · simp [Quoting.step, hquote]
    · have hwritten : ¬ (c = new ∧ q.inString = false) := fun h => by simp [hc h.1] at h
      simp only [Quoting.step, if_neg hquote, if_neg hread, if_neg hwritten]

theorem requoteAt_requoteAt_eq_iff (hne : old ≠ new) (q : Quoting) (s : Text) :
    requoteAt new old q (requoteAt old new q s) = s ↔
      ∀ a b, s = a ++ new :: b → (q.run old a).inString = true := by
  induction s generalizing q with
  | nil => simp [requoteAt, requoteFrom]
  | cons c s ih =>
    rw [requoteAt_cons_of_ne hold, requoteAt_cons_of_ne hnew]
    by_cases hc : c = new → q.inString = true
    · rw [step_written hold hnew hc, List.cons.injEq, ih]
      have hhead : (if (if c = old ∧ q.inString = false then new else c) = new ∧
          q.inString = false then old else if c = old ∧ q.inString = false then new else c) = c := by
        by_cases hread : c = old ∧ q.inString = false
        · simp [hread]
        · have hwritten : ¬ (c = new ∧ q.inString = false) := fun h => by simp [hc h.1] at h
          rw [if_neg hread, if_neg hwritten]
      constructor
      · intro h a b hs
        cases a with
        | nil => exact hc (List.cons.inj hs).1
        | cons d a =>
          obtain ⟨hcd, htail⟩ := List.cons.inj hs
          subst hcd
          exact h.2 a b htail
      · intro h
        exact ⟨hhead, fun a b hs => h (c :: a) b (by rw [hs, List.cons_append])⟩
    · -- the quote read here was not written on the way there
      obtain ⟨rfl, hq⟩ := Classical.not_imp.1 hc
      constructor
      · intro h
        have := (List.cons.inj h).1
        simp [hne.symm, hq, hne] at this
      · intro h
        exact absurd (h [] s rfl) hq

end

/-- Going there and back gives the text itself exactly if no quote of the target dialect
stands outside the strings that the way there sees. Either way only old quotes change. -/
theorem requote_and_back (s : Text) :
    ((doubleQuotesToBackticks (backticksToDoubleQuotes s) = s ↔
        ∀ a b, s = a ++ '"' :: b → (Quoting.closed.run '`' a).inString = true) ∧
      (backticksToDoubleQuotes (doubleQuotesToBackticks s) = s ↔
        ∀ a b, s = a ++ '`' :: b → (Quoting.closed.run '"' a).inString = true)) ∧
    ((backticksToDoubleQuotes s).length = s.length ∧
      List.Forall₂ (fun c d => d = c ∨ c = '`' ∧ d = '"') s (backticksToDoubleQuotes s)) ∧
    ((doubleQuotesToBackticks s).length = s.length ∧
      List.Forall₂ (fun c d => d = c ∨ c = '"' ∧ d = '`') s (doubleQuotesToBackticks s)) := by
  refine ⟨⟨?_, ?_⟩, ⟨?_, ?_⟩, ?_, ?_⟩
  · exact requoteAt_requoteAt_eq_iff (by decide) (by decide) (by decide) .closed s
  · exact requoteAt_requoteAt_eq_iff (by decide) (by decide) (by decide) .closed s
  · exact length_requoteFrom '`' '"' false false s
  · exact forall₂_requoteAt .closed s
  · exact length_requoteFrom '"' '`' false false s
  · exact forall₂_requoteAt .closed s

/-! ## Names in quotes -/

section
variable {old new : Char} (hold : old ≠ '\'')
include hold

/-- Inside a name no string opens, and a doubled quote closes the name and opens it again. -/
theorem requoteAt_double (n t : Text) :
    requoteAt old new ⟨false, true⟩ (double old n ++ t) =
      (double old n).map (fun c => if c = old then new else c) ++
        requoteAt old new ⟨false, true⟩ t := by
  induction n with
  | nil => rfl
  | cons c n ih =>
    by_cases hc : c = old
    · have hopen : (Quoting.step old ⟨false, true⟩ old).step old old = ⟨false, true⟩ := by
        simp [Quoting.step, hold]
      simp only [double, hc, if_true, List.cons_append, requoteAt_cons_of_ne hold, hopen, ih]
      simp [Quoting.step, hold]
    · have hstay : Quoting.step old ⟨false, true⟩ c = ⟨false, true⟩ := by simp [Quoting.step, hc]
      simp [double, hc, requoteAt_cons_of_ne hold, hstay, ih]

theorem requote_quoted (n : Text) :
    requote old new (quoted old n) =
      new :: (double old n).map (fun c => if c = old then new else c) ++ [new] := by
  have hopen : Quoting.closed.step old old = ⟨false, true⟩ := by
    simp [Quoting.step, Quoting.closed, hold]
  show requoteAt old new .closed (old :: (double old n ++ [old])) = _
  rw [requoteAt_cons_of_ne hold, hopen, requoteAt_double hold, requoteAt_cons_of_ne hold]
  simp [Quoting.closed, requoteAt, requoteFrom]

/-- So it names what the old quotes named, but with the new quote for each old one. -/
theorem requote_quoted_of_not_mem {n : Text} (hn : new ∉ n) :
    requote old new (quoted old n) = quoted new (n.map fun c => if c = old then new else c) := by
  rw [requote_quoted hold, quoted]
  congr 2
  induction n with
  | nil => rfl
  | cons c n ih =>
    obtain ⟨hc, hn⟩ := not_or.1 (List.mem_cons.not.1 hn)
    by_cases hcold : c = old
    · simp [double, hcold, ih hn]
    · simp [double, hcold, Ne.symm hc, ih hn]

theorem requote_quoted_eq_iff (hne : old ≠ new) (n : Text) :
    requote old new (quoted old n) = quoted new n ↔ old ∉ n ∧ new ∉ n := by
  constructor
  · intro h
    rw [requote_quoted hold, quoted, List.cons_append, List.cons_append, List.cons.injEq,
      List.append_cancel_right_eq] at h
    replace h := h.2
    have hread : old ∉ n := by
      intro hn
      have hwritten : old ∈ double new n := mem_double hn
      rw [← h, List.mem_map] at hwritten
      obtain ⟨c, -, hc⟩ := hwritten
      split at hc
      · exact hne hc.symm
      · next hcold => exact hcold hc
    refine ⟨hread, fun hn => ?_⟩
    have hlen := congrArg List.length h
    rw [List.length_map, length_double, length_double, List.count_eq_zero_of_not_mem hread] at hlen
    have := List.count_pos_iff.2 hn
    omega
  · rintro ⟨hread, hn⟩
    have hsame : n.map (fun c => if c = old then new else c) = n := by
      refine (List.map_congr_left fun c hc => if_neg ?_).trans n.map_id
      intro h
      exact hread (h ▸ hc)
    rw [requote_quoted_of_not_mem hold hn, hsame]

end

/-- A quoted name becomes the name as the other dialect quotes it exactly if it holds neither
quote character. -/
theorem requote_quote_iff (n : Text) :
    (backticksToDoubleQuotes (Dialect.mysql.quote n) = Dialect.sqlite.quote n ↔
      '`' ∉ n ∧ '"' ∉ n) ∧
    (doubleQuotesToBackticks (Dialect.sqlite.quote n) = Dialect.mysql.quote n ↔
      '`' ∉ n ∧ '"' ∉ n) := by
  constructor
  · exact requote_quoted_eq_iff (by decide) (by decide) n
  · rw [and_comm]
    exact requote_quoted_eq_iff (by decide) (by decide) n

/-- A backtick inside a name is doubled in MySQL and comes out as a doubled double quote,
which is another name. -/
theorem requote_quote_ne :
    backticksToDoubleQuotes (Dialect.mysql.quote "a`b".toList) ≠
      Dialect.sqlite.quote "a`b".toList := by
  decide

end SchemaDialects.Definition
