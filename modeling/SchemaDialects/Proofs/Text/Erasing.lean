import SchemaDialects.Proofs.Text.Places

/-!
# What erasing leaves

Erasing keeps the order of what it leaves, and leaves the whole text only where
there is nothing to erase. How often a character is left depends on whether it
belongs to what is erased. A machine that is in the same state before and behind
everything that is erased reads what is left as it reads the whole.
-/

namespace SchemaDialects.Text

section
variable {f : Reader Text} {prev : Option Char} {s : Text}

theorem sublist_eraseFrom (f : Reader Text) (prev : Option Char) (n : Nat) (s : Text) :
    (eraseFrom f prev n s).Sublist s := by
  induction s generalizing prev n with
  | nil => exact List.Sublist.refl _
  | cons c s ih =>
    cases n with
    | succ n => exact (ih _ _).cons c
    | zero =>
      rw [eraseFrom]
      split
      · exact (ih _ _).cons c
      · exact (ih _ _).cons_cons c

theorem sublist_eraseAll (f : Reader Text) (s : Text) : (eraseAll f s).Sublist s :=
  sublist_eraseFrom f none 0 s

theorem length_eraseFrom_lt (h : (find f prev s).isSome = true) :
    (eraseFrom f prev 0 s).length < s.length := by
  induction s generalizing prev with
  | nil => cases h
  | cons c s ih =>
    rw [find] at h
    rw [eraseFrom]
    cases hf : f prev (c :: s) with
    | some rest =>
      have := (sublist_eraseFrom f (some c) (s.length - rest.length) s).length_le
      simp only [List.length_cons]
      omega
    | none =>
      rw [hf] at h
      have := ih (by simpa using h)
      simpa using this

theorem eraseAll_eq_self_iff : eraseAll f s = s ↔ occurs f s = false := by
  refine ⟨fun h => ?_, eraseAll_of_not_occurs⟩
  rw [Bool.eq_false_iff]
  intro ho
  have := length_eraseFrom_lt ho
  rw [← eraseAll, h] at this
  omega

end

/-! ## Reading what is left -/

/-- What `f` takes out of the text `b` behind `a`, each part with the text before it. The first `n`
characters of `b` belong to a part before. -/
def erasedFrom (f : Reader Text) (a : Text) (n : Nat) : Text → List (Text × Text)
  | [] => []
  | c :: b =>
    match n with
    | n + 1 => erasedFrom f (a ++ [c]) n b
    | 0 =>
      match f a.getLast? (c :: b) with
      | some rest =>
        (a, c :: b.take (b.length - rest.length))
          :: erasedFrom f (a ++ [c]) (b.length - rest.length) b
      | none => erasedFrom f (a ++ [c]) 0 b

/-- The parts of a text that `f` takes out of it, each with the text before it. -/
def erased (f : Reader Text) (s : Text) : List (Text × Text) := erasedFrom f [] 0 s

section
variable {f : Reader Text} {s a m : Text}

theorem exists_of_mem_erasedFrom {a₀ b : Text} {n : Nat} (h : (a, m) ∈ erasedFrom f a₀ n b) :
    ∃ c t rest, a₀ ++ b = a ++ c :: t ∧ f a.getLast? (c :: t) = some rest
      ∧ m = c :: t.take (t.length - rest.length) := by
  induction b generalizing a₀ n with
  | nil => cases h
  | cons c b ih =>
    have hshift : a₀ ++ c :: b = (a₀ ++ [c]) ++ b := by simp
    cases n with
    | succ n =>
      rw [hshift]
      exact ih h
    | zero =>
      rw [erasedFrom] at h
      cases hf : f a₀.getLast? (c :: b) with
      | none =>
        rw [hf] at h
        rw [hshift]
        exact ih h
      | some rest =>
        rw [hf] at h
        rcases List.mem_cons.1 h with h | h
        · obtain ⟨rfl, rfl⟩ := Prod.mk.inj h
          exact ⟨c, b, rest, rfl, hf, rfl⟩
        · rw [hshift]
          exact ih h

theorem eq_of_mem_erased (h : (a, m) ∈ erased f s)
    (hf : ∀ b rest, s = a ++ b → f a.getLast? b = some rest → ∃ m, b = m ++ rest ∧ m ≠ []) :
    ∃ rest, s = a ++ (m ++ rest) ∧ f a.getLast? (m ++ rest) = some rest := by
  obtain ⟨c, t, rest, hs, hr, rfl⟩ := exists_of_mem_erasedFrom h
  obtain ⟨m, hm, hne⟩ := hf _ rest hs hr
  obtain ⟨d, m, rfl⟩ := List.exists_cons_of_ne_nil hne
  obtain ⟨rfl, ht⟩ := List.cons.inj hm
  have htake : t.take (t.length - rest.length) = m := by simp [ht]
  rw [htake]
  rw [hm] at hs hr
  exact ⟨rest, hs, hr⟩

end

section
variable {σ : Type} {step : σ → Char → σ} {r : σ} {f : Reader Text} {s : Text}

theorem foldl_eraseFrom {a b : Text} {n : Nat}
    (h : ∀ p ∈ erasedFrom f a n b, p.2.foldl step (p.1.foldl step r) = p.1.foldl step r) :
    (eraseFrom f a.getLast? n b).foldl step ((a ++ b.take n).foldl step r)
      = (a ++ b).foldl step r := by
  -- By induction on what is left of the text: `a` was passed already.
  induction b generalizing a n with
  | nil => simp [eraseFrom]
  | cons c b ih =>
    have hlast : (a ++ [c]).getLast? = some c := by simp
    have hshift : a ++ c :: b = (a ++ [c]) ++ b := by simp
    cases n with
    | succ n =>
      have := ih (a := a ++ [c]) (n := n) h
      rw [hlast] at this
      simpa [eraseFrom] using this
    | zero =>
      rw [List.take_zero, List.append_nil, eraseFrom]
      rw [erasedFrom] at h
      cases hf : f a.getLast? (c :: b) with
      | none =>
        rw [hf] at h
        have := ih (a := a ++ [c]) (n := 0) h
        rw [hlast] at this
        simpa using this
      | some rest =>
        rw [hf] at h
        obtain ⟨hpart, hrest⟩ := List.forall_mem_cons.1 h
        have := ih (a := a ++ [c]) hrest
        rw [hlast, List.append_assoc, List.singleton_append, List.foldl_append, hpart] at this
        rw [hshift]
        exact this

/-- A machine that ends every part that is taken out in the state in which it began it reads what
is left as it reads the whole. -/
theorem foldl_eraseAll_of_erased
    (h : ∀ p ∈ erased f s, p.2.foldl step (p.1.foldl step r) = p.1.foldl step r) :
    (eraseAll f s).foldl step r = s.foldl step r :=
  foldl_eraseFrom h

theorem foldl_eraseAll (h : ∀ a b rest, s = a ++ b → f a.getLast? b = some rest →
      ∃ m, b = m ++ rest ∧ m ≠ [] ∧ m.foldl step (a.foldl step r) = a.foldl step r) :
    (eraseAll f s).foldl step r = s.foldl step r := by
  refine foldl_eraseAll_of_erased fun p hp => ?_
  obtain ⟨rest, hs, hr⟩ := eq_of_mem_erased hp fun b rest hs hr => by
    obtain ⟨m, hm, hne, -⟩ := h _ b rest hs hr
    exact ⟨m, hm, hne⟩
  obtain ⟨m, hm, -, hrun⟩ := h _ _ rest hs hr
  rwa [List.append_cancel_right hm]

end

theorem not_mem_eraseAll {x : Char} {s : Text} (f : Reader Text) (hx : x ∉ s) : x ∉ eraseAll f s :=
  fun hm => hx ((sublist_eraseAll f s).subset hm)

/-! ## Counting -/

/-- `f` reads something, and the character `x` is no part of it. -/
def ReadsWithout (x : Char) (f : Reader Text) : Prop :=
  ∀ ⦃prev s rest⦄, f prev s = some rest → ∃ m, s = m ++ rest ∧ m ≠ [] ∧ x ∉ m

/-- `f` reads something of which the character `x` is a part. -/
def ReadsWith (x : Char) (f : Reader Text) : Prop :=
  ∀ ⦃prev s rest⦄, f prev s = some rest → ∃ m, s = m ++ rest ∧ x ∈ m

section
variable {x : Char} {f : Reader Text}

theorem count_eraseFrom (hf : ReadsWithout x f) (s : Text) {n : Nat} (hn : x ∉ s.take n)
    (prev : Option Char) : (eraseFrom f prev n s).count x = s.count x := by
  induction s generalizing n prev with
  | nil => rfl
  | cons c s ih =>
    cases n with
    | succ n =>
      rw [List.take_succ_cons, List.mem_cons, not_or] at hn
      rw [eraseFrom, ih hn.2, List.count_cons_of_ne (Ne.symm hn.1)]
    | zero =>
      rw [eraseFrom]
      cases hs : f prev (c :: s) with
      | none => simp only [List.count_cons, ih (n := 0) (by simp)]
      | some rest =>
        obtain ⟨m, hm, hne, hx⟩ := hf hs
        obtain ⟨d, m, rfl⟩ := List.exists_cons_of_ne_nil hne
        obtain ⟨rfl, hb⟩ := List.cons.inj hm
        have htake : s.take (s.length - rest.length) = m := by simp [hb]
        rw [List.mem_cons, not_or] at hx
        rw [List.count_cons_of_ne (Ne.symm hx.1)]
        exact ih (by rw [htake]; exact hx.2) (some c)

theorem count_eraseAll (hf : ReadsWithout x f) (s : Text) : (eraseAll f s).count x = s.count x :=
  count_eraseFrom hf s (by simp) none

theorem count_eraseAll_lt (hf : ReadsWith x f) {s : Text} (h : occurs f s = true) :
    (eraseAll f s).count x < s.count x := by
  obtain ⟨⟨lead, rest⟩, hfind⟩ := Option.isSome_iff_exists.1 h
  obtain ⟨t, rfl, hne, hpass, ht⟩ := passes_of_find hfind
  obtain ⟨m, rfl, hx⟩ := hf ht
  have herase := eraseFrom_reads hpass ht (List.ne_nil_of_mem hx)
  have hle := (sublist_eraseFrom f ((lead ++ m).getLast?.or none) 0 rest).count_le x
  have hpos := List.count_pos_iff.2 hx
  rw [eraseAll, herase]
  simp only [List.count_append]
  omega

end

theorem count_replaceFirst {x : Char} {f : Reader Text} (hf : ReadsWithout x f) {s : Text}
    (h : occurs f s = true) (new : Text) :
    (replaceFirst f new s).count x = s.count x + new.count x := by
  obtain ⟨⟨lead, rest⟩, hfind⟩ := Option.isSome_iff_exists.1 h
  obtain ⟨t, rfl, ht⟩ := append_of_find hfind
  obtain ⟨m, rfl, -, hx⟩ := hf ht
  rw [replaceFirst, hfind]
  simp only [List.count_append, List.count_eq_zero_of_not_mem hx]
  omega

theorem count_replaceFirst_le {f : Reader Text}
    (hf : ∀ ⦃prev s rest⦄, f prev s = some rest → rest <:+ s) (x : Char) (new s : Text) :
    (replaceFirst f new s).count x ≤ s.count x + new.count x := by
  rw [replaceFirst]
  cases h : find f none s with
  | none => exact Nat.le_add_right _ _
  | some r =>
    obtain ⟨lead, rest⟩ := r
    obtain ⟨t, rfl, ht⟩ := append_of_find h
    have hle := (hf ht).sublist.count_le x
    simp only [List.count_append]
    omega

end SchemaDialects.Text
