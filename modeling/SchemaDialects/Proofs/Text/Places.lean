import SchemaDialects.Text.Search

/-!
# Places of a text

A search that reads nothing at the places of the first part of a text goes on
in the second part, and so does erasing.
-/

namespace SchemaDialects.Text

/-- What is said of the places of a text is said of finitely many. -/
theorem forall_places_iff {P : Text → Text → Prop} {s : Text} :
    (∀ a b, s = a ++ b → P a b) ↔ ∀ n ∈ List.range (s.length + 1), P (s.take n) (s.drop n) := by
  refine ⟨fun h n _ => h _ _ (List.take_append_drop n s).symm, ?_⟩
  rintro h a b rfl
  have := h a.length (List.mem_range.2 (by rw [List.length_append]; omega))
  rwa [List.take_left, List.drop_left] at this

section
variable {α : Type} {f : Reader α}

/-- `f` reads nothing at the places of `s`, a text that `t` follows. -/
def Passes (f : Reader α) (prev : Option Char) (s t : Text) : Prop :=
  ∀ a b, s = a ++ b → b ≠ [] → f (a.getLast?.or prev) (b ++ t) = none

theorem Passes.head {prev : Option Char} {c : Char} {s t : Text} (h : Passes f prev (c :: s) t) :
    f prev (c :: (s ++ t)) = none := by
  simpa using h [] (c :: s) rfl (by simp)

theorem Passes.tail {prev : Option Char} {c : Char} {s t : Text} (h : Passes f prev (c :: s) t) :
    Passes f (some c) s t := by
  intro a b hs hb
  have := h (c :: a) b (by simp [hs]) hb
  rw [List.getLast?_cons] at this
  cases ha : a.getLast? <;> simpa [ha] using this

theorem Passes.append {prev : Option Char} {s t u : Text} (hs : Passes f prev s (t ++ u))
    (ht : Passes f (s.getLast?.or prev) t u) : Passes f prev (s ++ t) u := by
  intro a b he hb
  rcases List.append_eq_append_iff.1 he with ⟨m, rfl, rfl⟩ | ⟨m, rfl, rfl⟩
  · have := ht m b rfl hb
    rw [List.getLast?_append, Option.or_assoc]
    exact this
  · by_cases hm : m = []
    · subst hm
      have := ht [] t rfl (by simpa using hb)
      simpa using this
    · rw [List.append_assoc]
      exact hs a m rfl hm

theorem find_append {prev : Option Char} {s t : Text} (h : Passes f prev s t) :
    find f prev (s ++ t) = (find f (s.getLast?.or prev) t).map fun r => (s ++ r.1, r.2) := by
  induction s generalizing prev with
  | nil => cases hr : find f prev t <;> simp [hr]
  | cons c s ih =>
    rw [List.cons_append, find, h.head, ih h.tail]
    have hl : (c :: s).getLast?.or prev = s.getLast?.or (some c) := by
      cases s <;> simp [List.getLast?_cons]
    rw [hl, Option.map_map]
    rfl

theorem find_eq_none {prev : Option Char} {s : Text} (h : Passes f prev s []) :
    find f prev s = none := by
  have := find_append h
  simpa [find] using this

theorem Passes.nil (prev : Option Char) (t : Text) : Passes f prev [] t := by
  intro a b hab hb
  exact absurd (List.append_eq_nil_iff.1 hab.symm).2 hb

theorem Passes.cons {prev : Option Char} {c : Char} {s t : Text} (hc : f prev (c :: (s ++ t)) = none)
    (hs : Passes f (some c) s t) : Passes f prev (c :: s) t := by
  intro a b hab hb
  cases a with
  | nil =>
    rw [List.nil_append] at hab
    rw [← hab]
    exact hc
  | cons d a =>
    obtain ⟨rfl, rfl⟩ := List.cons.inj hab
    have hl : (c :: a).getLast?.or prev = a.getLast?.or (some c) := by
      cases a <;> simp [List.getLast?_cons]
    rw [hl]
    exact hs a b rfl hb

theorem passes_of_find {prev : Option Char} {s lead : Text} {x : α}
    (h : find f prev s = some (lead, x)) :
    ∃ t, s = lead ++ t ∧ t ≠ [] ∧ Passes f prev lead t ∧ f (lead.getLast?.or prev) t = some x := by
  induction s generalizing prev lead with
  | nil => cases h
  | cons c s ih =>
    rw [find] at h
    cases hf : f prev (c :: s) with
    | some y =>
      rw [hf] at h
      obtain ⟨rfl, rfl⟩ := Prod.mk.inj (Option.some.inj h)
      exact ⟨c :: s, rfl, by simp, .nil prev _, by simpa using hf⟩
    | none =>
      rw [hf] at h
      obtain ⟨⟨lead', y⟩, hr, he⟩ := Option.map_eq_some_iff.1 h
      obtain ⟨rfl, rfl⟩ := Prod.mk.inj he
      obtain ⟨t, rfl, hne, hpass, ht⟩ := ih hr
      have hl : (c :: lead').getLast?.or prev = lead'.getLast?.or (some c) := by
        cases lead' <;> simp [List.getLast?_cons]
      exact ⟨t, rfl, hne, hpass.cons hf, by rw [hl]; exact ht⟩

theorem passes_of_find_eq_none {prev : Option Char} {s : Text} (h : find f prev s = none) :
    Passes f prev s [] := by
  induction s generalizing prev with
  | nil => exact .nil prev []
  | cons c s ih =>
    rw [find] at h
    cases hf : f prev (c :: s) with
    | some y =>
      rw [hf] at h
      cases h
    | none =>
      rw [hf] at h
      exact (ih (Option.map_eq_none_iff.1 h)).cons (by rw [List.append_nil]; exact hf)

theorem occurs_eq_false {s : Text} (h : Passes f none s []) : occurs f s = false := by
  simp [occurs, find_eq_none h]

theorem find_of_reads {prev : Option Char} {s t : Text} {a : α} (h : Passes f prev s t)
    (ht : f (s.getLast?.or prev) t = some a) (hne : t ≠ []) : find f prev (s ++ t) = some (s, a) := by
  obtain ⟨c, t, rfl⟩ := List.exists_cons_of_ne_nil hne
  rw [find_append h, find, ht]
  simp

end

theorem eraseFrom_append {f : Reader Text} {prev : Option Char} {s t : Text}
    (h : Passes f prev s t) :
    eraseFrom f prev 0 (s ++ t) = s ++ eraseFrom f (s.getLast?.or prev) 0 t := by
  induction s generalizing prev with
  | nil => simp
  | cons c s ih =>
    rw [List.cons_append, eraseFrom, h.head, ih h.tail]
    have hl : (c :: s).getLast?.or prev = s.getLast?.or (some c) := by
      cases s <;> simp [List.getLast?_cons]
    rw [hl]
    rfl

theorem eraseFrom_pending (f : Reader Text) (prev : Option Char) (s t : Text) :
    eraseFrom f prev s.length (s ++ t) = eraseFrom f (s.getLast?.or prev) 0 t := by
  induction s generalizing prev with
  | nil => simp
  | cons c s ih =>
    rw [List.length_cons, List.cons_append, eraseFrom, ih]
    cases s <;> simp [List.getLast?_cons]

theorem eraseFrom_reads {f : Reader Text} {prev : Option Char} {s r t : Text}
    (h : Passes f prev s (r ++ t)) (hr : f (s.getLast?.or prev) (r ++ t) = some t) (hne : r ≠ []) :
    eraseFrom f prev 0 (s ++ (r ++ t)) = s ++ eraseFrom f ((s ++ r).getLast?.or prev) 0 t := by
  rw [eraseFrom_append h]
  obtain ⟨c, r, rfl⟩ := List.exists_cons_of_ne_nil hne
  rw [List.cons_append] at hr ⊢
  have hl : (r ++ t).length - t.length = r.length := by simp
  rw [eraseFrom, hr]
  simp only [hl]
  rw [eraseFrom_pending]
  congr 2
  cases r <;> simp [List.getLast?_cons]

end SchemaDialects.Text
