import SchemaDialects.Definition.Lines
import SchemaDialects.Direction
import SchemaDialects.Proofs.Text.Trim

/-!
# Changing quotes piece by piece

What the quotes of a text become depends on what stood before it only through
two switches: whether a string literal is open, and whether a quoted name is.
-/

namespace SchemaDialects.Definition

open Text

/-- What is open. -/
structure Quoting where
  inString : Bool
  inName : Bool
  deriving DecidableEq

namespace Quoting

def closed : Quoting := ⟨false, false⟩

def step (old : Char) (q : Quoting) (c : Char) : Quoting :=
  if c = '\'' ∧ q.inName = false then ⟨!q.inString, q.inName⟩
  else if c = old ∧ q.inString = false then ⟨q.inString, !q.inName⟩
  else q

def run (old : Char) (q : Quoting) (s : Text) : Quoting := s.foldl (step old) q

theorem run_append (old : Char) (q : Quoting) (s t : Text) :
    q.run old (s ++ t) = (q.run old s).run old t :=
  List.foldl_append

end Quoting

/-- Writes `new` for `old` in a text that starts where `q` is open. -/
def requoteAt (old new : Char) (q : Quoting) (s : Text) : Text :=
  requoteFrom old new q.inString q.inName s

section
variable {old new : Char}

theorem requoteAt_cons (q : Quoting) (c : Char) (s : Text) :
    requoteAt old new q (c :: s) =
      (if c = old ∧ q.inString = false ∧ (c = '\'' → q.inName = true) then new else c)
        :: requoteAt old new (q.step old c) s := by
  unfold requoteAt
  rw [requoteFrom]
  by_cases hquote : c = '\'' ∧ q.inName = false
  · rw [if_pos hquote, Quoting.step, if_pos hquote, if_neg]
    rintro ⟨-, -, hname⟩
    rw [hname hquote.1] at hquote
    cases hquote.2
  · have hname : c = '\'' → q.inName = true := fun hc => by simpa [hc] using hquote
    rw [if_neg hquote, Quoting.step, if_neg hquote]
    by_cases hold : c = old ∧ q.inString = false
    · rw [if_pos hold, if_pos hold, if_pos ⟨hold.1, hold.2, hname⟩]
    · rw [if_neg hold, if_neg hold, if_neg fun h => hold ⟨h.1, h.2.1⟩]

theorem requoteAt_append (q : Quoting) (s t : Text) :
    requoteAt old new q (s ++ t) = requoteAt old new q s ++ requoteAt old new (q.run old s) t := by
  induction s generalizing q with
  | nil => rfl
  | cons c s ih => rw [List.cons_append, requoteAt_cons, requoteAt_cons, ih]; rfl

theorem requoteAt_of_not_mem (q : Quoting) {s : Text} (h : old ∉ s) :
    requoteAt old new q s = s := by
  induction s generalizing q with
  | nil => rfl
  | cons c s ih =>
    have hc : c ≠ old := fun hc => h (by simp [hc])
    rw [requoteAt_cons, if_neg fun hq => hc hq.1, ih _ fun hm => h (by simp [hm])]

theorem run_of_not_mem (q : Quoting) {s : Text} (h : old ∉ s) (hs : '\'' ∉ s) :
    q.run old s = q := by
  induction s generalizing q with
  | nil => rfl
  | cons c s ih =>
    have hc : c ≠ old := fun hc => h (by simp [hc])
    have hq : c ≠ '\'' := fun hc => hs (by simp [hc])
    have hstep : q.step old c = q := by simp [Quoting.step, hc, hq]
    show (q.step old c).run old s = q
    rw [hstep, ih _ (fun hm => h (by simp [hm])) fun hm => hs (by simp [hm])]

theorem forall₂_requoteAt (q : Quoting) (s : Text) :
    List.Forall₂ (fun c d => d = c ∨ c = old ∧ d = new) s (requoteAt old new q s) := by
  induction s generalizing q with
  | nil => exact .nil
  | cons c s ih =>
    rw [requoteAt_cons]
    refine .cons ?_ (ih _)
    split
    · next h => exact .inr ⟨h.1, rfl⟩
    · exact .inl rfl

theorem map_requoteAt {α : Type} {f : Char → α} (hf : f new = f old) (q : Quoting)
    (s : Text) : (requoteAt old new q s).map f = s.map f := by
  induction s generalizing q with
  | nil => rfl
  | cons c s ih =>
    rw [requoteAt_cons, List.map_cons, List.map_cons, ih]
    congr 1
    split
    · next h => rw [hf, h.1]
    · rfl

theorem not_mem_requoteAt {x : Char} (hx : x ≠ new) (q : Quoting) {s : Text} (h : x ∉ s) :
    x ∉ requoteAt old new q s := by
  induction s generalizing q with
  | nil => simp [requoteAt, requoteFrom]
  | cons c s ih =>
    rw [requoteAt_cons]
    intro hm
    rcases List.mem_cons.1 hm with hm | hm
    · split at hm
      · exact hx hm
      · exact h (by simp [hm])
    · exact ih _ (fun hs => h (by simp [hs])) hm

end

end SchemaDialects.Definition
