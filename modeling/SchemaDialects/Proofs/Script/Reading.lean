import SchemaDialects.Proofs.Text.Trim
import SchemaDialects.Script.Kind

/-!
# Complete statements

A statement is read with the splitter's states, and the reader keeps its place
among the parentheses beside them. A statement is complete when its parentheses
balance and no item of its column list is blank; comments are blanks here.
-/

namespace SchemaDialects.Script

open Text

/-- A place among the parentheses of a statement. -/
inductive Place where
  | before
  /-- In the column list, under `depth` more parentheses, in an item that has
  begun or is still blank. -/
  | inside (depth : Nat) (begun : Bool)
  | after (depth : Nat)
  /-- Right behind the final semicolon and `more` others. -/
  | ended (more : Nat)
  | broken
  deriving DecidableEq

namespace Place

/-- Reads a part that is neither blank nor punctuation. -/
def fill : Place → Place
  | inside n _ => inside n true
  | ended _ => broken
  | p => p

/-- Reads a blank or a part of a comment. -/
def pass : Place → Place
  | ended _ => broken
  | p => p

def read : Place → Char → Place
  | before, c =>
    if c = '(' then inside 0 false else if c = ')' ∨ c = ';' then broken else before
  | inside 0 begun, c =>
    if c = '(' then inside 1 true
    else if c = ')' then (if begun then after 0 else broken)
    else if c = ',' then (if begun then inside 0 false else broken)
    else if c = ';' then broken
    else inside 0 true
  | inside (n + 1) _, c =>
    if c = '(' then inside (n + 2) true
    else if c = ')' then inside n true
    else if c = ';' then broken
    else inside (n + 1) true
  | after 0, c =>
    if c = '(' then after 1 else if c = ')' then broken else if c = ';' then ended 0 else after 0
  | after (n + 1), c =>
    if c = '(' then after (n + 2)
    else if c = ')' then after n
    else if c = ';' then broken
    else after (n + 1)
  | ended k, c => if c = ';' then ended (k + 1) else broken
  | broken, _ => broken

/-- Reads a character outside quotes and comments. A dash or a slash counts once
it is known that it opens no comment. -/
def readPlain (p : Place) (c : Char) : Place :=
  if isBlank c ∨ c = '-' ∨ c = '/' then p.pass else p.read c

def isEnded : Place → Bool
  | ended _ => true
  | _ => false

end Place

namespace Place

@[simp] theorem fill_fill (p : Place) : p.fill.fill = p.fill := by cases p <;> rfl

@[simp] theorem pass_fill (p : Place) : p.fill.pass = p.fill := by cases p <;> rfl

@[simp] theorem pass_pass (p : Place) : p.pass.pass = p.pass := by cases p <;> rfl

theorem pass_of_not_isEnded {p : Place} (h : p.isEnded = false) : p.pass = p := by
  cases p <;> first | rfl | cases h

end Place

structure Reading where
  lexical : Lexical
  place : Place
  deriving DecidableEq

namespace Reading

def start : Reading := ⟨.plain, .before⟩

def step (r : Reading) (c : Char) : Reading where
  lexical := r.lexical.step c
  place := match r.lexical with
    | .plain => r.place.readPlain c
    | .dash => if c = '-' then r.place.pass else r.place.fill.readPlain c
    | .slash => if c = '*' then r.place.pass else r.place.fill.readPlain c
    | .quoted _ | .escaped _ => r.place.fill
    | .lineComment | .blockComment | .blockStar => r.place.pass

def run (r : Reading) (s : Text) : Reading := s.foldl step r

@[simp] theorem run_nil (r : Reading) : r.run [] = r := rfl

@[simp] theorem run_cons (r : Reading) (c : Char) (s : Text) : r.run (c :: s) = (r.step c).run s :=
  rfl

theorem run_append (r : Reading) (s t : Text) : r.run (s ++ t) = (r.run s).run t := by
  simp [run]

@[simp] theorem lexical_run (r : Reading) (s : Text) : (r.run s).lexical = r.lexical.run s := by
  induction s generalizing r with
  | nil => rfl
  | cons c s ih => rw [run_cons, ih]; rfl

end Reading

/-- A single plain `CREATE TABLE` whose parentheses balance and whose column list
has no blank item. -/
structure IsComplete (s : Text) : Prop where
  single : statements s = [s]
  plain : isPlainCreateTable s = true
  place : (Reading.start.run s).place = .after 0 ∨ (Reading.start.run s).place = .ended 0

instance (s : Text) : Decidable (IsComplete s) :=
  decidable_of_iff (statements s = [s] ∧ isPlainCreateTable s = true
      ∧ ((Reading.start.run s).place = .after 0 ∨ (Reading.start.run s).place = .ended 0))
    ⟨fun h => ⟨h.1, h.2.1, h.2.2⟩, fun h => ⟨h.single, h.plain, h.place⟩⟩

/-! ## The end of a statement -/

theorem Place.isEnded_readPlain {p : Place} {c : Char} (h : (p.readPlain c).isEnded = true) :
    c = ';' := by
  unfold Place.readPlain at h
  split at h
  · cases p <;> cases h
  · by_cases hc : c = ';'
    · exact hc
    · exfalso
      rcases p with _ | ⟨_ | n, b⟩ | ⟨_ | n⟩ | k | _ <;> simp only [Place.read, hc, if_false] at h <;>
        (repeat' split at h) <;> cases h

theorem Place.readPlain_semicolon {p : Place} (h : p.isEnded = false) :
    p.readPlain ';' = .ended 0 ∨ p.readPlain ';' = .broken := by
  have hb : ¬ (isBlank ';' = true ∨ ';' = '-' ∨ ';' = '/') := by decide
  rw [Place.readPlain, if_neg hb]
  rcases p with _ | ⟨_ | n, b⟩ | ⟨_ | n⟩ | k | _
  · exact Or.inr rfl
  · exact Or.inr rfl
  · exact Or.inr rfl
  · exact Or.inl rfl
  · exact Or.inr rfl
  · cases h
  · exact Or.inr rfl

theorem Place.isEnded_fill (p : Place) : p.fill.isEnded = false := by cases p <;> rfl

theorem Place.isEnded_pass (p : Place) : p.pass.isEnded = false := by cases p <;> rfl

namespace Reading

theorem isEnded_step {r : Reading} {c : Char} (h : (r.step c).place.isEnded = true) :
    c = ';' ∧ r.lexical.isOutside = true := by
  obtain ⟨l, p⟩ := r
  have hf := Place.isEnded_fill p
  have hp := Place.isEnded_pass p
  cases l with
  | plain => exact ⟨Place.isEnded_readPlain h, rfl⟩
  | dash =>
    simp only [step] at h
    split at h
    · rw [hp] at h; cases h
    · exact ⟨Place.isEnded_readPlain h, rfl⟩
  | slash =>
    simp only [step] at h
    split at h
    · rw [hp] at h; cases h
    · exact ⟨Place.isEnded_readPlain h, rfl⟩
  | quoted q => exact absurd h (by simp [step, hf])
  | escaped q => exact absurd h (by simp [step, hf])
  | lineComment => exact absurd h (by simp [step, hp])
  | blockComment => exact absurd h (by simp [step, hp])
  | blockStar => exact absurd h (by simp [step, hp])

theorem place_step_semicolon {r : Reading} (ho : r.lexical.isOutside = true)
    (h : r.place.isEnded = false) :
    (r.step ';').place = .ended 0 ∨ (r.step ';').place = .broken := by
  obtain ⟨l, p⟩ := r
  cases l with
  | plain => exact Place.readPlain_semicolon h
  | dash => exact Place.readPlain_semicolon (Place.isEnded_fill p)
  | slash => exact Place.readPlain_semicolon (Place.isEnded_fill p)
  | _ => cases ho

theorem place_step_broken {r : Reading} (h : r.place = .broken) (c : Char) :
    (r.step c).place = .broken := by
  obtain ⟨l, p⟩ := r
  obtain rfl : p = .broken := h
  have hr : Place.readPlain .broken c = .broken := by
    unfold Place.readPlain
    split <;> rfl
  cases l with
  | plain => exact hr
  | dash => simp only [step]; split; exacts [rfl, hr]
  | slash => simp only [step]; split; exacts [rfl, hr]
  | _ => rfl

theorem place_run_broken {r : Reading} (h : r.place = .broken) (s : Text) :
    (r.run s).place = .broken := by
  induction s generalizing r with
  | nil => exact h
  | cons c s ih => exact ih (place_step_broken h c)

theorem place_run_ended {k : Nat} {s : Text} (hs : s ≠ []) :
    (run ⟨.plain, .ended k⟩ s).place = .broken ∨
      ∃ j, k < j ∧ (run ⟨.plain, .ended k⟩ s).place = .ended j := by
  induction s generalizing k with
  | nil => exact absurd rfl hs
  | cons c s ih =>
    by_cases hc : c = ';'
    · subst hc
      have hstep : step ⟨.plain, .ended k⟩ ';' = ⟨.plain, .ended (k + 1)⟩ := by
        have hb : ¬ (isBlank ';' = true ∨ ';' = '-' ∨ ';' = '/') := by decide
        simp only [step, Place.readPlain, if_neg hb]
        rfl
      rw [run_cons, hstep]
      by_cases hn : s = []
      · exact Or.inr ⟨k + 1, by omega, by rw [hn]; rfl⟩
      · rcases ih (k := k + 1) hn with h | ⟨j, hj, h⟩
        · exact Or.inl h
        · exact Or.inr ⟨j, by omega, h⟩
    · left
      refine place_run_broken ?_ s
      show Place.readPlain (.ended k) c = .broken
      unfold Place.readPlain
      split
      · rfl
      · exact if_neg hc

theorem pieces_of_place {r : Reading} {s : Text}
    (h : (r.run s).place = .after 0 ∨ (r.run s).place = .ended 0) (hr : r.place.isEnded = false)
    (hs : s ≠ []) : pieces r.lexical s = [s] := by
  induction s generalizing r with
  | nil => exact absurd rfl hs
  | cons c s ih =>
    rw [run_cons] at h
    by_cases hc : c = ';' ∧ r.lexical.isOutside = true
    · obtain ⟨rfl, ho⟩ := hc
      have hlex : (r.step ';').lexical = .plain := Lexical.step_semicolon ho
      rcases place_step_semicolon ho hr with hp | hp
      · have hnil : s = [] := by
          by_contra hne
          have hstep : r.step ';' = ⟨.plain, .ended 0⟩ := by rw [← hlex, ← hp]
          rw [hstep] at h
          rcases place_run_ended (k := 0) hne with hb | ⟨j, hj, hb⟩
          · rw [hb] at h
            rcases h with h | h <;> cases h
          · rw [hb] at h
            rcases h with h | h
            · cases h
            · cases h
              omega
        rw [hnil, pieces, if_pos ⟨rfl, ho⟩]
        rfl
      · rw [place_run_broken hp] at h
        rcases h with h | h <;> cases h
    · have hstep : (r.step c).place.isEnded = false := by
        rw [Bool.eq_false_iff]
        exact fun he => hc (isEnded_step he)
      rw [pieces, if_neg hc]
      by_cases hnil : s = []
      · rw [hnil]
        rfl
      · rw [show r.lexical.step c = (r.step c).lexical from rfl, ih h hstep hnil]

theorem statements_of_place {s : Text}
    (h : (start.run s).place = .after 0 ∨ (start.run s).place = .ended 0) (ht : trim s = s) :
    statements s = [s] := by
  have hne : s ≠ [] := by
    rintro rfl
    rcases h with h | h <;> cases h
  have hp : pieces .plain s = [s] := pieces_of_place (r := start) h rfl hne
  simp [statements, hp, ht, hne]

end Reading

theorem isComplete_iff {s : Text} (ht : trim s = s) (hp : isPlainCreateTable s = true) :
    IsComplete s ↔ (Reading.start.run s).place = .after 0 ∨ (Reading.start.run s).place = .ended 0 :=
  ⟨IsComplete.place, fun h => ⟨Reading.statements_of_place h ht, hp, h⟩⟩

end SchemaDialects.Script
