import SchemaDialects.Proofs.Text.Places
import SchemaDialects.Proofs.Text.Scan

/-!
# Where a text goes on

A scanner stops before `y` if it reads in front of `y` what it reads where the
text ends. What such a scanner erases in a text does not depend on what follows,
so a text in two parts is erased part by part.
-/

namespace SchemaDialects.Text

/-- In front of `y` the scanner reads what it reads in a text that ends there. -/
def Scanner.StopsBefore (f : Scanner) (y : Text) : Prop :=
  ∀ a, f (a ++ y) = (f a).map (· ++ y)

section
variable {f g : Scanner} {y : Text}

theorem Scanner.StopsBefore.nil (hf : f.StopsBefore y) (h : f [] = none) : f y = none := by
  have := hf []
  rwa [h] at this

theorem Scanner.StopsBefore.bind (hf : f.StopsBefore y) (hg : g.StopsBefore y) :
    Scanner.StopsBefore (fun s => f s >>= g) y := by
  intro a
  show f (a ++ y) >>= g = (f a >>= g).map (· ++ y)
  rw [hf a]
  cases f a with
  | none => rfl
  | some r => exact hg r

theorem stopsBefore_char {x : Char} (h : ∀ c ∈ y.head?, c ≠ x) : Scanner.StopsBefore (char x) y := by
  intro a
  cases a with
  | cons c a =>
    rw [List.cons_append, char, char]
    split
    · rfl
    · rfl
  | nil =>
    cases y with
    | nil => rfl
    | cons c y => exact if_neg (h c rfl)

theorem stopsBefore_keyword {k : Text} (h : ∀ x ∈ k, ∀ c ∈ y.head?, foldsTo x c = false) :
    Scanner.StopsBefore (keyword k) y := by
  induction k with
  | nil => exact fun a => rfl
  | cons x k ih =>
    intro a
    cases a with
    | cons c a =>
      rw [List.cons_append, keyword, keyword]
      split
      · exact ih (fun z hz => h z (by simp [hz])) a
      · rfl
    | nil =>
      cases y with
      | nil => rfl
      | cons c y =>
        have hc : foldsTo x c = false := h x (by simp) c rfl
        exact keyword_of_head hc k y

/-- Behind a run a scanner may stand at the end of the text. It must not read what
comes after the run there either. -/
theorem stopsBefore_dropWhile {p : Char → Bool} (hg : g.StopsBefore y) (hnil : g [] = none)
    (hy : g (y.dropWhile p) = none) : Scanner.StopsBefore (fun s => g (s.dropWhile p)) y := by
  intro a
  show g ((a ++ y).dropWhile p) = (g (a.dropWhile p)).map (· ++ y)
  rw [List.dropWhile_append]
  split
  · next h =>
    rw [List.isEmpty_iff.1 h, hnil, hy]
    rfl
  · exact hg _

theorem stopsBefore_blanks1 (hg : g.StopsBefore y) (hnil : g [] = none)
    (hy : g (blanks y) = none) : Scanner.StopsBefore (fun s => blanks1 s >>= g) y := by
  have hrun := stopsBefore_dropWhile (p := isBlank) hg hnil hy
  have hblanks1 : ∀ c s, blanks1 (c :: s) >>= g
      = if isBlank c then g ((c :: s).dropWhile isBlank) else none := by
    intro c s
    rw [blanks1, many1]
    split
    · next hc =>
      rw [List.dropWhile_cons_of_pos hc]
      rfl
    · rfl
  intro a
  cases a with
  | cons c a =>
    show blanks1 (c :: (a ++ y)) >>= g = (blanks1 (c :: a) >>= g).map (· ++ y)
    rw [hblanks1, hblanks1]
    split
    · exact hrun (c :: a)
    · rfl
  | nil =>
    cases y with
    | nil => rfl
    | cons c y =>
      show blanks1 (c :: y) >>= g = none
      rw [hblanks1]
      split
      · exact hy
      · rfl

theorem stopsBefore_optional (hf : f.StopsBefore y) (a : Text) :
    optional f (a ++ y) = optional f a ++ y := by
  rw [optional, optional, hf a]
  cases f a <;> rfl

/-! ## Erasing part by part -/

theorem eraseFrom_anywhere (f : Scanner) (prev prev' : Option Char) (n : Nat) (s : Text) :
    eraseFrom (anywhere f) prev n s = eraseFrom (anywhere f) prev' n s := by
  cases s with
  | nil => rfl
  | cons c s => cases n <;> rfl

theorem eraseFrom_append_of_stops (hf : f.StopsBefore y) (prev : Option Char) {n : Nat} {a : Text}
    (hn : n ≤ a.length) : eraseFrom (anywhere f) prev n (a ++ y)
      = eraseFrom (anywhere f) prev n a ++ eraseAll (anywhere f) y := by
  induction a generalizing prev n with
  | nil =>
    obtain rfl : n = 0 := Nat.le_zero.1 hn
    exact eraseFrom_anywhere f prev none 0 y
  | cons c a ih =>
    cases n with
    | succ n => exact ih (some c) (Nat.le_of_succ_le_succ hn)
    | zero =>
      have hread : anywhere f prev (c :: (a ++ y)) = (anywhere f prev (c :: a)).map (· ++ y) :=
        hf (c :: a)
      rw [List.cons_append, eraseFrom, eraseFrom, hread]
      cases anywhere f prev (c :: a) with
      | none => exact congrArg (c :: ·) (ih (some c) (Nat.zero_le _))
      | some r =>
        have hlen : (a ++ y).length - (r ++ y).length = a.length - r.length := by
          rw [List.length_append, List.length_append, Nat.add_sub_add_right]
        show eraseFrom (anywhere f) (some c) ((a ++ y).length - (r ++ y).length) (a ++ y) = _
        rw [hlen]
        exact ih (some c) (Nat.sub_le _ _)

theorem eraseAll_append_of_stops (hf : f.StopsBefore y) (a : Text) :
    eraseAll (anywhere f) (a ++ y) = eraseAll (anywhere f) a ++ eraseAll (anywhere f) y :=
  eraseFrom_append_of_stops hf none (Nat.zero_le _)

theorem eraseAll_cons_of_none {c : Char} {s : Text} (h : f (c :: s) = none) :
    eraseAll (anywhere f) (c :: s) = c :: eraseAll (anywhere f) s := by
  have hread : anywhere f none (c :: s) = none := h
  rw [eraseAll, eraseFrom, hread, eraseAll, eraseFrom_anywhere f none (some c)]

/-- Where blanks are read whole, what is left does not end with a blank if the text
does not. -/
theorem last_eraseFrom (hf : ∀ {c d s}, isBlank c = true → isBlank d = true →
      f (c :: d :: s) = f (d :: s))
    (hstart : ∀ {c s r}, f (c :: s) = some r → isBlank c = true)
    {s : Text} (hs : s.getLast?.any isBlank = false) (prev : Option Char) (n : Nat) :
    (eraseFrom (anywhere f) prev n s).getLast?.any isBlank = false := by
  induction s generalizing prev n with
  | nil => rfl
  | cons c s ih =>
    have hs' : s.getLast?.any isBlank = false := by
      cases s with
      | nil => rfl
      | cons d s => rwa [List.getLast?_cons_cons] at hs
    cases n with
    | succ n => exact ih hs' _ _
    | zero =>
      rw [eraseFrom]
      cases hread : anywhere f prev (c :: s) with
      | some r => exact ih hs' _ _
      | none =>
        show (c :: eraseFrom (anywhere f) (some c) 0 s).getLast?.any isBlank = false
        have ih := ih hs' (some c) 0
        cases hleft : eraseFrom (anywhere f) (some c) 0 s with
        | cons d left =>
          rw [hleft] at ih
          rwa [List.getLast?_cons_cons]
        | nil =>
          cases s with
          | nil => exact hs
          | cons d s =>
            -- What is read at `d` would be read at a blank before it.
            cases hd : anywhere f (some c) (d :: s) with
            | none =>
              rw [eraseFrom, hd] at hleft
              cases hleft
            | some r =>
              have hfd : f (d :: s) = some r := hd
              have hfc : f (c :: d :: s) = none := hread
              by_contra hc
              have hblank : isBlank c = true := by simpa using hc
              rw [hf hblank (hstart hfd), hfd] at hfc
              cases hfc

end

end SchemaDialects.Text
