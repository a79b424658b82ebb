import SchemaDialects.Proofs.Definition.Chunks
import SchemaDialects.Proofs.Definition.Quoting
import SchemaDialects.Proofs.Text.Erasing

/-!
# The quoted names of a line

A line is read for the names between double quotes or backticks. In a string
literal there are no names, and in MySQL a backslash in a literal takes the next
character's meaning away. Main statements: what stands in no name can be taken
out with every name left as it was, and so can quotes be changed around names
without quotes in them.
-/

namespace SchemaDialects.Definition

open Text Script

/-! ## Reading -/

/-- Where a reader of names stands. -/
inductive Part where
  | outside
  | literal
  /-- In a literal, behind a backslash. -/
  | escaped
  /-- Behind the quote `q` that opens a name, and the start `s` of the name. -/
  | name (q : Char) (s : Text)
  deriving DecidableEq

namespace Part

def next (d : Dialect) : Part → Char → Part
  | outside, c => if c = '\'' then literal else if isNameQuote c then name c [] else outside
  | literal, c => if c = '\'' then outside else if c = '\\' ∧ d = .mysql then escaped else literal
  | escaped, _ => literal
  | name q s, c => if c = q then outside else name q (s ++ [c])

/-- The name that the next character closes. -/
def closes : Part → Char → List Text
  | name q s, c => if c = q then [s] else []
  | _, _ => []

def isName : Part → Bool
  | name _ _ => true
  | _ => false

end Part

/-- What a line has been read as. -/
@[ext] structure NameReading where
  part : Part
  /-- The names that have been closed. -/
  names : List Text
  deriving DecidableEq

namespace NameReading

def start : NameReading := ⟨.outside, []⟩

def step (d : Dialect) (r : NameReading) (c : Char) : NameReading :=
  ⟨r.part.next d c, r.names ++ r.part.closes c⟩

def run (d : Dialect) (r : NameReading) (s : Text) : NameReading := s.foldl (step d) r

section
variable (d : Dialect) (r : NameReading)

@[simp] theorem run_nil : r.run d [] = r := rfl

@[simp] theorem run_cons (c : Char) (s : Text) : r.run d (c :: s) = (r.step d c).run d s := rfl

theorem run_append (s t : Text) : r.run d (s ++ t) = (r.run d s).run d t := List.foldl_append

theorem exists_names (s : Text) : ∃ l, (r.run d s).names = r.names ++ l := by
  induction s generalizing r with
  | nil => exact ⟨[], (List.append_nil _).symm⟩
  | cons c s ih =>
    obtain ⟨l, hl⟩ := ih (r.step d c)
    exact ⟨r.part.closes c ++ l, by rw [run_cons, hl, step, List.append_assoc]⟩

/-- The names before a text are no matter to how it is read. -/
theorem run_names (l : List Text) (s : Text) :
    run d ⟨r.part, l ++ r.names⟩ s = ⟨(r.run d s).part, l ++ (r.run d s).names⟩ := by
  induction s generalizing r with
  | nil => rfl
  | cons c s ih =>
    rw [run_cons, run_cons, ← ih]
    simp [step]

end

end NameReading

/-- The names of a line in quotes of either kind. -/
def quotedNames (d : Dialect) (s : Text) : List Text := (NameReading.start.run d s).names

/-! ## Neutral characters -/

/-- Characters that open and close nothing. -/
def isNeutral (c : Char) : Prop := c ∉ ['\'', '"', '`', '\\']

instance : DecidablePred isNeutral := fun c => inferInstanceAs (Decidable (c ∉ _))

theorem isNeutral_of_isPart {c : Char} (h : isPart c) : isNeutral c := by
  have hpart : ∀ x ∈ ['\'', '"', '`', '\\'], ¬ isPart x := by
    simp only [isPart]
    decide
  exact fun hc => hpart c hc h

section
variable {d : Dialect} {r : NameReading}

theorem step_of_isNeutral (hr : r.part = .outside ∨ r.part = .literal) {c : Char}
    (hc : isNeutral c) : r.step d c = r := by
  simp only [isNeutral, List.mem_cons, List.not_mem_nil, or_false, not_or] at hc
  obtain ⟨p, names⟩ := r
  rcases hr with hp | hp
  · obtain rfl : p = .outside := hp
    simp [NameReading.step, Part.next, Part.closes, isNameQuote, hc]
  · obtain rfl : p = .literal := hp
    simp [NameReading.step, Part.next, Part.closes, hc]

theorem run_of_isNeutral (hr : r.part = .outside ∨ r.part = .literal) {m : Text}
    (hm : ∀ c ∈ m, isNeutral c) : r.run d m = r := by
  induction m with
  | nil => rfl
  | cons c m ih =>
    rw [NameReading.run_cons, step_of_isNeutral hr (hm c (by simp)), ih fun e he => hm e (by simp [he])]

theorem run_cons_of_isNeutral (hr : r.part.isName = false) {c : Char} {m : Text}
    (hm : ∀ x ∈ c :: m, isNeutral x) :
    r.run d (c :: m) = ⟨if r.part = .outside then .outside else .literal, r.names⟩ := by
  cases hp : r.part with
  | outside => rw [run_of_isNeutral (Or.inl hp) hm, if_pos rfl, ← hp]
  | literal => rw [run_of_isNeutral (Or.inr hp) hm, if_neg (by simp), ← hp]
  | escaped =>
    have hstep : r.step d c = ⟨.literal, r.names⟩ := by
      simp [NameReading.step, hp, Part.next, Part.closes]
    rw [NameReading.run_cons, hstep, if_neg (by simp)]
    exact run_of_isNeutral (Or.inr rfl) (List.forall_mem_cons.1 hm).2
  | name q n =>
    rw [hp] at hr
    cases hr

/-- Outside names one neutral text is read as any other. -/
theorem run_eq_of_isNeutral (hr : r.part.isName = false) {m n : Text} (hm : ∀ c ∈ m, isNeutral c)
    (hn : ∀ c ∈ n, isNeutral c) (hne : m ≠ []) (hne' : n ≠ []) : r.run d m = r.run d n := by
  obtain ⟨c, m, rfl⟩ := List.exists_cons_of_ne_nil hne
  obtain ⟨c', n, rfl⟩ := List.exists_cons_of_ne_nil hne'
  rw [run_cons_of_isNeutral hr hm, run_cons_of_isNeutral hr hn]

/-! ## Names that are read -/

theorem Part.eq_of_next_name {p : Part} {c q : Char} {n : Text} (h : p.next d c = .name q n) :
    c = q ∧ isNameQuote q = true ∧ n = [] ∨ ∃ n', p = .name q n' ∧ n = n' ++ [c] := by
  cases p with
  | outside =>
    simp only [Part.next] at h
    split at h
    · cases h
    · split at h
      · next hq =>
        obtain ⟨rfl, rfl⟩ := Part.name.inj h
        exact Or.inl ⟨rfl, hq, rfl⟩
      · cases h
  | literal =>
    simp only [Part.next] at h
    split at h
    · cases h
    · split at h <;> cases h
  | escaped => cases h
  | name q' n' =>
    simp only [Part.next] at h
    split at h
    · cases h
    · obtain ⟨rfl, rfl⟩ := Part.name.inj h
      exact Or.inr ⟨n', rfl, rfl⟩

theorem isNameQuote_of_part_name {a : Text} {q : Char} {n : Text}
    (h : (NameReading.start.run d a).part = .name q n) : isNameQuote q = true := by
  induction a using List.reverseRecOn generalizing n with
  | nil => cases h
  | append_singleton a c ih =>
    rw [NameReading.run_append, NameReading.run_cons, NameReading.run_nil] at h
    rcases Part.eq_of_next_name h with ⟨-, hq, -⟩ | ⟨n', hp, -⟩
    · exact hq
    · exact ih hp

theorem run_in_name {q : Char} {s : Text} (hs : q ∉ s) (x : Text) (names : List Text) :
    NameReading.run d ⟨.name q x, names⟩ s = ⟨.name q (x ++ s), names⟩ := by
  induction s generalizing x with
  | nil => rw [NameReading.run_nil, List.append_nil]
  | cons c s ih =>
    rw [List.mem_cons, not_or] at hs
    have hstep : NameReading.step d ⟨.name q x, names⟩ c = ⟨.name q (x ++ [c]), names⟩ := by
      simp [NameReading.step, Part.next, Part.closes, Ne.symm hs.1]
    rw [NameReading.run_cons, hstep, ih hs.2, List.append_assoc, List.singleton_append]

theorem run_name {q : Char} {s : Text} (hs : q ∉ s) (x : Text) (names : List Text) :
    NameReading.run d ⟨.name q x, names⟩ (s ++ [q]) = ⟨.outside, names ++ [x ++ s]⟩ := by
  rw [NameReading.run_append, run_in_name hs]
  simp [NameReading.step, Part.next, Part.closes]

/-- A name that is open takes what stands before the quote that closes it. -/
theorem run_to_quote {q : Char} {s x : Text} (hs : q ∉ s) (hx : q ∉ x) (n : Text)
    (names : List Text) (t : Text) :
    NameReading.run d ⟨.name q n, names⟩ (s ++ (x ++ q :: t))
      = ⟨(NameReading.start.run d t).part, names ++ (n ++ s ++ x) :: quotedNames d t⟩ := by
  have hsplit : s ++ (x ++ q :: t) = s ++ (x ++ [q]) ++ t := by simp
  have hshift := NameReading.run_names d .start (names ++ [n ++ s ++ x]) t
  rw [hsplit, NameReading.run_append, NameReading.run_append, run_in_name hs, run_name hx]
  simpa [NameReading.start, quotedNames] using hshift

theorem exists_of_closed {q : Char} {n : Text} {s : Text} (h : r.part = .name q n)
    (hs : (r.run d s).part.isName = false) :
    ∃ x y, s = x ++ q :: y ∧ q ∉ x ∧ n ++ x ∈ (r.run d s).names := by
  induction s generalizing r n with
  | nil =>
    rw [NameReading.run_nil, h] at hs
    cases hs
  | cons c s ih =>
    by_cases hc : c = q
    · refine ⟨[], s, by rw [hc]; rfl, List.not_mem_nil, ?_⟩
      obtain ⟨l, hl⟩ := (r.step d c).exists_names d s
      rw [NameReading.run_cons, hl, List.append_nil]
      simp [NameReading.step, h, Part.closes, hc]
    · have hpart : (r.step d c).part = .name q (n ++ [c]) := by
        simp [NameReading.step, h, Part.next, hc]
      obtain ⟨x, y, rfl, hx, hmem⟩ := ih hpart hs
      refine ⟨c :: x, y, rfl, ?_, by simpa using hmem⟩
      simp [hx, Ne.symm hc]

end

/-! ## Taking texts out -/

/-- Nothing that `f` takes out of `s` stands in a name. It begins in plain text, or in a literal that
goes on behind it. -/
def Spares (d : Dialect) (f : Reader Text) (s : Text) : Prop :=
  ∀ p ∈ erased f s, (NameReading.start.run d p.1).part = .outside
    ∨ (NameReading.start.run d p.1).part = .literal
      ∧ (NameReading.start.run d p.1).run d p.2 = NameReading.start.run d p.1

instance (d : Dialect) (f : Reader Text) (s : Text) : Decidable (Spares d f s) :=
  inferInstanceAs (Decidable (∀ p ∈ erased f s, _))

/-- What `f` reads in plain text, the reader of names leaves in plain text, with no name closed. -/
def StaysOutside (d : Dialect) (f : Reader Text) : Prop :=
  ∀ ⦃prev s rest⦄, f prev s = some rest →
    ∃ m, s = m ++ rest ∧ m ≠ [] ∧ ∀ r : NameReading, r.part = .outside → r.run d m = r

/-- What `f` reads has neither a quote nor a backslash in it. -/
def TakesNeutral (f : Reader Text) : Prop :=
  ∀ ⦃prev s rest⦄, f prev s = some rest → ∃ m, s = m ++ rest ∧ m ≠ [] ∧ ∀ x ∈ m, isNeutral x

theorem TakesNeutral.staysOutside {f : Reader Text} (hf : TakesNeutral f) (d : Dialect) :
    StaysOutside d f := by
  intro prev s rest h
  obtain ⟨m, hs, hne, hm⟩ := hf h
  exact ⟨m, hs, hne, fun r hr => run_of_isNeutral (Or.inl hr) hm⟩

theorem run_eraseAll_of_spares {d : Dialect} {f : Reader Text} {s : Text} (hf : StaysOutside d f)
    (h : Spares d f s) :
    NameReading.start.run d (eraseAll f s) = NameReading.start.run d s := by
  refine foldl_eraseAll_of_erased fun p hp => ?_
  obtain ⟨rest, -, hr⟩ := eq_of_mem_erased hp fun b rest _ hr => by
    obtain ⟨m, hs, hne, -⟩ := hf hr
    exact ⟨m, hs, hne⟩
  obtain ⟨m, hs, -, hstay⟩ := hf hr
  obtain rfl := List.append_cancel_right hs
  exact (h p hp).elim (hstay _) And.right

/-! ## Changing quotes -/

/-- Where a line is read, and where it is read with its quotes changed: in a name
the two differ by the quote that was changed or was not. -/
def Twins (old new : Char) (q : Quoting) : Part → Part → Prop
  | .name x n, .name x' n' =>
    n = n' ∧ isNameQuote x = true
      ∧ (x' = x ∧ (x = old → q.inString = true) ∨ x = old ∧ x' = new ∧ q.inString = false)
  | p, p' => p = p'

theorem Twins.eq {old new : Char} {q : Quoting} {p p' : Part} (h : Twins old new q p p')
    (hp : p.isName = false) : p' = p := by
  cases p with
  | name => cases hp
  | outside => exact Eq.symm h
  | literal => exact Eq.symm h
  | escaped => exact Eq.symm h

/-- What a character becomes where quotes are changed. -/
def requoteChar (old new : Char) (q : Quoting) (c : Char) : Char :=
  if c = old ∧ q.inString = false ∧ (c = '\'' → q.inName = true) then new else c

theorem requoteChar_cases (old new : Char) (q : Quoting) (c : Char) :
    c = old ∧ requoteChar old new q c = new ∨ requoteChar old new q c = c := by
  unfold requoteChar
  split
  · next h => exact Or.inl ⟨h.1, rfl⟩
  · exact Or.inr rfl

/-- One character on, the two are twins again, and have closed the same name. -/
structure StayTwins (d : Dialect) (old new : Char) (q : Quoting) (p p' : Part) (c : Char) : Prop where
  twins : Twins old new (q.step old c) (p.next d c) (p'.next d (requoteChar old new q c))
  closes : p'.closes (requoteChar old new q c) = p.closes c

theorem classes_of_isNameQuote {x : Char} (h : isNameQuote x = true) :
    x ≠ '\'' ∧ x ≠ '\\' ∧ x ∈ ['\'', '"', '`'] := by
  rcases eq_of_isNameQuote h with rfl | rfl <;> decide

section
variable {d : Dialect} {old new : Char}
variable (hold : isNameQuote old = true) (hnew : isNameQuote new = true) (q : Quoting) (c : Char)
include hold hnew

theorem stayTwins_outside : StayTwins d old new q .outside .outside c := by
  refine ⟨?_, rfl⟩
  have hold' := (classes_of_isNameQuote hold).1
  have hnew' := (classes_of_isNameQuote hnew).1
  by_cases hco : c = old
  · subst hco
    cases hq : q.inString <;>
      simp [requoteChar, Part.next, Twins, Quoting.step, hq, hold', hnew', hold, hnew]
  · have hstay : requoteChar old new q c = c := if_neg fun h => hco h.1
    rw [hstay]
    by_cases hcq : c = '\''
    · simp [Part.next, Twins, hcq]
    · by_cases hcn : isNameQuote c = true
      · simp [Part.next, Twins, hco, hcq, hcn]
      · simp [Part.next, Twins, hcq, hcn]

theorem stayTwins_literal : StayTwins d old new q .literal .literal c := by
  refine ⟨?_, rfl⟩
  obtain ⟨hold', hold'', -⟩ := classes_of_isNameQuote hold
  obtain ⟨hnew', hnew'', -⟩ := classes_of_isNameQuote hnew
  rcases requoteChar_cases old new q c with ⟨rfl, hchange⟩ | hstay
  · simp [hchange, Part.next, Twins, hold', hold'', hnew', hnew'']
  · rw [hstay]
    simp only [Part.next]
    split <;> [rfl; (split <;> rfl)]

variable {q c}

/-- A name is closed by the quote that it opened with, changed if that was. -/
theorem stayTwins_name {x x' : Char} {n : Text} (h : Twins old new q (.name x n) (.name x' n))
    (hc : c ∈ ['\'', '"', '`'] → c = x) : StayTwins d old new q (.name x n) (.name x' n) c := by
  obtain ⟨-, hx, hcase⟩ := h
  by_cases hcx : c = x
  · subst hcx
    have hclose : requoteChar old new q c = x' := by
      rcases hcase with ⟨rfl, hstring⟩ | ⟨rfl, rfl, hstring⟩
      · refine if_neg fun hchange => ?_
        rw [hstring hchange.1] at hchange
        cases hchange.2.1
      · exact if_pos ⟨rfl, hstring, fun h => absurd h (classes_of_isNameQuote hold).1⟩
    constructor <;> simp [hclose, Part.next, Part.closes, Twins]
  · have hmem : c ∉ ['\'', '"', '`'] := fun hmem => hcx (hc hmem)
    have hco : c ≠ old := fun h => hmem (h ▸ (classes_of_isNameQuote hold).2.2)
    have hcn : c ≠ new := fun h => hmem (h ▸ (classes_of_isNameQuote hnew).2.2)
    have hcx' : c ≠ x' := by
      rcases hcase with ⟨rfl, -⟩ | ⟨-, rfl, -⟩
      · exact hcx
      · exact hcn
    have hcq : c ≠ '\'' := fun h => hmem (by simp [h])
    have hstay : requoteChar old new q c = c := if_neg fun h => hco h.1
    have hstep : q.step old c = q := by simp [Quoting.step, hco, hcq]
    constructor
    · rw [hstay, hstep]
      simpa [Part.next, Twins, hcx, hcx', hx] using hcase
    · simp [hstay, Part.closes, hcx, hcx']

theorem stayTwins {p p' : Part} (h : Twins old new q p p')
    (hc : p.isName = true → c ∈ ['\'', '"', '`'] → ∃ n, p = .name c n) :
    StayTwins d old new q p p' c := by
  cases p with
  | outside =>
    obtain rfl := h.eq rfl
    exact stayTwins_outside hold hnew q c
  | literal =>
    obtain rfl := h.eq rfl
    exact stayTwins_literal hold hnew q c
  | escaped =>
    obtain rfl := h.eq rfl
    exact ⟨rfl, rfl⟩
  | name x n =>
    cases p' with
    | name x' n' =>
      obtain rfl : n = n' := h.1
      refine stayTwins_name hold hnew h fun hmem => ?_
      obtain ⟨m, hm⟩ := hc rfl hmem
      exact (Part.name.inj hm).1.symm
    | _ => cases h

theorem run_requoteAt {r r' : NameReading} (hpart : Twins old new q r.part r'.part)
    (hnames : r'.names = r.names) {s : Text}
    (hclosed : (r.run d s).part.isName = false)
    (hquotes : ∀ n ∈ (r.run d s).names, ∀ c ∈ ['\'', '"', '`'], c ∉ n) :
    r'.run d (requoteAt old new q s) = r.run d s := by
  induction s generalizing q r r' with
  | nil => exact NameReading.ext (hpart.eq hclosed) hnames
  | cons c s ih =>
    -- A quote in a name that is closed later would be in the name.
    have hc : r.part.isName = true → c ∈ ['\'', '"', '`'] → ∃ n, r.part = .name c n := by
      intro hname hmem
      cases hp : r.part with
      | name x n =>
        obtain ⟨u, v, huv, hx, hn⟩ := exists_of_closed hp hclosed
        cases u with
        | nil =>
          obtain ⟨rfl, -⟩ := List.cons.inj huv
          exact ⟨n, rfl⟩
        | cons e u =>
          obtain ⟨rfl, -⟩ := List.cons.inj huv
          exact absurd (by simp) (hquotes _ hn c hmem)
      | outside => rw [hp] at hname; cases hname
      | literal => rw [hp] at hname; cases hname
      | escaped => rw [hp] at hname; cases hname
    have hstay : StayTwins d old new q r.part r'.part c := stayTwins hold hnew hpart hc
    rw [requoteAt_cons, NameReading.run_cons]
    exact ih hstay.twins (congrArg₂ _ hnames hstay.closes) hclosed hquotes

end

end SchemaDialects.Definition
