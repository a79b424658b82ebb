import SchemaDialects.Proofs.Conversion.StorageClause
import SchemaDialects.Proofs.Definition.Quoting
import SchemaDialects.Proofs.Definition.Trailing
import SchemaDialects.Proofs.Script.Body
import SchemaDialects.Proofs.Text.Stops

/-!
# The storage clause, piece by piece

A storage clause is found by its head, and goes on to the next semicolon. What
follows a text does not count for the clauses of the text, unless a head
reaches into it or a clause is still open.
-/

namespace SchemaDialects.Conversion

open Text Definition Script

/-- Reads `) ENGINE =`. -/
def clauseHead : Scanner := fun s => do
  let s ← char ')' s
  let s ← keyword "ENGINE".toList (blanks s)
  char '=' (blanks s)

/-- What follows a storage clause whose head `s` follows. -/
def afterClause (s : Text) : Text := optional (char ';') (s.dropWhile (· != ';'))

theorem storageClause_eq (s : Text) : storageClause s = (clauseHead s).map afterClause := by
  unfold storageClause clauseHead
  cases char ')' s with
  | none => rfl
  | some t =>
    show (keyword _ (blanks t) >>= _) = Option.map _ (keyword _ (blanks t) >>= _)
    cases keyword "ENGINE".toList (blanks t) with
    | none => rfl
    | some u =>
      show (char '=' (blanks u) >>= _) = Option.map _ (char '=' (blanks u))
      cases char '=' (blanks u) <;> rfl

/-- Whether the text can be the end of a head that starts before it. -/
def continuesHead (s : Text) : Bool :=
  (char '=' (blanks s)).isSome || (keyword "ENGINE".toList (blanks s) >>= fun s => char '=' (blanks s)).isSome

theorem occurs_storageClause (s : Text) :
    occurs (anywhere storageClause) s = occurs (anywhere clauseHead) s := by
  have hiff : ∀ t : Text, storageClause t = none ↔ clauseHead t = none := fun t => by
    rw [storageClause_eq, Option.map_eq_none_iff]
  have hpass : ∀ {f g : Scanner}, (∀ t, f t = none → g t = none) →
      occurs (anywhere f) s = false → occurs (anywhere g) s = false := by
    intro f g hfg h
    have hf : find (anywhere f) none s = none := by simpa [occurs] using h
    refine occurs_eq_false fun a b hs hb => ?_
    exact hfg _ (passes_of_find_eq_none hf a b hs hb)
  rw [Bool.eq_iff_iff, ← not_iff_not, Bool.not_eq_true, Bool.not_eq_true]
  exact ⟨hpass fun t => (hiff t).1, hpass fun t => (hiff t).2⟩

/-! ## Heads in a text that goes on -/

theorem blanks_append {s : Text} (h : blanks s ≠ []) (y : Text) : blanks (s ++ y) = blanks s ++ y := by
  have he : (s.dropWhile isBlank).isEmpty = false := by
    rw [List.isEmpty_eq_false_iff]
    exact h
  rw [blanks, trimStart, List.dropWhile_append, he]
  rfl

theorem blanks_append_of_nil {s : Text} (h : blanks s = []) (y : Text) : blanks (s ++ y) = blanks y :=
  trimStart_append_of_blank (List.dropWhile_eq_nil_iff.1 h)

theorem char_append {x : Char} {s : Text} (hs : s ≠ []) (y : Text) :
    char x (s ++ y) = (char x s).map (· ++ y) := by
  obtain ⟨c, s, rfl⟩ := List.exists_cons_of_ne_nil hs
  rw [List.cons_append, char, char]
  split <;> rfl

theorem keyword_append {k s r : Text} (h : keyword k s = some r) (y : Text) :
    keyword k (s ++ y) = some (r ++ y) := by
  obtain ⟨m, rfl, -, hm⟩ := exists_of_keyword h
  rw [List.append_assoc, keyword_append_of_folds hm]

theorem clauseHead_append {s r : Text} (h : clauseHead s = some r) (y : Text) :
    clauseHead (s ++ y) = some (r ++ y) := by
  obtain ⟨t, ht, h⟩ := Option.bind_eq_some_iff.1 h
  obtain ⟨u, hu, hr⟩ := Option.bind_eq_some_iff.1 h
  obtain rfl := exists_of_char ht
  have ht' : blanks t ≠ [] := by
    intro hn
    rw [hn] at hu
    cases hu
  have hu' : blanks u ≠ [] := by
    intro hn
    rw [hn] at hr
    cases hr
  show (keyword "ENGINE".toList (blanks (t ++ y)) >>= fun s => char '=' (blanks s)) = _
  rw [blanks_append ht', keyword_append hu]
  show char '=' (blanks (u ++ y)) = _
  rw [blanks_append hu', char_append hu', hr]
  rfl

theorem occurs_append {s : Text} (h : occurs (anywhere storageClause) s = true) (x y : Text) :
    occurs (anywhere storageClause) (x ++ s ++ y) = true := by
  rw [occurs_storageClause] at h ⊢
  obtain ⟨⟨lead, w⟩, hfind⟩ := Option.isSome_iff_exists.1 h
  obtain ⟨t, rfl, ht⟩ := append_of_find hfind
  have ht' : clauseHead (t ++ y) = some (w ++ y) := clauseHead_append ht y
  cases ho : find (anywhere clauseHead) none (x ++ (lead ++ t) ++ y) with
  | some r => rw [occurs, ho]; rfl
  | none =>
    have hne : t ++ y ≠ [] := by
      intro hnil
      rw [hnil] at ht'
      cases ht'
    have hnone := passes_of_find_eq_none ho (x ++ lead) (t ++ y) (by simp) hne
    rw [List.append_nil, anywhere, ht'] at hnone
    cases hnone

theorem clauseHead_of_ne {c : Char} (h : c ≠ ')') (s : Text) : clauseHead (c :: s) = none := by
  simp [clauseHead, char, h]

/-- No head comes up where a word can end and the text goes on with something else
than the end of a head. -/
theorem clauseHead_append_eq_none {s : Text} (hs : s ≠ []) (h : clauseHead s = none) {y : Text}
    (hy : wordEnds y = true) (hc : continuesHead y = false) : clauseHead (s ++ y) = none := by
  have hengine : Scanner.StopsBefore (keyword "ENGINE".toList) y :=
    stopsBefore_keyword (foldsTo_of_wordEnds (by decide) hy)
  rw [continuesHead, Bool.or_eq_false_iff, Option.isSome_eq_false_iff, Option.isNone_iff_eq_none,
    Option.isSome_eq_false_iff, Option.isNone_iff_eq_none] at hc
  obtain ⟨c, s, rfl⟩ := List.exists_cons_of_ne_nil hs
  by_cases hp : c = ')'
  · subst hp
    have h' : (keyword "ENGINE".toList (blanks s) >>= fun s => char '=' (blanks s)) = none := h
    show (keyword "ENGINE".toList (blanks (s ++ y)) >>= fun s => char '=' (blanks s)) = none
    by_cases hn : blanks s = []
    · rw [blanks_append_of_nil hn]
      exact hc.2
    · rw [blanks_append hn]
      cases hk : keyword "ENGINE".toList (blanks s) with
      | none =>
        rw [hengine, hk]
        rfl
      | some u =>
        rw [hk] at h'
        rw [keyword_append hk]
        show char '=' (blanks (u ++ y)) = none
        by_cases hu : blanks u = []
        · rw [blanks_append_of_nil hu]
          exact hc.1
        · have hchar : char '=' (blanks u) = none := h'
          rw [blanks_append hu, char_append hu, hchar]
          rfl
  · exact clauseHead_of_ne hp _

/-! ## Dropping the clause -/

/-- The statement without its first storage clause. -/
def dropClause (s : Text) : Text := replaceFirst (anywhere storageClause) ");".toList s

/-- Where the first storage clause of a text ends, if it does. -/
def ClauseEnds (s : Text) : Prop :=
  ∀ lead w, find (anywhere clauseHead) none s = some (lead, w) → ';' ∈ w

/-- What becomes of `y` behind `s`: the first clause is dropped only once. -/
def dropClauseAfter (s y : Text) : Text :=
  if (find (anywhere clauseHead) none s).isSome then y else dropClause y

theorem find_anywhere (f : Scanner) (prev prev' : Option Char) (s : Text) :
    find (anywhere f) prev s = find (anywhere f) prev' s := by
  cases s <;> rfl

theorem passes_storageClause_append {s b y : Text} {prev : Option Char}
    (h : Passes (anywhere clauseHead) prev s b) (hb : ∀ a, a ≠ [] → clauseHead (a ++ b) = none →
      clauseHead (a ++ (b ++ y)) = none) : Passes (anywhere storageClause) prev s (b ++ y) := by
  intro a m hs hm
  show storageClause (m ++ (b ++ y)) = none
  rw [storageClause_eq, hb m hm (h a m hs hm)]
  rfl

section
variable {s y : Text} (hy : wordEnds y = true) (hc : continuesHead y = false)
include hy hc

theorem find_storageClause_append (h : find (anywhere clauseHead) none s = none) :
    find (anywhere storageClause) none (s ++ y)
      = (find (anywhere storageClause) none y).map fun r => (s ++ r.1, r.2) := by
  have hpass : Passes (anywhere storageClause) none s ([] ++ y) :=
    passes_storageClause_append (passes_of_find_eq_none h) fun a ha hn => by
      rw [List.append_nil] at hn
      exact clauseHead_append_eq_none ha hn hy hc
  rw [List.nil_append] at hpass
  rw [find_append hpass, find_anywhere _ _ none]

theorem dropClause_append_of_none (h : find (anywhere clauseHead) none s = none) :
    dropClause (s ++ y) = s ++ dropClause y := by
  rw [dropClause, replaceFirst, find_storageClause_append hy hc h, dropClause, replaceFirst]
  cases find (anywhere storageClause) none y with
  | none => rfl
  | some r => simp

theorem dropClause_append_of_some {lead w : Text}
    (h : find (anywhere clauseHead) none s = some (lead, w)) :
    dropClause (s ++ y) = lead ++ ");".toList ++ afterClause (w ++ y) := by
  obtain ⟨t, rfl, hne, hpass, ht⟩ := passes_of_find h
  have hpass' : Passes (anywhere storageClause) none lead (t ++ y) :=
    passes_storageClause_append hpass fun a ha hn => by
      rw [← List.append_assoc]
      exact clauseHead_append_eq_none (by simp [ha]) hn hy hc
  have hclause : storageClause (t ++ y) = some (afterClause (w ++ y)) := by
    rw [storageClause_eq, clauseHead_append ht]
    rfl
  rw [List.append_assoc, dropClause, replaceFirst,
    find_of_reads hpass' hclause (by simp [hne])]

end

theorem afterClause_append {w : Text} (h : ';' ∈ w) (y : Text) :
    afterClause (w ++ y) = afterClause w ++ y := by
  obtain ⟨a, b, rfl, ha⟩ := List.eq_append_cons_of_mem h
  have hall : ∀ c ∈ a, (c != ';') = true := by
    intro c hc
    rw [bne_iff_ne]
    rintro rfl
    exact ha hc
  have hdrop : ∀ z, (a ++ ';' :: z).dropWhile (· != ';') = ';' :: z := by
    intro z
    rw [List.dropWhile_append_of_pos hall, List.dropWhile_cons_of_neg (by simp)]
  rw [afterClause, afterClause, List.append_assoc, List.cons_append, hdrop, hdrop]
  rfl

theorem afterClause_of_not_mem {w : Text} (h : ';' ∉ w) : afterClause w = [] := by
  have hdrop : w.dropWhile (· != ';') = [] := by
    rw [List.dropWhile_eq_nil_iff]
    intro c hc
    rw [bne_iff_ne]
    rintro rfl
    exact h hc
  rw [afterClause, hdrop]
  rfl

theorem dropClause_of_none {s : Text} (h : find (anywhere clauseHead) none s = none) :
    dropClause s = s := by
  have := dropClause_append_of_none (y := []) rfl rfl h
  rw [List.append_nil] at this
  exact this.trans (List.append_nil s)

theorem dropClause_of_some {s lead w : Text}
    (h : find (anywhere clauseHead) none s = some (lead, w)) :
    dropClause s = lead ++ ");".toList ++ afterClause w := by
  have := dropClause_append_of_some (y := []) rfl rfl h
  rwa [List.append_nil, List.append_nil] at this

theorem dropClause_append {s y : Text} (hs : ClauseEnds s) (hy : wordEnds y = true)
    (hc : continuesHead y = false) : dropClause (s ++ y) = dropClause s ++ dropClauseAfter s y := by
  cases h : find (anywhere clauseHead) none s with
  | none =>
    rw [dropClause_append_of_none hy hc h, dropClause_of_none h, dropClauseAfter, h]
    rfl
  | some r =>
    obtain ⟨lead, w⟩ := r
    rw [dropClause_append_of_some hy hc h, dropClause_of_some h, afterClause_append (hs lead w h),
      dropClauseAfter, h, ← List.append_assoc]
    rfl

theorem find_clauseHead_of_not_mem {s : Text} (h : ')' ∉ s) :
    find (anywhere clauseHead) none s = none := by
  refine find_eq_none fun a b hs hb => ?_
  obtain ⟨c, b, rfl⟩ := List.exists_cons_of_ne_nil hb
  exact clauseHead_of_ne (fun hc => h (by simp [hs, hc])) _

theorem dropClause_append_of_not_mem {s : Text} (h : ')' ∉ s) (y : Text) :
    dropClause (s ++ y) = s ++ dropClause y := by
  have hpass : Passes (anywhere storageClause) none s y := by
    intro a b hs hb
    obtain ⟨c, b, rfl⟩ := List.exists_cons_of_ne_nil hb
    show storageClause (c :: (b ++ y)) = none
    rw [storageClause_eq, clauseHead_of_ne fun hc => h (by simp [hs, hc])]
    rfl
  rw [dropClause, replaceFirst, find_append hpass, find_anywhere _ _ none, dropClause, replaceFirst]
  cases find (anywhere storageClause) none y with
  | none => rfl
  | some r => simp

theorem dropClause_append_blanks (s : Text) {b : Text} (hb : ∀ c ∈ b, isBlank c = true) :
    ∃ b', (∀ c ∈ b', isBlank c = true) ∧ dropClause (s ++ b) = dropClause s ++ b' := by
  have hhead : wordEnds b = true := wordEnds_of_blank fun c hc => hb c (List.mem_of_mem_head? hc)
  have hcont : continuesHead b = false := by
    have hn : blanks b = [] := List.dropWhile_eq_nil_iff.2 hb
    rw [continuesHead, hn]
    rfl
  have hmem : ∀ {x : Char}, isBlank x = false → x ∉ b := by
    intro x hx hm
    rw [hb x hm] at hx
    cases hx
  cases h : find (anywhere clauseHead) none s with
  | none =>
    have hself : dropClause b = b := dropClause_of_none (find_clauseHead_of_not_mem (hmem (by decide)))
    exact ⟨b, hb, by rw [dropClause_append_of_none hhead hcont h, dropClause_of_none h, hself]⟩
  | some r =>
    obtain ⟨lead, w⟩ := r
    rw [dropClause_append_of_some hhead hcont h, dropClause_of_some h]
    by_cases hw : ';' ∈ w
    · exact ⟨b, hb, by rw [afterClause_append hw, ← List.append_assoc]⟩
    · have hwb : ';' ∉ w ++ b := by simp [hw, hmem (x := ';') (by decide)]
      exact ⟨[], by simp, by rw [afterClause_of_not_mem hw, afterClause_of_not_mem hwb]; simp⟩

end SchemaDialects.Conversion
