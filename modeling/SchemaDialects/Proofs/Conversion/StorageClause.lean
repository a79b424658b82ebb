import SchemaDialects.Conversion.Statement
import SchemaDialects.Proofs.Text.Places
import SchemaDialects.Proofs.Text.Scan

/-!
# Where a storage clause starts

A storage clause has an equals sign right after its first word. A parenthesis
with another one before the next equals sign starts none.
-/

namespace SchemaDialects.Conversion

open Text

/-- Nothing is read past a character that is none of the wanted ones. -/
theorem exists_blanks_append {x : Char} (hx : isBlank x = false) (u v : Text) :
    ∃ u', u' <:+ u ∧ blanks (u ++ x :: v) = u' ++ x :: v := by
  refine ⟨u.dropWhile isBlank, List.dropWhile_suffix _, ?_⟩
  rw [blanks, trimStart, List.dropWhile_append]
  split
  · next h =>
    rw [List.isEmpty_iff.1 h, List.dropWhile_cons_of_neg (by simp [hx])]
    rfl
  · rfl

theorem exists_keyword_append {x : Char} {k : Text} (hk : ∀ c ∈ k, foldsTo c x = false)
    {u v r : Text} (h : keyword k (u ++ x :: v) = some r) :
    ∃ u', u' <:+ u ∧ r = u' ++ x :: v := by
  induction k generalizing u with
  | nil => exact ⟨u, List.suffix_refl u, (Option.some.inj h).symm⟩
  | cons y k ih =>
    cases u with
    | nil => simp [keyword, hk y (by simp)] at h
    | cons c u =>
      rw [List.cons_append, keyword] at h
      split at h
      · obtain ⟨u', hu, hr⟩ := ih (fun c hc => hk c (by simp [hc])) h
        exact ⟨u', hu.trans (List.suffix_cons c u), hr⟩
      · cases h

theorem storageClause_eq_none {u : Text} (hu : '=' ∉ u) (v : Text) :
    storageClause (')' :: (u ++ ')' :: v)) = none := by
  refine Option.eq_none_iff_forall_ne_some.2 fun r hr => ?_
  rw [storageClause] at hr
  obtain ⟨s, hs, hr⟩ := Option.bind_eq_some_iff.1 hr
  obtain rfl := Option.some.inj hs
  obtain ⟨t, ht, hr⟩ := Option.bind_eq_some_iff.1 hr
  obtain ⟨w, hw, -⟩ := Option.bind_eq_some_iff.1 hr
  obtain ⟨u₁, hu₁, hb⟩ := exists_blanks_append (x := ')') (by decide) u v
  rw [hb] at ht
  obtain ⟨u₂, hu₂, rfl⟩ := exists_keyword_append (by decide) ht
  obtain ⟨u₃, hu₃, hb'⟩ := exists_blanks_append (x := ')') (by decide) u₂ v
  rw [hb'] at hw
  have heq := exists_of_char hw
  cases u₃ with
  | nil => exact absurd heq (by simp)
  | cons c u₃ =>
    obtain rfl : c = '=' := (List.cons.inj heq).1
    exact hu (((hu₃.trans hu₂).trans hu₁).subset (by simp))

/-- Before a closing parenthesis no clause is found without an equals sign. -/
theorem passes_storageClause {s v : Text} (hs : '=' ∉ s) (prev : Option Char) :
    Passes (anywhere storageClause) prev s (')' :: v) := by
  intro a b hab hne
  obtain ⟨c, b, rfl⟩ := List.exists_cons_of_ne_nil hne
  by_cases hc : c = ')'
  · subst hc
    exact storageClause_eq_none (fun hm => hs (by simp [hab, hm])) v
  · simp [anywhere, storageClause, char, hc]

end SchemaDialects.Conversion
