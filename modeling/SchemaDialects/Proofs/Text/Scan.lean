import SchemaDialects.Proofs.Text.Trim
import SchemaDialects.Text.Scan

/-!
# What scanners read

A scanner that reads something has a part of the text before what it leaves. A
run is read whole where the text goes on with something else.
-/

namespace SchemaDialects.Text

theorem exists_of_char {x : Char} {s r : Text} (h : char x s = some r) : s = x :: r := by
  cases s with
  | nil => cases h
  | cons c s =>
    rw [char] at h
    split at h
    · next hc => rw [hc, Option.some.inj h]
    · cases h

theorem exists_of_many1 {p : Char → Bool} {s r : Text} (h : many1 p s = some r) :
    ∃ a, s = a ++ r ∧ a ≠ [] ∧ ∀ c ∈ a, p c = true := by
  cases s with
  | nil => cases h
  | cons c s =>
    rw [many1] at h
    split at h
    · next hc =>
      obtain rfl := Option.some.inj h
      refine ⟨c :: s.takeWhile p, by simp, by simp, ?_⟩
      intro d hd
      rcases List.mem_cons.1 hd with rfl | hd
      · exact hc
      · exact List.all_eq_true.1 List.all_takeWhile d hd
    · cases h

theorem many1_append {p : Char → Bool} {a s : Text} (hne : a ≠ []) (ha : ∀ c ∈ a, p c = true)
    (hs : s.head?.any p = false) : many1 p (a ++ s) = some s := by
  obtain ⟨c, a, rfl⟩ := List.exists_cons_of_ne_nil hne
  rw [List.cons_append, many1, if_pos (ha c (by simp)),
    List.dropWhile_append_of_pos fun d hd => ha d (by simp [hd]), dropWhile_eq_self hs]

theorem run_append {p : Char → Bool} {a s : Text} (hne : a ≠ []) (ha : ∀ c ∈ a, p c = true)
    (hs : s.head?.any p = false) : run p (a ++ s) = some (a, s) := by
  have ht : s.takeWhile p = [] := by
    cases s with
    | nil => rfl
    | cons c s => exact List.takeWhile_cons_of_neg (by simpa using hs)
  rw [run, List.takeWhile_append_of_pos ha, ht, List.append_nil, if_neg hne,
    List.dropWhile_append_of_pos ha, dropWhile_eq_self hs]

theorem all_of_run {p : Char → Bool} {s a : Text} (h : (run p s).map Prod.fst = some a) :
    ∀ c ∈ a, p c = true := by
  rw [run] at h
  split at h
  · cases h
  · obtain rfl := Option.some.inj h
    exact fun c hc => List.mem_takeWhile_imp hc

theorem before_append_self (a s : Text) : before (a ++ s) s = a := by
  simp [before]

theorem read_of_append {f : Scanner} {a s : Text} (h : f (a ++ s) = some s) :
    read f (a ++ s) = some (a, s) := by
  rw [read, h, Option.map_some, before_append_self]

theorem quotedBy_append {q : Char} {a s : Text} (hne : a ≠ []) (ha : q ∉ a) :
    quotedBy q (q :: a ++ q :: s) = some s := by
  have hall : ∀ c ∈ a, (c != q) = true := by
    intro c hc
    rw [bne_iff_ne]
    rintro rfl
    exact ha hc
  have hm : many1 (· != q) (a ++ q :: s) = some (q :: s) := many1_append hne hall (by simp)
  simp only [quotedBy, List.cons_append, char, if_true, Option.bind_eq_bind, Option.bind_some, hm]

theorem quotedBy_of_ne {q c : Char} (h : c ≠ q) (s : Text) : quotedBy q (c :: s) = none := by
  simp [quotedBy, char, h]

theorem keywordBlanks_append {k s : Text} (hk : upper k = k) (hs : s.head?.any isBlank = false) :
    keywordBlanks k (k ++ ' ' :: s) = some s := by
  have hgap : blanks1 (' ' :: s) = some s := many1_append (a := [' ']) (by simp) (by decide) hs
  rw [keywordBlanks, keyword_append hk, Option.bind_eq_bind, Option.bind_some, hgap]

theorem keyword_of_head {k c : Char} (h : foldsTo k c = false) (ks s : Text) :
    keyword (k :: ks) (c :: s) = none := by
  simp [keyword, h]

end SchemaDialects.Text
