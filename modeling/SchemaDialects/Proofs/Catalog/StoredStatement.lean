import SchemaDialects.Proofs.Catalog.TableOrder
import SchemaDialects.Script.Lexical

/-!
# The marker in a stored statement

SQLite keeps the statement that created a table, with its literals and comments. The marker
is searched in all of it, so a word in a literal, a quoted name or a comment marks the key as
the marker itself does. What stands in quotes and comments counts for nothing where the marker
stands outside of them, or where it stands in them before and after a change.
-/

namespace SchemaDialects

open Text
open Definition (HasKeyword AreKeywords hasKeyword_append_iff wordStarts_behind_blanks)

theorem Quote.eq_char_of_ofChar? {c : Char} {q : Quote} (h : Quote.ofChar? c = some q) :
    c = q.char := by
  grind [Quote.ofChar?, Quote.char]

/-! ## Reading a stored statement -/

/-- Where a reader of SQLite's statements stands. Names may stand in brackets too. -/
inductive Region where
  | code
  | quoted (q : Quote)
  | bracketed
  | lineComment
  | blockComment
  deriving DecidableEq

namespace Region

/-- Behind a character outside quotes and comments that opens no comment. -/
def behind (c : Char) : Region :=
  if c = '[' then bracketed
  else match Quote.ofChar? c with
    | some q => quoted q
    | none => code

/-- Every character, and whether it is the content of quotes or of a comment. The signs that
open and close them are not. A quote that is written twice inside its quotes is. -/
def labels : Region → Text → List (Char × Bool)
  | _, [] => []
  | code, '-' :: '-' :: s => ('-', false) :: ('-', false) :: labels lineComment s
  | code, '/' :: '*' :: s => ('/', false) :: ('*', false) :: labels blockComment s
  | code, c :: s => (c, false) :: labels (behind c) s
  | quoted q, c :: s =>
    if c = q.char then
      match s with
      | [] => [(c, false)]
      | d :: s => if d = q.char then (c, true) :: (d, true) :: labels (quoted q) s
        else (c, false) :: labels code (d :: s)
    else (c, true) :: labels (quoted q) s
  | bracketed, c :: s =>
    if c = ']' then (c, false) :: labels code s else (c, true) :: labels bracketed s
  | lineComment, c :: s =>
    if c = '\n' then (c, false) :: labels code s else (c, true) :: labels lineComment s
  | blockComment, '*' :: '/' :: s => ('*', false) :: ('/', false) :: labels code s
  | blockComment, c :: s => (c, true) :: labels blockComment s

theorem map_labels (r : Region) (s : Text) : (labels r s).map Prod.fst = s := by
  fun_induction labels r s <;> simp_all

/-- Where the content of quotes or of a comment begins or ends, the sign beside it belongs to
no word. -/
def Parts (x y : Char × Bool) : Prop := x.2 = y.2 ∨ isWord (if x.2 then y.1 else x.1) = false

/-- Whether the character can come first where the reader stands. -/
def Starts (r : Region) (x : Char × Bool) : Prop :=
  if x.2 then r ≠ code else r = code ∨ isWord x.1 = false

theorem isWord_char (q : Quote) : isWord q.char = false := by
  cases q <;> exact not_isWord_of_isAscii (by decide)

theorem starts_labels (r : Region) (s : Text) : ∀ x ∈ (labels r s).head?, r.Starts x := by
  have hbreak : isWord '\n' = false := not_isWord_of_isAscii (by decide)
  have hbracket : isWord ']' = false := not_isWord_of_isAscii (by decide)
  have hstar : isWord '*' = false := not_isWord_of_isAscii (by decide)
  fun_cases labels r s <;> simp_all [Starts, isWord_char]

theorem behind_eq_code_or (c : Char) : behind c = code ∨ isWord c = false := by
  have hbracket : isWord '[' = false := not_isWord_of_isAscii (by decide)
  by_cases hc : c = '['
  · exact Or.inr (hc ▸ hbracket)
  · rw [behind, if_neg hc]
    cases hq : Quote.ofChar? c with
    | none => exact Or.inl rfl
    | some q => exact Or.inr (Quote.eq_char_of_ofChar? hq ▸ isWord_char q)

theorem isChain_cons_labels {r : Region} {s : Text} (h : (labels r s).IsChain Parts) {c : Char}
    {b : Bool} (hc : if b then r ≠ code else r = code ∨ isWord c = false) :
    ((c, b) :: labels r s).IsChain Parts := by
  refine List.isChain_cons.2 ⟨fun x hx => ?_, h⟩
  have hstart := starts_labels r s x hx
  obtain ⟨d, e⟩ := x
  cases b with
  | true =>
    cases e with
    | true => exact Or.inl rfl
    | false => exact Or.inr (Or.resolve_left hstart hc)
  | false =>
    cases e with
    | true => exact Or.inr (Or.resolve_left hc hstart)
    | false => exact Or.inl rfl

theorem isChain_labels (r : Region) (s : Text) : (labels r s).IsChain Parts := by
  have hdash : isWord '-' = false := not_isWord_of_isAscii (by decide)
  have hstar : isWord '*' = false := not_isWord_of_isAscii (by decide)
  fun_induction labels r s with
  | case1 => exact .nil
  | case2 s ih => exact .cons_cons (Or.inl rfl) (isChain_cons_labels ih (Or.inr hdash))
  | case3 s ih => exact .cons_cons (Or.inl rfl) (isChain_cons_labels ih (Or.inr hstar))
  | case4 c s _ _ ih => exact isChain_cons_labels ih (behind_eq_code_or c)
  | case5 q => exact .singleton _
  | case6 q s ih => exact .cons_cons (Or.inl rfl) (isChain_cons_labels ih (by simp))
  | case7 q d s hd ih => exact isChain_cons_labels ih (Or.inl rfl)
  | case9 s ih | case11 s ih => exact isChain_cons_labels ih (Or.inl rfl)
  | case13 s ih => exact .cons_cons (Or.inl rfl) (isChain_cons_labels ih (Or.inl rfl))
  | case8 _ _ _ _ ih | case10 _ _ _ ih | case12 _ _ _ ih | case14 _ _ _ ih =>
    exact isChain_cons_labels ih (by simp)

/-! ## Words of the parts -/

/-- What stands outside, with the signs that open and close. -/
def outer (l : List (Char × Bool)) : Text := (l.filter (!·.2)).map Prod.fst

/-- What stands inside, with a blank for every other character. -/
def inner (l : List (Char × Bool)) : Text := l.map fun x => if x.2 then x.1 else ' '

theorem outer_append (u v : List (Char × Bool)) : outer (u ++ v) = outer u ++ outer v := by
  rw [outer, List.filter_append, List.map_append]
  rfl

theorem inner_append (u v : List (Char × Bool)) : inner (u ++ v) = inner u ++ inner v :=
  List.map_append

section
variable {k : Text} (hk : AreKeywords [k])
include hk

theorem not_hasKeyword_blanks {s : Text} (hs : ∀ c ∈ s, c = ' ') : ¬ HasKeyword k s := by
  refine Definition.not_hasKeyword_of_letters hk fun x hx c hc => ?_
  have hx' : x ∈ k := List.mem_of_mem_head? hx
  exact Definition.foldsTo_of_wordEnds (hk.chars k (by simp)) (wordEnds_blank []) x hx' c
    (by simp [hs c hc])

section
variable {u v : List (Char × Bool)} (hne : u ≠ []) (hchain : (u ++ v).IsChain Parts)
  (ih : HasKeyword k (v.map Prod.fst) ↔ HasKeyword k (outer v) ∨ HasKeyword k (inner v))
include hne hchain ih

/-- A run outside ends with a sign of no word, if something is inside behind it. -/
theorem hasKeyword_outside_append (hu : ∀ x ∈ u, x.2 = false) (hv : ∀ x ∈ v.head?, x.2 = true) :
    HasKeyword k ((u ++ v).map Prod.fst)
      ↔ HasKeyword k (outer (u ++ v)) ∨ HasKeyword k (inner (u ++ v)) := by
  have houter : outer u = u.map Prod.fst := by
    rw [outer, List.filter_eq_self.2 fun x hx => by simp [hu x hx]]
  have hinner : ∀ c ∈ inner u, c = ' ' := by
    intro c hc
    obtain ⟨x, hx, rfl⟩ := List.mem_map.1 hc
    simp [hu x hx]
  have hends : wordStarts (u.map Prod.fst).getLast? = true ∨ v = [] := by
    cases v with
    | nil => exact Or.inr rfl
    | cons y v =>
      have hlast := List.getLast?_eq_some_getLast hne
      have hword := (List.isChain_append.1 hchain).2.2 _ hlast y rfl
      rw [Parts, hu _ (List.getLast_mem hne), hv y rfl] at hword
      rw [List.getLast?_map, hlast]
      exact Or.inl (by simpa [wordStarts] using hword)
  have hblank : wordStarts (inner u).getLast? = true :=
    wordStarts_behind_blanks fun c hc => hinner c hc ▸ rfl
  rw [List.map_append, hasKeyword_append_iff hk (hends.imp_right fun h => by rw [h]; rfl), ih,
    outer_append, houter, hasKeyword_append_iff hk (hends.imp_right fun h => by rw [h]; rfl),
    inner_append, hasKeyword_append_iff hk (Or.inl hblank), or_assoc]
  simp only [not_hasKeyword_blanks hk hinner, false_or]

/-- A run inside ends before a sign of no word. -/
theorem hasKeyword_inside_append (hu : ∀ x ∈ u, x.2 = true) (hv : ∀ x ∈ v.head?, x.2 = false) :
    HasKeyword k ((u ++ v).map Prod.fst)
      ↔ HasKeyword k (outer (u ++ v)) ∨ HasKeyword k (inner (u ++ v)) := by
  have houter : outer u = [] := by
    rw [outer, List.filter_eq_nil_iff.2 fun x hx => by simp [hu x hx], List.map_nil]
  have hinner : inner u = u.map Prod.fst :=
    List.map_congr_left fun x hx => by simp [hu x hx]
  have hends : wordEnds (v.map Prod.fst) = true ∧ wordEnds (inner v) = true := by
    cases v with
    | nil => exact ⟨rfl, rfl⟩
    | cons y v =>
      have hlast := List.getLast?_eq_some_getLast hne
      have hword := (List.isChain_append.1 hchain).2.2 _ hlast y rfl
      rw [Parts, hu _ (List.getLast_mem hne), hv y rfl] at hword
      refine ⟨by simpa [wordEnds] using hword, ?_⟩
      rw [inner, List.map_cons, hv y rfl]
      exact wordEnds_blank _
  rw [List.map_append, hasKeyword_append_iff hk (Or.inr hends.1), ih, outer_append, houter,
    List.nil_append, inner_append, hinner, hasKeyword_append_iff hk (Or.inr hends.2)]
  exact or_left_comm

end

/-- A whole word stands outside quotes and comments, or inside. It is cut by none of their signs. -/
theorem hasKeyword_iff_outer_or_inner {l : List (Char × Bool)} (h : l.IsChain Parts) :
    HasKeyword k (l.map Prod.fst) ↔ HasKeyword k (outer l) ∨ HasKeyword k (inner l) := by
  induction hn : l.length using Nat.strong_induction_on generalizing l with
  | _ n ih =>
    cases l with
    | nil => exact (or_self_iff).symm
    | cons x l =>
      -- The first run of the list, all on the side of its first character.
      let u := (x :: l).takeWhile (·.2 == x.2)
      let v := (x :: l).dropWhile (·.2 == x.2)
      have hl : x :: l = u ++ v := List.takeWhile_append_dropWhile.symm
      have hu : ∀ y ∈ u, y.2 = x.2 := fun y hy => by simpa using List.mem_takeWhile_imp hy
      have hne : u ≠ [] := by simp [u]
      have hv : ∀ y ∈ v.head?, y.2 = !x.2 := by
        intro y hy
        have := List.head?_dropWhile_not (·.2 == x.2) (x :: l)
        rw [show (x :: l).dropWhile (·.2 == x.2) = v from rfl, hy] at this
        simpa [Bool.eq_not] using this
      rw [hl] at h hn ⊢
      have hshort : v.length < n := by
        have := List.length_pos_iff.2 hne
        rw [List.length_append] at hn
        omega
      have ih := ih v.length hshort (List.isChain_append.1 h).2.1 rfl
      cases hx : x.2 with
      | false =>
        rw [hx] at hu hv
        exact hasKeyword_outside_append hk hne h ih hu hv
      | true =>
        rw [hx] at hu hv
        exact hasKeyword_inside_append hk hne h ih hu hv

end

end Region

/-! ## Marked keys -/

namespace StoredStatement

/-- A statement without the contents of its quotes and comments. -/
def outline (s : Text) : Text := Region.outer (Region.labels .code s)

/-- The contents of a statement's quotes and comments, among blanks. -/
def contents (s : Text) : Text := Region.inner (Region.labels .code s)

theorem hasKeyword_iff {k : Text} (hk : AreKeywords [k]) (s : Text) :
    HasKeyword k s ↔ HasKeyword k (outline s) ∨ HasKeyword k (contents s) := by
  have h := Region.hasKeyword_iff_outer_or_inner hk (Region.isChain_labels .code s)
  rwa [Region.map_labels] at h

end StoredStatement

open SqliteRow StoredStatement

/-- What a statement says of the marker counts for the columns exactly if the key is one
column. -/
theorem columnsOfSqlite_eq_iff {rows : List SqliteRow} {s t : Text} :
    columnsOfSqlite rows (some s) = columnsOfSqlite rows (some t)
      ↔ ((rows.filter fun row => 0 < row.pk).length = 1 →
        (HasKeyword Dialect.sqlite.marker s ↔ HasKeyword Dialect.sqlite.marker t)) := by
  have hmarked (s : Text) : HasMarkedKey rows (some s)
      ↔ (rows.filter fun row => 0 < row.pk).length = 1 ∧ HasKeyword Dialect.sqlite.marker s := by
    simp [HasMarkedKey]
  rw [columnsOfSqlite_eq, columnsOfSqlite_eq, List.map_inj_left]
  constructor
  · intro h hone
    obtain ⟨key, hkey⟩ := List.exists_mem_of_length_pos (hone ▸ Nat.one_pos)
    obtain ⟨hrow, hpk⟩ := List.mem_filter.1 hkey
    have hcolumn := h key ((inTableOrder_perm rows).mem_iff.2 hrow)
    have hextra : ∀ s, (columnIn rows (some s) key).extra ≠ [] ↔ HasKeyword Dialect.sqlite.marker s := by
      intro s
      have hpk : 0 < key.pk := by simpa using hpk
      have hne : Dialect.sqlite.marker ≠ [] := by decide
      simp [columnIn, hmarked, hone, hpk, hne]
    rw [← hextra s, ← hextra t, hcolumn]
  · intro h row _
    have hsame : HasMarkedKey rows (some s) ↔ HasMarkedKey rows (some t) := by
      rw [hmarked, hmarked]
      exact and_congr_right h
    simp only [columnIn, hsame]

/-- A change to what stands in quotes and comments leaves the columns as they are exactly if
more or fewer than one column is in the key, or if the marker stands outside, or if it stands
inside before and after the change or neither time. -/
theorem columnsOfSqlite_of_outline_iff (rows : List SqliteRow) {s t : Text}
    (h : outline s = outline t) :
    columnsOfSqlite rows (some s) = columnsOfSqlite rows (some t)
      ↔ (rows.filter fun row => 0 < row.pk).length ≠ 1
        ∨ HasKeyword Dialect.sqlite.marker (outline s)
        ∨ (HasKeyword Dialect.sqlite.marker (contents s)
          ↔ HasKeyword Dialect.sqlite.marker (contents t)) := by
  have hk := Definition.areKeywords_marker .sqlite
  rw [columnsOfSqlite_eq_iff, hasKeyword_iff hk s, hasKeyword_iff hk t, ← h]
  by_cases hout : HasKeyword Dialect.sqlite.marker (outline s)
  · simp only [hout, true_or, or_true, implies_true]
  · simp only [hout, false_or, imp_iff_not_or, ne_eq]

/-- A marker that the statement has outside, and a comment of another text. -/
theorem columnsOfSqlite_of_outline_iff_notes :
    let rows : List SqliteRow := [⟨0, "id".toList, "INTEGER".toList, 0, none, 1⟩]
    let s := "CREATE TABLE notes (id INTEGER PRIMARY KEY /* no */ AUTOINCREMENT)".toList
    let t := "CREATE TABLE notes (id INTEGER PRIMARY KEY /* autoincrement */ AUTOINCREMENT)".toList
    outline s = outline t ∧ columnsOfSqlite rows (some s) = columnsOfSqlite rows (some t) := by
  intro rows s t
  have houtline : outline s = outline t := by decide +kernel
  have hmarker : HasKeyword Dialect.sqlite.marker (outline s) := by decide +kernel
  exact ⟨houtline, (columnsOfSqlite_of_outline_iff rows houtline).2 (Or.inr (Or.inl hmarker))⟩

/-- The word in the default of another column marks the key. -/
theorem key_marked_by_literal :
    let id : SqliteRow := ⟨0, "id".toList, "INTEGER".toList, 0, none, 1⟩
    let note : SqliteRow := ⟨1, "note".toList, "TEXT".toList, 0, some "''".toList, 0⟩
    let s := "CREATE TABLE notes (id INTEGER PRIMARY KEY, note TEXT DEFAULT 'no autoincrement')".toList
    let t := "CREATE TABLE notes (id INTEGER PRIMARY KEY, note TEXT DEFAULT 'none')".toList
    outline s = outline t ∧ ¬ HasKeyword Dialect.sqlite.marker (outline s)
      ∧ (columnsOfSqlite [id, note] (some s)).map Column.extra = ["AUTOINCREMENT".toList, []]
      ∧ (columnsOfSqlite [id, note] (some t)).map Column.extra = [[], []]
      ∧ columnsOfSqlite [id, note] (some s) ≠ columnsOfSqlite [id, note] (some t) := by
  intro id note s t
  have hsorted : inTableOrder [id, note] = [id, note] := List.mergeSort_of_pairwise (by decide)
  have hs : (columnsOfSqlite [id, note] (some s)).map Column.extra = ["AUTOINCREMENT".toList, []] := by
    rw [columnsOfSqlite_eq, hsorted]
    decide +kernel
  have ht : (columnsOfSqlite [id, note] (some t)).map Column.extra = [[], []] := by
    rw [columnsOfSqlite_eq, hsorted]
    decide +kernel
  refine ⟨by decide +kernel, by decide +kernel, hs, ht, fun h => ?_⟩
  rw [h, ht] at hs
  exact absurd hs (by decide)

end SchemaDialects
