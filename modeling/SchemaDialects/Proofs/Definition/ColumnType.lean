import SchemaDialects.Proofs.Definition.ColumnLine

/-!
# The type of a column's line

The first typed name of a plain column's line is the name and the type of the
column, so converting the type of the line is converting the column's type.
-/

namespace SchemaDialects.Definition

open Text

/-! ## Reading a type -/

theorem not_blank_of_digit {c : Char} (h : c.isDigit = true) : isBlank c = false :=
  isBlank_of_isAtomChar (isAtomChar_of_isNumericChar (by simp [isNumericChar, h]))

theorem many1_digits {n s : Text} (hn : IsDigits n) (hs : s.head?.any Text.isDigit = false) :
    many1 Text.isDigit (blanks (n ++ s)) = some s := by
  obtain ⟨c, n, rfl⟩ := List.exists_cons_of_ne_nil hn.1
  have hb : isBlank c = false := not_blank_of_digit (hn.2 c (by simp))
  rw [blanks, trimStart_eq_self (by simpa using hb)]
  exact many1_append (by simp) (fun d hd => isDigit_of_ascii (hn.2 d hd)) hs

theorem size_append {s : Text} (h : IsSize s) (hne : s ≠ []) (r : Text) :
    size (s ++ r) = some r := by
  have hclose : ∀ {x : Char} {s : Text}, isBlank x = false → blanks (x :: s) = x :: s := by
    intro x s hx
    rw [blanks, trimStart_eq_self (by simpa using hx)]
  have hparen : isBlank ')' = false := by decide
  have hcomma : isBlank ',' = false := by decide
  rcases h with rfl | ⟨n, hn, rfl⟩ | ⟨n, k, hn, hk, rfl⟩
  · exact absurd rfl hne
  · have hd : many1 Text.isDigit (blanks (n ++ ')' :: r)) = some (')' :: r) :=
      many1_digits hn (by simp; decide)
    simp [size, char, hd, hclose hparen, Text.optional]
  · have hd : many1 Text.isDigit (blanks (n ++ ',' :: (k ++ ')' :: r))) = some (',' :: (k ++ ')' :: r)) :=
      many1_digits hn (by simp; decide)
    have he : many1 Text.isDigit (blanks (k ++ ')' :: r)) = some (')' :: r) :=
      many1_digits hk (by simp; decide)
    simp [size, char, hd, he, hclose hparen, hclose hcomma, Text.optional]

theorem blanks_spaced_head {ts : List Text} (ht : ∀ t ∈ ts, IsAtom t) :
    (blanks (spaced ts)).head? ≠ some '(' := by
  cases ts with
  | nil => simp [blanks, trimStart]
  | cons t ts =>
    obtain ⟨c, u, hu⟩ := List.exists_cons_of_ne_nil (ht t (by simp)).ne_nil
    have hc : isBlank c = false := (ht t (by simp)).not_blank (by simp [hu])
    have hh := (ht t (by simp)).head
    have hs : isBlank ' ' = true := by decide
    rw [spaced_cons, hu, blanks, trimStart, List.dropWhile_cons_of_pos hs, List.cons_append,
      List.dropWhile_cons_of_neg (by simp [hc])]
    simpa [hu] using hh

theorem optional_size {size : Text} (h : IsSize size) {ts : List Text} (ht : ∀ t ∈ ts, IsAtom t) :
    Text.optional sizeAfterBlanks (size ++ spaced ts) = spaced ts := by
  by_cases hne : size = []
  · subst hne
    have hh := blanks_spaced_head ht
    have hnone : sizeAfterBlanks (spaced ts) = none := by
      rw [sizeAfterBlanks]
      cases hb : blanks (spaced ts) with
      | nil => rfl
      | cons c s =>
        rw [hb] at hh
        have hc : c ≠ '(' := fun e => hh (by simp [e])
        simp [Text.size, char, hc]
    rw [List.nil_append, Text.optional, hnone, Option.getD_none]
  · have hb : blanks (size ++ spaced ts) = size ++ spaced ts := by
      rcases h with rfl | ⟨n, -, rfl⟩ | ⟨n, k, -, -, rfl⟩
      · exact absurd rfl hne
      · exact trimStart_eq_self (by simp; decide)
      · exact trimStart_eq_self (by simp; decide)
    rw [Text.optional, sizeAfterBlanks, hb, size_append h hne, Option.getD_some]

section
variable {q : Char} (hq : isNameQuote q = true) {name : Text} (hn : IsPlainName name)
variable {ts : List Text} (ht : ∀ t ∈ ts, IsAtom t)
include hq hn ht

theorem typedName?_columnLine {w size : Text} (hne : w ≠ []) (hw : ∀ c ∈ w, c.isAlpha = true)
    (hsize : IsSize size) :
    typedName? (columnLine q name ((w ++ size) :: ts))
      = some ([], ⟨quotedName q name, [' '], w, size, spaced ts⟩) := by
  have hgap : read blanks1 ([' '] ++ (w ++ (size ++ spaced ts)))
      = some ([' '], w ++ (size ++ spaced ts)) := by
    refine read_of_append (many1_append (by simp) (by decide) ?_)
    obtain ⟨c, w, rfl⟩ := List.exists_cons_of_ne_nil hne
    simpa using isBlank_of_isMarkerChar (isMarkerChar_of_isAlpha (hw c (by simp)))
  have hrun : run Char.isAlpha (w ++ (size ++ spaced ts)) = some (w, size ++ spaced ts) := by
    refine run_append hne hw ?_
    rcases hsize with rfl | ⟨n, -, rfl⟩ | ⟨n, k, -, -, rfl⟩
    · cases ts <;> simp [spaced_cons]
    · simp
    · simp
  have hread : typedName (columnLine q name ((w ++ size) :: ts))
      = some ⟨quotedName q name, [' '], w, size, spaced ts⟩ := by
    have hs : columnLine q name ((w ++ size) :: ts)
        = quotedName q name ++ ([' '] ++ (w ++ (size ++ spaced ts))) := by
      simp [columnLine_eq, spaced_cons]
    rw [hs, typedName, read_of_append (nameToken_name hq hn _), Option.bind_eq_bind,
      Option.bind_some]
    simp only [hgap, Option.bind_some, hrun, optional_size hsize ht,
      before_append_self]
  rw [typedName?, columnLine, find, anywhere]
  rw [columnLine] at hread
  rw [hread]

end

theorem declaredKeyword?_append {w u : Text} (hne : w ≠ []) (ha : ∀ c ∈ w, c.isAlpha = true)
    (hu : u.head?.any Char.isAlpha = false) :
    declaredKeyword? (w ++ u) = some (upper w, (size (blanks u)).isSome) := by
  have hb : blanks (w ++ u) = w ++ u := by
    obtain ⟨c, w, rfl⟩ := List.exists_cons_of_ne_nil hne
    have := isBlank_of_isMarkerChar (isMarkerChar_of_isAlpha (ha c (by simp)))
    exact trimStart_eq_self (by simpa using this)
  rw [declaredKeyword?, hb, run_append hne ha hu, Option.map_some]

theorem ofDeclared?_plain {m : TypeMap} {d : Direction} {w size : Text}
    (hw : d.source.hasTypeKeyword w = true) (hsize : IsSize size) {mapping : Mapping}
    (hm : m.ofKeyword? d (upper w) = some mapping) :
    ∃ lossy, m.ofDeclared? d (w ++ size) = some ⟨mapping.target, lossy⟩ := by
  obtain ⟨hne, ha, -⟩ := Dialect.hasTypeKeyword_spec hw
  have hend : size.head?.any Char.isAlpha = false := by
    rcases hsize with rfl | ⟨n, -, rfl⟩ | ⟨n, k, -, -, rfl⟩
    · rfl
    · rfl
    · rfl
  refine ⟨mapping.lossy || (Text.size (blanks size)).isSome, ?_⟩
  simp only [TypeMap.ofDeclared?, declaredKeyword?_append hne ha hend, Option.bind_eq_bind,
    Option.bind_some, hm]

theorem target_plain {m : TypeMap} {d : Direction} {w size : Text}
    (hw : d.source.hasTypeKeyword w = true) (hsize : IsSize size) {mapping : Mapping}
    (hm : m.ofKeyword? d (upper w) = some mapping) : m.target d (w ++ size) = mapping.target := by
  obtain ⟨lossy, hd⟩ := ofDeclared?_plain hw hsize hm
  rw [TypeMap.target, hd, Option.map_some, Option.getD_some]

theorem isDigits_ofNat (n : Nat) : IsDigits (ofNat n) :=
  ⟨Nat.toDigits_ne_nil, fun _ hc => Nat.isDigit_of_mem_toDigits (by decide) (by decide) hc⟩

theorem isPlainType_target (m : TypeMap) {d : Direction} {s : Text} (h : IsPlainType d.source s) :
    IsPlainType d.target (m.target d s) := by
  obtain ⟨w, size, hw, hsize, rfl⟩ := h
  obtain ⟨mapping, hm⟩ := Option.isSome_iff_exists.1 ((m.isSome_ofKeyword? d w).trans hw)
  rw [target_plain hw hsize hm]
  cases d with
  | mysqlToSqlite =>
    obtain ⟨t, -, rfl⟩ := Option.map_eq_some_iff.1 hm
    refine ⟨t.toSqlite.name, [], ?_, Or.inl rfl, (List.append_nil _).symm⟩
    cases t.toSqlite <;> decide
  | sqliteToMysql =>
    obtain ⟨c, -, rfl⟩ := Option.map_eq_some_iff.1 hm
    cases c with
    | integer => exact ⟨"INT".toList, [], by decide, Or.inl rfl, rfl⟩
    | real => exact ⟨"DOUBLE".toList, [], by decide, Or.inl rfl, rfl⟩
    | text =>
      refine ⟨"VARCHAR".toList, '(' :: ofNat m.textLength ++ [')'], by decide, ?_, rfl⟩
      exact Or.inr (Or.inl ⟨_, isDigits_ofNat _, rfl⟩)
    | blob => exact ⟨"BLOB".toList, [], by decide, Or.inl rfl, rfl⟩
    | numeric => exact ⟨"DECIMAL".toList, [], by decide, Or.inl rfl, rfl⟩

theorem convertType_columnLine (m : TypeMap) (d : Direction) (table : Option Text) {q : Char}
    (hq : isNameQuote q = true) {name : Text} (hn : IsPlainName name) {type : Text}
    (hty : IsPlainType d.source type) {ts : List Text} (ht : ∀ t ∈ ts, IsAtom t) :
    (convertType m d table (columnLine q name (type :: ts))).line
      = columnLine q name (m.target d type :: ts) := by
  obtain ⟨w, size, hw, hsize, rfl⟩ := hty
  obtain ⟨hne, ha, -⟩ := Dialect.hasTypeKeyword_spec hw
  obtain ⟨mapping, hm⟩ := Option.isSome_iff_exists.1 ((m.isSome_ofKeyword? d w).trans hw)
  obtain ⟨lossy, hd⟩ := ofDeclared?_plain hw hsize hm
  rw [convertType, typedName?_columnLine hq hn ht hne ha hsize, target_plain hw hsize hm]
  simp only [TypedName.declaredType, hd]
  simp [columnLine_eq, spaced_cons]

end SchemaDialects.Definition
