import SchemaDialects.Proofs.Definition.Attributes
import SchemaDialects.Proofs.Script.Body

/-!
# Detection and classification of table definitions

Three readers decide whether a statement defines a table. The one that detects a plain
definition is content with its two words. The one that classifies statements and the
one that reads the table's name also want blanks and a name behind them. They agree on
every statement in which the two words are followed by a name, with blanks between.
-/

namespace SchemaDialects.Script

open Text Definition

/-! ## Names -/

/-- A name starts here, in quotes or without. -/
def StartsName (t : Text) : Prop :=
  ∃ c u, (t = c :: u ∨ ∃ q, (q = '`' ∨ q = '"') ∧ t = q :: c :: u) ∧ isNameChar "(".toList c = true

/-- The table is named: a name follows the two words and the blanks behind them. -/
def NamesTable (s : Text) : Prop :=
  ∃ m b t, body s = m ++ (b ++ t) ∧ OpeningWords m ∧ b ≠ [] ∧ (∀ c ∈ b, isBlank c = true)
    ∧ StartsName t

def isTemporary (s : Text) : Bool := (keywordBlanks "CREATE".toList (body s) >>= temporary).isSome

theorem isSome_run {p : Char → Bool} {s : Text} : (run p s).isSome = s.head?.any p := by
  unfold run
  cases s with
  | nil => rfl
  | cons c s => by_cases hc : p c = true <;> simp [hc]

theorem isNameChar_of_quote {q : Char} (h : q = '`' ∨ q = '"') (ends : Text) :
    isNameChar ends q = false := by
  rcases h with rfl | rfl
  · simp [isNameChar]
  · simp [isNameChar]

theorem isSome_name (ends : Text) (c : Char) (t : Text) : (name ends (c :: t)).isSome =
    if c = '`' ∨ c = '"' then t.head?.any (isNameChar ends) else isNameChar ends c := by
  unfold name
  rw [Option.isSome_map, isSome_run]
  by_cases hc : c = '`' ∨ c = '"' <;> simp [hc]

theorem isSome_name_iff {t : Text} : (name "(".toList t).isSome = true ↔ StartsName t := by
  cases t with
  | nil => exact iff_of_false nofun (by rintro ⟨c, u, h | ⟨q, -, h⟩, -⟩ <;> cases h)
  | cons q t =>
    rw [isSome_name]
    by_cases hq : q = '`' ∨ q = '"'
    · rw [if_pos hq, Option.any_eq_true]
      constructor
      · rintro ⟨c, hc, hname⟩
        obtain ⟨u, rfl⟩ := List.head?_eq_some_iff.1 hc
        exact ⟨c, u, .inr ⟨q, hq, rfl⟩, hname⟩
      · rintro ⟨c, u, h | ⟨r, -, h⟩, hname⟩
        · rw [← (List.cons.inj h).1, isNameChar_of_quote hq] at hname
          cases hname
        · rw [(List.cons.inj h).2]
          exact ⟨c, rfl, hname⟩
    · rw [if_neg hq]
      constructor
      · exact fun hname => ⟨q, t, .inl rfl, hname⟩
      · rintro ⟨c, u, h | ⟨r, hr, h⟩, hname⟩
        · rw [(List.cons.inj h).1]
          exact hname
        · rw [(List.cons.inj h).1] at hq
          exact absurd hr hq

theorem isBlank_of_isNameChar {ends : Text} {c : Char} (h : isNameChar ends c = true) :
    isBlank c = false := by
  simp only [isNameChar, Bool.and_eq_true, Bool.not_eq_true'] at h
  exact h.1.1.1

theorem StartsName.head {t : Text} (h : StartsName t) : t.head?.any isBlank = false := by
  obtain ⟨c, u, rfl | ⟨q, rfl | rfl, rfl⟩, hc⟩ := h
  · exact isBlank_of_isNameChar hc
  · rfl
  · rfl

/-- The words that may stand before a name could begin one. -/
theorem isSome_nameAfter_iff {t : Text} :
    (nameAfter ["IF".toList, "NOT".toList, "EXISTS".toList] "(".toList t).isSome = true
      ↔ StartsName t := by
  unfold nameAfter
  rw [Option.isSome_or, Bool.or_eq_true, isSome_name_iff]
  refine ⟨fun h => h.elim (fun hwords => ?_) id, .inr⟩
  obtain ⟨a, ha⟩ := Option.isSome_iff_exists.1 hwords
  obtain ⟨r, hr, -⟩ := Option.bind_eq_some_iff.1 ha
  obtain ⟨r, hr, -⟩ := Option.bind_eq_some_iff.1 hr
  obtain ⟨r, hr, -⟩ := Option.bind_eq_some_iff.1 hr
  obtain ⟨m, rfl, -, hm⟩ := exists_of_keyword hr
  cases hm with
  | @cons _ c _ m hc _ =>
    have hc : foldsTo 'I' c = true := hc
    have hne (d : Char) (hd : foldsTo 'I' d = false) : c ≠ d := by
      rintro rfl
      rw [hc] at hd
      cases hd
    refine ⟨c, m ++ r, .inl rfl, ?_⟩
    simp [isNameChar, isBlank_of_foldsTo (by decide) hc, hne '`' (by decide), hne '"' (by decide),
      hne '(' (by decide)]

/-! ## The three readers -/

theorem keyword_of_second {l d : Char} (h : foldsTo l d = false) (k c : Char) (ks s : Text) :
    keyword (k :: l :: ks) (c :: d :: s) = none := by
  rw [keyword]
  split
  · exact keyword_of_head h ks s
  · rfl

/-- The word `TABLE` is no word of a temporary table: they part at the second letter. -/
theorem temporary_eq_none {x rest : Text} (h : keyword "TABLE".toList x = some rest) :
    temporary x = none := by
  obtain ⟨m, rfl, -, hm⟩ := exists_of_keyword h
  cases hm with
  | @cons _ c _ m _ hm =>
    cases hm with
    | @cons _ d _ m hd _ =>
      have hd : foldsTo 'A' d = true := hd
      have hne : foldsTo 'E' d = false := by
        have hup : d.toUpper = 'A' := by simpa [foldsTo] using hd
        simp [foldsTo, hup]
      have hnone {k : Text} (ks : Text) (hk : k = 'T' :: 'E' :: ks) :
          keywordBlanks k (c :: d :: (m ++ rest)) = none := by
        rw [keywordBlanks, hk, keyword_of_second hne]
        rfl
      rw [List.cons_append, List.cons_append, temporary, hnone "MPORARY".toList (by decide),
        hnone "MP".toList (by decide)]
      rfl

theorem createdTable?_eq {s rest : Text} (h : createTable (body s) = some rest) :
    createdTable? (body s) =
      blanks1 rest >>= nameAfter ["IF".toList, "NOT".toList, "EXISTS".toList] "(".toList := by
  obtain ⟨x, hx, hend⟩ := Option.bind_eq_some_iff.1 h
  have htable := keyword_of_keywordEnd hend
  have hplain : optional temporary x = x := by rw [Text.optional, temporary_eq_none htable]; rfl
  have hblanks : keywordBlanks "TABLE".toList x = blanks1 rest := by rw [keywordBlanks, htable]; rfl
  unfold createdTable?
  rw [blanks_body, hx, Option.bind_eq_bind, Option.bind_some, hplain, hblanks]

/-- A statement is classified as a table definition where its table is read. -/
theorem classify_eq_iff {s table : Text} :
    classify s = (.createTable, table) ↔ tableName? s = some table := by
  unfold classify tableName?
  constructor
  · intro h
    obtain hfound | ⟨-, hnone⟩ := Option.getD_eq_iff.1 h
    · obtain ⟨⟨kind, reader⟩, hmem, hread⟩ := List.exists_of_findSome?_eq_some hfound
      obtain ⟨t, ht, hpair⟩ := Option.map_eq_some_iff.1 hread
      obtain ⟨rfl, rfl⟩ := Prod.mk.inj hpair
      obtain rfl : reader = createdTable? := by simpa using hmem
      exact ht
    · cases hnone
  · intro h
    simp [h]

theorem fst_classify_iff {s : Text} :
    (classify s).1 = .createTable ↔ (tableName? s).isSome = true := by
  rw [Option.isSome_iff_exists]
  constructor
  · exact fun h => ⟨(classify s).2, classify_eq_iff.1 (Prod.ext h rfl)⟩
  · rintro ⟨table, h⟩
    rw [classify_eq_iff.2 h]

/-! ## Agreement -/

theorem tableName?_isSome_iff {s : Text} (h : isPlainCreateTable s = true) :
    (tableName? s).isSome = true ↔ NamesTable s := by
  rw [isPlainCreateTable_eq] at h
  obtain ⟨rest, hrest⟩ := Option.isSome_iff_exists.1 h
  rw [tableName?, createdTable?_eq hrest]
  constructor
  · intro hname
    obtain ⟨table, htable⟩ := Option.isSome_iff_exists.1 hname
    obtain ⟨t, ht, hafter⟩ := Option.bind_eq_some_iff.1 htable
    obtain ⟨b, rfl, hne, hb⟩ := exists_of_many1 ht
    obtain ⟨m, hm, hwords, -⟩ := exists_of_createTable hrest
    exact ⟨m, b, t, hm, hwords, hne, hb, isSome_nameAfter_iff.1 (by rw [hafter]; rfl)⟩
  · rintro ⟨m, b, t, hs, hwords, hne, hb, ht⟩
    have hrest' := createTable_append hwords (b ++ t)
    rw [← hs, hrest] at hrest'
    obtain ⟨-, rfl⟩ := Option.ite_some_none_eq_some.1 hrest'.symm
    have hblanks : blanks1 (b ++ t) = some t := many1_append hne hb ht.head
    rw [hblanks]
    exact isSome_nameAfter_iff.2 ht

theorem isTemporary_of_isPlainCreateTable {s : Text} (h : isPlainCreateTable s = true) :
    isTemporary s = false := by
  rw [isPlainCreateTable_eq] at h
  obtain ⟨rest, hrest⟩ := Option.isSome_iff_exists.1 h
  obtain ⟨x, hx, hend⟩ := Option.bind_eq_some_iff.1 hrest
  rw [isTemporary, hx]
  show (temporary x).isSome = false
  rw [temporary_eq_none (keyword_of_keywordEnd hend)]
  rfl

/-- Where the table is read the two words are there, or a word of a temporary table
stands between them. -/
theorem isPlainCreateTable_of_tableName? {s : Text} (h : (tableName? s).isSome = true)
    (htemp : isTemporary s = false) : isPlainCreateTable s = true := by
  obtain ⟨table, htable⟩ := Option.isSome_iff_exists.1 h
  obtain ⟨x, hx, hrest⟩ := Option.bind_eq_some_iff.1 htable
  obtain ⟨t, ht, -⟩ := Option.bind_eq_some_iff.1 hrest
  rw [blanks_body] at hx
  have hnone : temporary x = none := by
    rw [isTemporary, hx] at htemp
    exact Option.isNone_iff_eq_none.1 (Option.isSome_eq_false_iff.1 htemp)
  rw [Text.optional, hnone] at ht
  rw [isPlainCreateTable_eq, createTable, hx]
  exact keywordEnd_of_keywordBlanks ht

/-- The three readers agree on a statement exactly if, where it begins with the two words
of a table definition, blanks and a name follow them. -/
theorem kinds_agree_iff (s : Text) :
    (∀ table, classify s = (.createTable, table) ↔ tableName? s = some table) ∧
    ((isPlainCreateTable s = true ↔ (classify s).1 = .createTable ∧ isTemporary s = false) ↔
      (isPlainCreateTable s = true → NamesTable s)) ∧
    (isPlainCreateTable s = true → (tableName? s = some (classify s).2 ↔ NamesTable s)) := by
  refine ⟨fun table => classify_eq_iff, ⟨fun hagree hplain => ?_, fun hnames => ⟨fun hplain => ?_, ?_⟩⟩,
    fun hplain => ⟨fun hname => ?_, fun hnames => ?_⟩⟩
  · exact (tableName?_isSome_iff hplain).1 (fst_classify_iff.1 (hagree.1 hplain).1)
  · exact ⟨fst_classify_iff.2 ((tableName?_isSome_iff hplain).2 (hnames hplain)),
      isTemporary_of_isPlainCreateTable hplain⟩
  · exact fun ⟨hkind, htemp⟩ => isPlainCreateTable_of_tableName? (fst_classify_iff.1 hkind) htemp
  · exact (tableName?_isSome_iff hplain).1 (by rw [hname]; rfl)
  · have hkind := fst_classify_iff.2 ((tableName?_isSome_iff hplain).2 hnames)
    exact classify_eq_iff.1 (Prod.ext hkind rfl)

/-- A table's name in quotes follows the two words at once. -/
theorem not_kinds_agree_quoted :
    let s := "CREATE TABLE`users` (\n  `id` INT\n);".toList
    isPlainCreateTable s = true ∧ classify s = (.unknown, []) ∧ tableName? s = none
      ∧ ¬ (isPlainCreateTable s = true ↔ (classify s).1 = .createTable ∧ isTemporary s = false) := by
  decide +kernel

end SchemaDialects.Script
