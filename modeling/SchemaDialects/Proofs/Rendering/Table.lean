import SchemaDialects.Proofs.Conversion.Output
import SchemaDialects.Proofs.Conversion.StorageClause
import SchemaDialects.Proofs.Definition.KeyLine
import SchemaDialects.Rendering

/-!
# Tables of plain lines

A table whose lines are plain columns and key clauses, with names in either kind
of quotes. A conversion reads such a table as its lines in the other quotes, and
writes the lines that it keeps as a table again.
-/

namespace SchemaDialects

open Text Definition
open Dialect (isMarkerChar markerWords)

/-! ## Lines -/

inductive TableLine where
  | column (name : Text) (parts : List Text)
  | key (names : List Text)

namespace TableLine

def text (q : Char) : TableLine → Text
  | column name parts => columnLine q name parts
  | key names => keyLine q names

def IsPlain : TableLine → Prop
  | column name parts => IsPlainName name ∧ ∀ t ∈ parts, IsAtom t
  | key names => ∀ n ∈ names, IsPlainName n

theorem isDefinition_text {q : Char} (hq : isNameQuote q = true) :
    ∀ {l : TableLine}, l.IsPlain → IsDefinition (l.text q)
  | column _ _, h => isDefinition_columnLine hq h.1 h.2
  | key _, h => isDefinition_keyLine hq h

/-- What holds of the characters of words, of numbers and of the signs around
them holds of the characters of a line. -/
theorem forall_mem_text {q : Char} {p : Char → Prop} (hpq : p q)
    (hs : p ' ') (ha : ∀ c, isAtomChar c = true → p c) :
    ∀ {l : TableLine}, l.IsPlain → ∀ c ∈ l.text q, p c
  | column _ _, h =>
    forall_mem_columnLine hpq hs (fun c hc => ha c (isAtomChar_of_isMarkerChar (h.1.chars c hc)))
      fun t ht c hc => ha c ((h.2 t ht).chars c hc)
  | key names, h => by
    have hlist := forall_mem_nameList h hpq hs (ha ',' (by decide)) fun c hc =>
      ha c (isAtomChar_of_isMarkerChar hc)
    have hhead : ∀ c ∈ "PRIMARY KEY".toList, c = ' ' ∨ isAtomChar c = true := by decide
    intro c hc
    rw [text, keyLine_eq] at hc
    rcases List.mem_append.1 hc with hc | hc
    · rcases hhead c hc with rfl | hc
      · exact hs
      · exact ha c hc
    · rcases List.mem_cons.1 hc with rfl | hc
      · exact hs
      · rcases List.mem_cons.1 hc with rfl | hc
        · exact ha _ (by decide)
        · rcases List.mem_append.1 hc with hc | hc
          · exact hlist c hc
          · rw [List.mem_singleton.1 hc]
            exact ha _ (by decide)

end TableLine

/-! ## Tables -/

def tableHeader (q : Char) (table : Text) : Text :=
  "CREATE TABLE ".toList ++ quotedName q table ++ " (".toList

def tableText (q : Char) (table : Text) (ls : List TableLine) (ending : Text) : Text :=
  laidOut (tableHeader q table) (ls.map (TableLine.text q)) ending

/-- What a table of the dialect ends with. -/
def endingOf : Dialect → Storage → Text
  | .mysql, storage => ' ' :: storage.clause ++ [';']
  | .sqlite, _ => [';']

structure Storage.IsBare (storage : Storage) : Prop where
  engine : Settings.isBareIdentifier storage.engine = true
  charset : Settings.isBareIdentifier storage.charset = true

theorem tableHeader_eq (q : Char) (table : Text) :
    tableHeader q table = "CREATE TABLE ".toList ++ quotedName q table ++ " (".toList :=
  rfl

/-! ## Other quotes -/

section
variable {f : Char → Char}

theorem map_join (sep : Text) (ls : List Text) :
    (join sep ls).map f = join (sep.map f) (ls.map (·.map f)) := by
  induction ls with
  | nil => rfl
  | cons l ls ih =>
    cases ls with
    | nil => rfl
    | cons l' ls => simp only [join, List.map_append, List.map_cons] at ih ⊢; rw [ih]

theorem map_eq_self {s : Text} (h : ∀ c ∈ s, f c = c) : s.map f = s :=
  (List.map_congr_left h).trans (List.map_id' s)

variable (hs : f ' ' = ' ') (ha : ∀ c, isAtomChar c = true → f c = c)
include ha

theorem map_quotedName (q : Char) {name : Text} (hn : ∀ c ∈ name, isMarkerChar c = true) :
    (quotedName q name).map f = quotedName (f q) name := by
  have hname := map_eq_self (f := f) fun c hc => ha c (isAtomChar_of_isMarkerChar (hn c hc))
  simp [quotedName, hname]

include hs

theorem map_columnLine (q : Char) {name : Text} (hn : IsPlainName name) {ts : List Text}
    (ht : ∀ t ∈ ts, IsAtom t) : (columnLine q name ts).map f = columnLine (f q) name ts := by
  have hspaced : (spaced ts).map f = spaced ts :=
    map_eq_self (forall_mem_spaced hs fun t hm c hc => ha c ((ht t hm).chars c hc))
  rw [columnLine_eq, columnLine_eq, List.map_append, map_quotedName ha q hn.chars, hspaced]

theorem map_keyLine (q : Char) {names : List Text} (hn : ∀ n ∈ names, IsPlainName n) :
    (keyLine q names).map f = keyLine (f q) names := by
  have hlist : (nameList q names).map f = nameList (f q) names := by
    rw [nameList, map_join, List.map_map, nameList]
    congr 1
    · have hall : ∀ c ∈ ", ".toList, c = ' ' ∨ isAtomChar c = true := by decide
      refine map_eq_self fun c hc => ?_
      rcases hall c hc with rfl | hc
      · exact hs
      · exact ha c hc
    · exact List.map_congr_left fun n hm => map_quotedName ha q (hn n hm).chars
  have hhead : ∀ c ∈ "PRIMARY KEY".toList, f c = c := by
    have hall : ∀ c ∈ "PRIMARY KEY".toList, c = ' ' ∨ isAtomChar c = true := by decide
    intro c hc
    rcases hall c hc with rfl | hc
    · exact hs
    · exact ha c hc
  rw [keyLine_eq, List.map_append, map_eq_self hhead, List.map_cons, List.map_cons, List.map_append,
    hlist, hs, ha '(' (by decide), List.map_singleton, ha ')' (by decide), keyLine_eq]

theorem TableLine.map_text (q : Char) : ∀ {l : TableLine}, l.IsPlain →
    (l.text q).map f = l.text (f q)
  | .column _ _, h => map_columnLine hs ha q h.1 h.2
  | .key _, h => map_keyLine hs ha q h

theorem map_tableText (q : Char) {table : Text} (hb : Settings.isBareIdentifier table = true)
    {ls : List TableLine} (hl : ∀ l ∈ ls, l.IsPlain) (hbreak : f '\n' = '\n') (ending : Text) :
    (tableText q table ls ending).map f = tableText (f q) table ls (ending.map f) := by
  have hfix : ∀ {s : Text}, (∀ c ∈ s, c = ' ' ∨ c = '\n' ∨ isAtomChar c = true) → s.map f = s := by
    intro s h
    refine map_eq_self fun c hc => ?_
    rcases h c hc with rfl | rfl | hc
    · exact hs
    · exact hbreak
    · exact ha c hc
  have hheader : (tableHeader q table).map f = tableHeader (f q) table := by
    rw [tableHeader_eq, List.map_append, List.map_append,
      map_quotedName ha q (chars_of_isBareIdentifier hb).2, hfix (by decide), hfix (by decide),
      tableHeader_eq]
  have hlines : (ls.map (TableLine.text q)).map (·.map f) = ls.map (TableLine.text (f q)) := by
    rw [List.map_map]
    exact List.map_congr_left fun l hm => TableLine.map_text hs ha q (hl l hm)
  have hindent : "  ".toList.map f = "  ".toList := hfix (by decide)
  have hsep : ",\n  ".toList.map f = ",\n  ".toList := hfix (by decide)
  rw [tableText, laidOut, List.map_append, List.map_append, List.map_cons, List.map_append,
    map_join, hheader, hlines, hindent, hsep, List.map_cons, List.map_cons, hbreak,
    ha ')' (by decide), tableText, laidOut]

end

theorem requoteFrom_eq_map (old new : Char) (inName : Bool) {s : Text} (h : '\'' ∉ s) :
    requoteFrom old new false inName s = s.map fun c => if c = old then new else c := by
  induction s generalizing inName with
  | nil => rfl
  | cons c s ih =>
    have hc : c ≠ '\'' := fun e => h (by simp [e])
    have hs : '\'' ∉ s := fun hm => h (by simp [hm])
    rw [requoteFrom, if_neg (by simp [hc])]
    by_cases ho : c = old
    · rw [if_pos (by simp [ho]), ih _ hs, List.map_cons, if_pos ho]
    · rw [if_neg (by simp [ho]), ih _ hs, List.map_cons, if_neg ho]

section
variable {q : Char} (hq : isNameQuote q = true) {table : Text}
variable (hb : Settings.isBareIdentifier table = true) {ls : List TableLine}
variable (hl : ∀ l ∈ ls, l.IsPlain)
include hq hb hl

omit hq in
theorem forall_mem_tableText {p : Char → Prop} (hpq : p q) (hs : p ' ') (hbreak : p '\n')
    (ha : ∀ c, isAtomChar c = true → p c) (ending : Text) (he : ∀ c ∈ ending, p c) :
    ∀ c ∈ tableText q table ls ending, p c := by
  have hfix : ∀ {s : Text}, (∀ c ∈ s, c = ' ' ∨ c = '\n' ∨ isAtomChar c = true) → ∀ c ∈ s, p c := by
    intro s h c hc
    rcases h c hc with rfl | rfl | hc
    · exact hs
    · exact hbreak
    · exact ha c hc
  have hjoin : ∀ c ∈ join ",\n  ".toList (ls.map (TableLine.text q)), p c := by
    refine forall_mem_join (hfix (by decide)) fun s hm => ?_
    obtain ⟨l, hmem, rfl⟩ := List.mem_map.1 hm
    exact TableLine.forall_mem_text hpq hs ha (hl l hmem)
  have hname : ∀ c ∈ quotedName q table, p c := forall_mem_quotedName hpq fun c hc =>
    ha c (isAtomChar_of_isMarkerChar ((chars_of_isBareIdentifier hb).2 c hc))
  intro c hc
  rw [tableText, laidOut, tableHeader_eq] at hc
  simp only [List.mem_append, List.mem_cons] at hc
  rcases hc with (((hc | hc) | hc) | rfl | hc | hc) | rfl | rfl | hc
  · exact hfix (by decide) c hc
  · exact hname c hc
  · exact hfix (by decide) c hc
  · exact hbreak
  · exact hfix (by decide) c hc
  · exact hjoin c hc
  · exact hbreak
  · exact ha _ (by decide)
  · exact he c hc

/-- Whatever the quotes of a table are, requoting gives it the new ones. -/
theorem requote_tableText (d : Direction) :
    requote d.source.quoteChar d.target.quoteChar (tableText q table ls [';'])
      = tableText d.target.quoteChar table ls [';'] := by
  have hapo : '\'' ∉ tableText q table ls [';'] := by
    have := forall_mem_tableText hb hl (q := q) (p := (· ≠ '\''))
      (by rcases eq_of_isNameQuote hq with rfl | rfl <;> decide) (by decide) (by decide)
      (by rintro c hc rfl; exact absurd hc (by decide)) [';'] (by decide)
    exact fun hm => this _ hm rfl
  have hfix : ∀ c, isAtomChar c = true → (if c = d.source.quoteChar then d.target.quoteChar else c) = c := by
    intro c hc
    refine if_neg ?_
    rintro rfl
    cases d <;> exact absurd hc (by decide)
  have hquote : (if q = d.source.quoteChar then d.target.quoteChar else q) = d.target.quoteChar := by
    rcases eq_of_isNameQuote hq with rfl | rfl <;> cases d <;> rfl
  rw [requote, requoteFrom_eq_map _ _ _ hapo,
    map_tableText (by cases d <;> rfl) hfix q hb hl (by cases d <;> rfl), hquote]
  congr 1
  cases d <;> rfl

/-! ## Storage clauses -/

theorem exists_tableText_eq :
    ∃ u, '=' ∉ u ∧ ∀ ending, tableText q table ls ending = u ++ ')' :: ending := by
  have hall := forall_mem_tableText hb hl (q := q) (p := (· ≠ '='))
    (by rcases eq_of_isNameQuote hq with rfl | rfl <;> decide) (by decide) (by decide)
    (by rintro c hc rfl; exact absurd hc (by decide)) [] (by simp)
  refine ⟨tableHeader q table ++ '\n' :: ("  ".toList ++ join ",\n  ".toList (ls.map (TableLine.text q)))
    ++ ['\n'], fun hm => hall '=' ?_ rfl, fun ending => ?_⟩
  · rw [tableText, laidOut]
    simp only [List.mem_append, List.mem_cons, List.not_mem_nil, or_false] at hm ⊢
    exact hm.imp_right Or.inl
  · simp [tableText, laidOut]

omit hq hb hl in
theorem clause_eq (storage : Storage) :
    storage.clause
      = "ENGINE=".toList ++ storage.engine ++ " DEFAULT CHARSET=".toList ++ storage.charset :=
  rfl

omit hq hb hl in
theorem storageClause_endingOf {storage : Storage} (hs : storage.IsBare) :
    Conversion.storageClause (')' :: endingOf .mysql storage) = some [] := by
  have hne : ∀ {s : Text}, Settings.isBareIdentifier s = true → ∀ c ∈ s, (c != ';') = true := by
    intro s h c hc
    rw [bne_iff_ne]
    rintro rfl
    exact absurd ((chars_of_isBareIdentifier h).2 _ hc) (by decide)
  obtain ⟨rest, hrest⟩ : ∃ rest,
      rest = storage.engine ++ (" DEFAULT CHARSET=".toList ++ (storage.charset ++ [';'])) := ⟨_, rfl⟩
  have he : endingOf .mysql storage = ' ' :: ("ENGINE".toList ++ '=' :: rest) := by
    simp [endingOf, clause_eq, hrest]
  have hk : keyword "ENGINE".toList (blanks (endingOf .mysql storage)) = some ('=' :: rest) := by
    have hblanks : blanks (endingOf .mysql storage) = "ENGINE".toList ++ '=' :: rest := by
      rw [he]
      rfl
    rw [hblanks, keyword_append (by decide)]
  have hdrop : rest.dropWhile (· != ';') = [';'] := by
    rw [hrest, List.dropWhile_append_of_pos (hne hs.engine),
      List.dropWhile_append_of_pos (by decide), List.dropWhile_append_of_pos (hne hs.charset)]
    rfl
  have hblanks : char '=' (blanks ('=' :: rest)) = some rest := rfl
  have hchar : char ')' (')' :: endingOf .mysql storage) = some (endingOf .mysql storage) := rfl
  rw [Conversion.storageClause, hchar, Option.bind_eq_bind, Option.bind_some, hk, Option.bind_some,
    hblanks, Option.bind_some, hdrop]
  rfl

/-- The quotes become the target dialect's, and MySQL's storage clause goes. -/
theorem requoted_tableText (d : Direction) (e : Dialect) (storage : Storage)
    (he : e = .sqlite ∨ (d = .mysqlToSqlite ∧ storage.IsBare)) :
    Conversion.requoted d (tableText q table ls (endingOf e storage))
      = tableText d.target.quoteChar table ls [';'] := by
  have hreq := requote_tableText hq hb hl d
  cases d with
  | sqliteToMysql =>
    rcases he with rfl | ⟨hd, -⟩
    · exact hreq
    · cases hd
  | mysqlToSqlite =>
    obtain ⟨u, hu, htext⟩ := exists_tableText_eq hq hb hl
    have hpass : ∀ v, Passes (anywhere Conversion.storageClause) none u (')' :: v) :=
      fun v => Conversion.passes_storageClause hu none
    have hclause : replaceFirst (anywhere Conversion.storageClause) ");".toList
        (tableText q table ls (endingOf e storage)) = tableText q table ls [';'] := by
      rw [htext]
      cases e with
      | sqlite =>
        have hnone : find (anywhere Conversion.storageClause) none (u ++ ')' :: [';']) = none :=
          (find_append (hpass _)).trans rfl
        have hno : occurs (anywhere Conversion.storageClause) (u ++ ')' :: endingOf .sqlite storage) = false := by
          rw [occurs, endingOf, hnone]
          rfl
        rw [replaceFirst_of_not_occurs hno, htext, endingOf]
      | mysql =>
        have hbare : storage.IsBare := by
          rcases he with he | ⟨-, h⟩
          · cases he
          · exact h
        have hfind := find_of_reads (hpass (endingOf .mysql storage))
          (storageClause_endingOf hbare) (by simp)
        rw [replaceFirst, hfind, htext]
        simp
    rw [Conversion.requoted, hclause]
    exact hreq

end

end SchemaDialects
