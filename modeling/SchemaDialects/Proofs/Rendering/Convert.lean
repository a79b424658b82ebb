import SchemaDialects.Proofs.Definition.Trailing
import SchemaDialects.Proofs.Rendering.Table
import SchemaDialects.Proofs.Script.Body

/-!
# Converting tables of plain lines

A table of plain lines is converted line by line: the output is the table of the
lines that are kept, in the target dialect's quotes and with its ending.
-/

namespace SchemaDialects

open Text Definition Script
open Dialect (isMarkerChar markerWords)

/-! ## The statement -/

theorem last_endingOf (e : Dialect) (storage : Storage) :
    (endingOf e storage).getLast? = some ';' := by
  cases e with
  | mysql => rw [endingOf, List.getLast?_append]; rfl
  | sqlite => rfl

theorem last_tableText (q : Char) (table : Text) (ls : List TableLine) (e : Dialect)
    (storage : Storage) : (tableText q table ls (endingOf e storage)).getLast? = some ';' := by
  rw [tableText, laidOut, List.getLast?_append, List.getLast?_cons, List.getLast?_cons,
    last_endingOf]
  rfl

theorem tableText_cons (q : Char) (table : Text) (ls : List TableLine) (ending : Text) :
    ∃ s, tableText q table ls ending = "CREATE TABLE ".toList ++ q :: s := by
  refine ⟨table ++ [q] ++ " (".toList
    ++ '\n' :: ("  ".toList ++ join ",\n  ".toList (ls.map (TableLine.text q))) ++ '\n' :: ')' :: ending, ?_⟩
  simp [tableText, laidOut, tableHeader_eq, quotedName]

section
variable (q : Char) (table : Text) (ls : List TableLine) (e : Dialect) (storage : Storage)

theorem exists_start_tableText : ∃ s, s ≠ [] ∧ s.getLast?.any isBlank = false ∧
    tableText q table ls (endingOf e storage) = "CREATE TABLE ".toList ++ s := by
  obtain ⟨s, hs⟩ := tableText_cons q table ls (endingOf e storage)
  have hlast := last_tableText q table ls e storage
  rw [hs, List.getLast?_append_of_ne_nil _ (List.cons_ne_nil q s)] at hlast
  exact ⟨q :: s, List.cons_ne_nil q s, by rw [hlast]; rfl, hs⟩

theorem body_tableText :
    Script.body (tableText q table ls (endingOf e storage))
      = tableText q table ls (endingOf e storage) := by
  obtain ⟨s, hne, hlast, hs⟩ := exists_start_tableText q table ls e storage
  rw [hs]
  exact Script.body_start hlast hne

theorem isPlainCreateTable_tableText :
    Script.isPlainCreateTable (tableText q table ls (endingOf e storage)) = true := by
  obtain ⟨s, hne, hlast, hs⟩ := exists_start_tableText q table ls e storage
  rw [hs]
  exact Script.isPlainCreateTable_start hlast hne

end

/-! ## The header -/

theorem isNameChar_of_isMarkerChar {c : Char} (h : isMarkerChar c = true) :
    isNameChar "(".toList c = true :=
  forall_ascii (p := fun c => isMarkerChar c = true → isNameChar "(".toList c = true)
    (by decide) (lt_of_isMarkerChar h) h

theorem isNameChar_of_isBareIdentifier {s : Text} (h : Settings.isBareIdentifier s = true) :
    ∀ c ∈ s, isNameChar "(".toList c = true :=
  fun c hc => isNameChar_of_isMarkerChar ((chars_of_isBareIdentifier h).2 c hc)

theorem last_tableHeader (q : Char) (table : Text) : (tableHeader q table).getLast? = some '(' := by
  rw [tableHeader_eq, List.getLast?_append]
  rfl

section
variable {q : Char} (hq : isNameQuote q = true) {table : Text}
variable (h : ∀ x ∈ table, isNameChar "(".toList x = true)
include hq h

theorem ne_of_mem_tableHeader : ∀ c ∈ "CREATE TABLE ".toList ++ quotedName q table ++ [' '],
    c ≠ '\n' ∧ c ≠ '(' := by
  have hstart : ∀ c ∈ "CREATE TABLE ".toList, c ≠ '\n' ∧ c ≠ '(' := by decide
  have hquote : q ≠ '\n' ∧ q ≠ '(' := by rcases eq_of_isNameQuote hq with rfl | rfl <;> decide
  have htable : ∀ c ∈ table, c ≠ '\n' ∧ c ≠ '(' := by
    intro c hc
    have hname := h c hc
    constructor <;> rintro rfl <;> exact absurd hname (by decide)
  have hname : ∀ c ∈ quotedName q table, c ≠ '\n' ∧ c ≠ '(' :=
    forall_mem_quotedName hquote htable
  exact List.forall_mem_append.2 ⟨List.forall_mem_append.2 ⟨hstart, hname⟩, by decide⟩

omit hq h in
theorem tableHeader_split :
    tableHeader q table = ("CREATE TABLE ".toList ++ quotedName q table ++ [' ']) ++ ['('] :=
  (List.append_assoc _ [' '] ['(']).symm

theorem isLine_tableHeader : IsLine (tableHeader q table) where
  ne_nil := fun hnil => by
    have hlast := last_tableHeader q table
    rw [hnil] at hlast
    cases hlast
  no_break := fun hm => by
    rw [tableHeader_split] at hm
    rcases List.mem_append.1 hm with hm | hm
    · exact (ne_of_mem_tableHeader hq h _ hm).1 rfl
    · exact absurd hm (by decide)
  head := rfl
  last := by rw [last_tableHeader]; rfl
  no_comment := by
    have hmem : q ∉ table := by
      intro hm
      have hname := h q hm
      rcases eq_of_isNameQuote hq with rfl | rfl <;> simp [isNameChar] at hname
    have hdash : q ≠ '-' := by rcases eq_of_isNameQuote hq with rfl | rfl <;> decide
    have hopen : quoteAfter none q = some q := by
      rcases eq_of_isNameQuote hq with rfl | rfl <;> rfl
    have hend : beforeComment none " (".toList = none := rfl
    rw [tableHeader_eq, List.append_assoc, beforeComment_unquoted (by decide), quotedName,
      List.cons_append, List.append_assoc, beforeComment_cons, if_neg fun hd => hdash hd.2.1, hopen,
      List.singleton_append, beforeComment_inQuotes hmem, hend]
    rfl

theorem not_crowded_tableHeader : trim (((tableHeader q table).dropWhile (· != '(')).drop 1) = [] := by
  have hpos : ∀ c ∈ "CREATE TABLE ".toList ++ quotedName q table ++ [' '], (c != '(') = true :=
    fun c hc => bne_iff_ne.2 (ne_of_mem_tableHeader hq h c hc).2
  rw [tableHeader_split, List.dropWhile_append_of_pos hpos]
  rfl

end

/-! ## The layout -/

section
variable {q : Char} (hq : isNameQuote q = true) {table : Text}
variable (hb : Settings.isBareIdentifier table = true)
variable {ls : List TableLine} (hl : ∀ l ∈ ls, l.IsPlain) (hne : ls ≠ [])
include hq hb hl hne

theorem layout_tableText (d : Direction) (e : Dialect) (storage : Storage)
    (he : e = .sqlite ∨ (d = .mysqlToSqlite ∧ storage.IsBare)) :
    Conversion.layout d (tableText q table ls (endingOf e storage))
      = ⟨tableHeader d.target.quoteChar table, ls.map (TableLine.text d.target.quoteChar),
          some (content (")".toList ++ ";".toList))⟩ := by
  have hq' : isNameQuote d.target.quoteChar = true := by cases d <;> rfl
  have hdefs : ∀ t ∈ ls.map (TableLine.text d.target.quoteChar), IsDefinition t := by
    intro t ht
    obtain ⟨l, hm, rfl⟩ := List.mem_map.1 ht
    exact TableLine.isDefinition_text hq' (hl l hm)
  have hne' : ls.map (TableLine.text d.target.quoteChar) ≠ [] := by simpa using hne
  rw [Conversion.layout, body_tableText, requoted_tableText hq hb hl d e storage he, tableText]
  exact ofLines_laidOut (isLine_tableHeader hq' (isNameChar_of_isBareIdentifier hb)) hdefs hne' (by decide)

end

/-! ## The output -/

theorem assemble_lines (q : Char) (table : Text) {ls : List TableLine} (hne : ls ≠ [])
    (ending : Text) :
    Conversion.assemble (tableHeader q table) (ls.map (TableLine.text q)) true ++ ending
      = tableText q table ls ending := by
  have hne' : ls.map (TableLine.text q) ≠ [] := by simpa using hne
  rw [Conversion.assemble, if_neg hne', tableText, laidOut]
  simp

theorem finish_assemble (c : Conversion) (q : Char) (table : Text) {ls : List TableLine}
    (hne : ls ≠ []) :
    c.finish (Conversion.assemble (tableHeader q table) (ls.map (TableLine.text q)) true)
      = tableText q table ls (endingOf c.direction.target c.storage) := by
  obtain ⟨out, hout⟩ : ∃ out,
      out = Conversion.assemble (tableHeader q table) (ls.map (TableLine.text q)) true := ⟨_, rfl⟩
  have hlast : out.getLast? = some ')' := by
    rw [hout, Conversion.assemble, List.getLast?_append]
    rfl
  have hsemi : dropEndWhile (· == ';') out = out := dropEndWhile_eq_self (by rw [hlast]; rfl)
  have htrim : trimEnd out = out := trimEnd_eq_self (by rw [hlast]; rfl)
  rw [← assemble_lines q table hne, ← hout, Conversion.finish]
  cases c.direction with
  | mysqlToSqlite =>
    have hends : endsWith out ';' = false := by rw [endsWith, hlast]; rfl
    simp only [hends]
    rfl
  | sqliteToMysql =>
    simp only [hsemi, htrim]
    simp [endingOf, Direction.target]

/-- The lines that are kept are the lines of the output. -/
theorem value_statement_tableText {c : Conversion} (hc : c.strict = false) {q : Char}
    (hq : isNameQuote q = true) {table : Text} (hb : Settings.isBareIdentifier table = true)
    {ls : List TableLine} (hl : ∀ l ∈ ls, l.IsPlain) (hne : ls ≠ []) {e : Dialect}
    {storage : Storage} (he : e = .sqlite ∨ (c.direction = .mysqlToSqlite ∧ storage.IsBare))
    {ls' : List TableLine} (hne' : ls' ≠ [])
    (hkept : Conversion.keptLines ((ls.map (TableLine.text c.direction.target.quoteChar)).map
        (convert c.types c.direction none))
      = ls'.map (TableLine.text c.direction.target.quoteChar)) :
    (c.statement (tableText q table ls (endingOf e storage))).value
      = .ok (tableText c.direction.target.quoteChar table ls'
          (endingOf c.direction.target c.storage)) := by
  have hlayout := layout_tableText hq hb hl hne c.direction e storage he
  have hq' : isNameQuote c.direction.target.quoteChar = true := by cases c.direction <;> rfl
  have hcrowd : (Conversion.layout c.direction (tableText q table ls (endingOf e storage))).isCrowded
      = false := by
    rw [hlayout, Layout.isCrowded, not_crowded_tableHeader hq' (isNameChar_of_isBareIdentifier hb)]
    rfl
  have hplain : Script.isPlainCreateTable (Script.body (tableText q table ls (endingOf e storage)))
      = true := by
    rw [body_tableText]
    exact isPlainCreateTable_tableText q table ls e storage
  have hloss : ∀ t? l, c.firstLoss? t? l = none := by
    intro t? l
    rw [Conversion.firstLoss?, hc]
    rfl
  rw [Conversion.value_statement, if_pos ⟨hplain, hcrowd⟩, hloss, hlayout, Conversion.output,
    Conversion.outcomes, hkept]
  exact congrArg Except.ok (finish_assemble c _ table hne')

end SchemaDialects
