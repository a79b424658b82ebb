import Mathlib.Data.List.Forall2
import SchemaDialects.Proofs.Rendering.Lines

/-!
# Which lines are kept

The lines of a table that a conversion keeps. Every line is converted on its own.
Without a marker all of them are kept. A column that got the key phrase makes the
key clause over it alone redundant.
-/

namespace SchemaDialects

open Text Definition

/-- The line `l` is converted to `l'`, and `auto?` is the column that got the key
phrase. -/
def TableLine.ConvertsTo (m : TypeMap) (d : Direction) (l l' : TableLine) (auto? : Option Text) :
    Prop :=
  (convert m d none (l.text d.target.quoteChar)).line? = some (l'.text d.target.quoteChar)
    ∧ (convert m d none (l.text d.target.quoteChar)).autoColumn? = auto?

theorem isNameQuote_quoteChar (d : Dialect) : isNameQuote d.quoteChar = true := by cases d <;> rfl

namespace Column

/-- A column with its type converted. -/
def retyped (m : TypeMap) (d : Direction) (c : Column) : Column :=
  { c with declaredType := m.target d c.declaredType }

section
variable {d : Direction} {c : Column} (hc : c.IsPlain d.source) (m : TypeMap)
include hc

theorem convertsTo_line {key : List Text}
    (hk : ∀ t ∈ key, IsAtom t ∧ Avoids (searchedWords d) t) :
    TableLine.ConvertsTo m d (c.line key) ((c.retyped m d).line key) none := by
  have hall : ∀ t ∈ c.attributes ++ key, IsAtom t ∧ Avoids (searchedWords d) t := by
    intro t ht
    rcases List.mem_append.1 ht with ht | ht
    · exact (hc.attributes t ht).imp_right (·.mono (searchedWords_subset d))
    · exact hk t ht
  exact convert_columnLine (isNameQuote_quoteChar _) hc.name m d none hc.type
    (fun t ht => (hall t ht).1) fun t ht => (hall t ht).2

/-- The marker may stand before `PRIMARY KEY`, after it, or without it. -/
theorem convertsTo_marked {as bs : List Text}
    (hab : as ++ bs = [] ∨ as ++ bs = ["PRIMARY".toList, "KEY".toList]) :
    TableLine.ConvertsTo m d (c.line (as ++ d.source.marker :: bs))
      ((c.retyped m d).line (phraseParts d)) (some c.name) := by
  have := convert_marked (isNameQuote_quoteChar d.target) hc.name m d none hc.type
    (fun t ht => (hc.attributes t ht).1) (fun t ht => (hc.attributes t ht).2) hab
  rwa [List.cons_append, List.cons_append] at this

end

end Column

theorem TableLine.convertsTo_key (m : TypeMap) (d : Direction) {names : List Text}
    (hn : ∀ n ∈ names, IsPlainName n) : ConvertsTo m d (.key names) (.key names) none :=
  convert_keyLine (isNameQuote_quoteChar _) hn m d none

/-! ## Kept lines -/

section
variable {m : TypeMap} {d : Direction}

/-- The outcomes of the lines of a table. -/
def lineOutcomes (m : TypeMap) (d : Direction) (ls : List TableLine) : List Outcome :=
  (ls.map (TableLine.text d.target.quoteChar)).map (convert m d none)

theorem lineOutcomes_append (ls rs : List TableLine) :
    lineOutcomes m d (ls ++ rs) = lineOutcomes m d ls ++ lineOutcomes m d rs := by
  simp [lineOutcomes]

theorem line?_lineOutcomes {ls ls' : List TableLine}
    (h : List.Forall₂ (fun l l' => ∃ auto?, TableLine.ConvertsTo m d l l' auto?) ls ls') :
    (lineOutcomes m d ls).filterMap Outcome.line?
      = ls'.map (TableLine.text d.target.quoteChar) := by
  induction h with
  | nil => rfl
  | cons hl _ ih =>
    obtain ⟨-, hl, -⟩ := hl
    rw [lineOutcomes, List.map_cons, List.map_cons, List.filterMap_cons_some hl, List.map_cons]
    exact congrArg _ ih

theorem autoColumn?_lineOutcomes {ls ls' : List TableLine}
    (h : List.Forall₂ (fun l l' => TableLine.ConvertsTo m d l l' none) ls ls') :
    (lineOutcomes m d ls).findSome? Outcome.autoColumn? = none := by
  induction h with
  | nil => rfl
  | cons hl _ ih =>
    rw [lineOutcomes, List.map_cons, List.map_cons, List.findSome?_cons, hl.2]
    exact ih

theorem keptLines_of_unmarked {ls ls' : List TableLine}
    (h : List.Forall₂ (fun l l' => TableLine.ConvertsTo m d l l' none) ls ls') :
    Conversion.keptLines (lineOutcomes m d ls) = ls'.map (TableLine.text d.target.quoteChar) := by
  rw [Conversion.keptLines, autoColumn?_lineOutcomes h]
  exact line?_lineOutcomes (h.imp fun _ _ hl => ⟨none, hl⟩)

/-- The first marked line decides which key clause is redundant. -/
theorem keptLines_of_marked {ls ls' rs rs' : List TableLine} {l l' : TableLine} {auto : Text}
    (hls : List.Forall₂ (fun l l' => TableLine.ConvertsTo m d l l' none) ls ls')
    (hl : TableLine.ConvertsTo m d l l' (some auto))
    (hrs : List.Forall₂ (fun l l' => ∃ auto?, TableLine.ConvertsTo m d l l' auto?) rs rs') :
    Conversion.keptLines (lineOutcomes m d (ls ++ l :: rs))
      = eraseLast (isSoleKeyOf auto) ((ls' ++ l' :: rs').map (TableLine.text d.target.quoteChar)) := by
  have hall : List.Forall₂ (fun l l' => ∃ auto?, TableLine.ConvertsTo m d l l' auto?)
      (ls ++ l :: rs) (ls' ++ l' :: rs') :=
    List.rel_append (hls.imp fun _ _ h => ⟨none, h⟩) (.cons ⟨_, hl⟩ hrs)
  have hauto : (lineOutcomes m d (ls ++ l :: rs)).findSome? Outcome.autoColumn? = some auto := by
    rw [lineOutcomes_append, List.findSome?_append, autoColumn?_lineOutcomes hls, Option.none_or,
      lineOutcomes, List.map_cons, List.map_cons, List.findSome?_cons, hl.2]
  rw [Conversion.keptLines, hauto, line?_lineOutcomes hall]

end

/-! ## Redundant key clauses -/

theorem isSoleKeyOf_text (d : Dialect) (auto name : Text) (parts : List Text) :
    isSoleKeyOf auto ((TableLine.column name parts).text d.quoteChar) = false :=
  isSoleKeyOf_columnLine (isNameQuote_quoteChar d) auto name parts

theorem eraseLast_columns (d : Dialect) (auto : Text) {ls : List TableLine}
    (h : ∀ l ∈ ls, ∃ name parts, l = .column name parts) :
    eraseLast (isSoleKeyOf auto) (ls.map (TableLine.text d.quoteChar))
      = ls.map (TableLine.text d.quoteChar) := by
  refine Conversion.eraseLast_of_not_any ?_
  rw [List.any_map, List.any_eq_false]
  intro l hl
  obtain ⟨name, parts, rfl⟩ := h l hl
  simp [isSoleKeyOf_text]

theorem eraseLast_key (d : Dialect) {auto : Text} (hn : IsPlainName auto) (ls : List TableLine) :
    eraseLast (isSoleKeyOf auto) ((ls ++ [TableLine.key [auto]]).map (TableLine.text d.quoteChar))
      = ls.map (TableLine.text d.quoteChar) := by
  have hk : isSoleKeyOf auto ((TableLine.key [auto]).text d.quoteChar) = true :=
    isSoleKeyOf_keyLine (isNameQuote_quoteChar d) hn
  rw [eraseLast, List.map_append, List.map_singleton, List.reverse_append, List.reverse_singleton,
    List.singleton_append, List.eraseP_cons_of_pos hk, List.reverse_reverse]

/-! ## Tables of columns -/

def columnLines (cs : List Column) : List TableLine := cs.map fun c => c.line []

/-- The lines of a table whose column `k` declares the key. -/
def inlineLines (pre : List Column) (k : Column) (post : List Column) (key : List Text) :
    List TableLine :=
  columnLines pre ++ k.line key :: columnLines post

section
variable {d : Dialect} {cs pre post : List Column} {k : Column}

theorem isPlain_columnLines (hc : ∀ c ∈ cs, c.IsPlain d) : ∀ l ∈ columnLines cs, l.IsPlain := by
  intro l hl
  obtain ⟨c, hm, rfl⟩ := List.mem_map.1 hl
  exact (hc c hm).line (by simp)

theorem isPlain_inlineLines (hc : ∀ c ∈ pre ++ k :: post, c.IsPlain d) {key : List Text}
    (hk : ∀ t ∈ key, IsAtom t) : ∀ l ∈ inlineLines pre k post key, l.IsPlain := by
  intro l hl
  rcases List.mem_append.1 hl with hl | hl
  · exact isPlain_columnLines (fun c hm => hc c (List.mem_append_left _ hm)) l hl
  · rcases List.mem_cons.1 hl with rfl | hl
    · exact (hc k (by simp)).line hk
    · refine isPlain_columnLines (fun c hm => hc c ?_) l hl
      exact List.mem_append_right _ (List.mem_cons_of_mem _ hm)

end

section
variable {m : TypeMap} {d : Direction} {cs pre post : List Column} {k : Column}

theorem convertsTo_columnLines (hc : ∀ c ∈ cs, c.IsPlain d.source) :
    List.Forall₂ (fun l l' => TableLine.ConvertsTo m d l l' none)
      (columnLines cs) (columnLines (cs.map (·.retyped m d))) := by
  rw [columnLines, columnLines, List.map_map, List.forall₂_map_left_iff, List.forall₂_map_right_iff,
    List.forall₂_same]
  exact fun c hm => Column.convertsTo_line (hc c hm) m (by simp)

theorem convertsTo_keyLines (hn : ∀ c ∈ cs, IsPlainName c.name) :
    List.Forall₂ (fun l l' => TableLine.ConvertsTo m d l l' none)
      (Renderer.keyLines cs) (Renderer.keyLines cs) := by
  rw [List.forall₂_same, Renderer.keyLines]
  intro l hl
  split at hl
  · cases hl
  · rw [List.mem_singleton.1 hl]
    refine TableLine.convertsTo_key _ _ fun n hm => ?_
    obtain ⟨k, hk, rfl⟩ := List.mem_map.1 hm
    exact hn k (List.mem_filter.1 hk).1

theorem keptLines_of_sole (m : TypeMap) (hc : ∀ c ∈ pre ++ k :: post, c.IsPlain d.source)
    (as bs : List Text) (hab : as ++ bs = [] ∨ as ++ bs = ["PRIMARY".toList, "KEY".toList])
    {rest rest' : List TableLine}
    (hr : List.Forall₂ (fun l l' => ∃ auto?, TableLine.ConvertsTo m d l l' auto?) rest rest') :
    Conversion.keptLines (lineOutcomes m d
        (inlineLines pre k post (as ++ d.source.marker :: bs) ++ rest))
      = eraseLast (isSoleKeyOf k.name)
          ((inlineLines (pre.map (·.retyped m d)) (k.retyped m d) (post.map (·.retyped m d))
            (phraseParts d) ++ rest').map (TableLine.text d.target.quoteChar)) := by
  have hpre := convertsTo_columnLines (m := m) fun c hm => hc c (List.mem_append_left _ hm)
  have hpost := convertsTo_columnLines (m := m) fun c hm =>
    hc c (List.mem_append_right _ (List.mem_cons_of_mem _ hm))
  have hk := Column.convertsTo_marked (hc k (by simp)) m hab
  rw [inlineLines, inlineLines, List.append_assoc, List.append_assoc, List.cons_append,
    List.cons_append]
  exact keptLines_of_marked hpre hk (List.rel_append (hpost.imp fun _ _ h => ⟨none, h⟩) hr)

end

/-! ## Statements -/

section
variable {c : Conversion} (hc : c.strict = false) {q : Char} (hq : isNameQuote q = true)
variable {table : Text} (hb : Settings.isBareIdentifier table = true) {e : Dialect}
variable (storage : Storage) (he : e = .sqlite ∨ (c.direction = .mysqlToSqlite ∧ storage.IsBare))
include hc hq hb he

theorem statement_of_lines {ls ls' : List TableLine} (hl : ∀ l ∈ ls, l.IsPlain) (hne : ls ≠ [])
    (h : List.Forall₂ (fun l l' => TableLine.ConvertsTo c.types c.direction l l' none) ls ls') :
    (c.statement (tableText q table ls (endingOf e storage))).value
      = .ok (tableText c.direction.target.quoteChar table ls'
          (endingOf c.direction.target c.storage)) := by
  have hne' : ls' ≠ [] := by
    rintro rfl
    exact hne (List.forall₂_nil_right_iff.1 h)
  exact value_statement_tableText hc hq hb hl hne he hne' (keptLines_of_unmarked h)

/-- Where a column declares the key with the source dialect's marker before or
after `PRIMARY KEY`, it declares it with the target dialect's phrase. -/
theorem statement_of_inline {pre post : List Column} {k : Column}
    (hp : ∀ x ∈ pre ++ k :: post, x.IsPlain c.direction.source) (as bs : List Text)
    (hab : as ++ bs = ["PRIMARY".toList, "KEY".toList]) :
    (c.statement (tableText q table (inlineLines pre k post (as ++ c.direction.source.marker :: bs))
        (endingOf e storage))).value
      = .ok (tableText c.direction.target.quoteChar table
          (inlineLines (pre.map (·.retyped c.types c.direction)) (k.retyped c.types c.direction)
            (post.map (·.retyped c.types c.direction)) (phraseParts c.direction))
          (endingOf c.direction.target c.storage)) := by
  have hkey : ∀ t ∈ as ++ c.direction.source.marker :: bs, IsAtom t := by
    have hparts : ∀ t ∈ as ++ bs, IsAtom t := by
      rw [hab]
      exact List.forall_mem_cons.2 ⟨isAtom_primary, List.forall_mem_singleton.2 isAtom_key⟩
    intro t ht
    rcases List.mem_append.1 ht with ht | ht
    · exact hparts t (List.mem_append_left _ ht)
    · rcases List.mem_cons.1 ht with rfl | ht
      · exact isAtom_marker _
      · exact hparts t (List.mem_append_right _ ht)
  have hkept := keptLines_of_sole c.types hp as bs (Or.inr hab) List.Forall₂.nil
  rw [List.append_nil, List.append_nil] at hkept
  refine value_statement_tableText hc hq hb (isPlain_inlineLines hp hkey) (by simp [inlineLines]) he
    (by simp [inlineLines]) (hkept.trans (eraseLast_columns _ _ fun l hl => ?_))
  rcases List.mem_append.1 hl with hl | hl
  · obtain ⟨x, -, rfl⟩ := List.mem_map.1 hl
    exact ⟨_, _, rfl⟩
  · rcases List.mem_cons.1 hl with rfl | hl
    · exact ⟨_, _, rfl⟩
    · obtain ⟨x, -, rfl⟩ := List.mem_map.1 hl
      exact ⟨_, _, rfl⟩

end

end SchemaDialects
