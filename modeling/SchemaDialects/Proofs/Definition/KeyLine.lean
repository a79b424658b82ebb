import SchemaDialects.Definition.Convert
import SchemaDialects.Proofs.Definition.ColumnConvert

/-!
# The line of a key clause

A key clause over plain names is converted to itself. It is the sole key clause
of a column where it names that column only, and the line of a column is no key
clause.
-/

namespace SchemaDialects.Definition

open Text
open Dialect (isMarkerChar markerWords)

/-- Names in quotes with commas and blanks between them. -/
def nameList (q : Char) (names : List Text) : Text := join ", ".toList (names.map (quotedName q))

def keyLine (q : Char) (names : List Text) : Text :=
  "PRIMARY KEY".toList ++ ' ' :: '(' :: (nameList q names ++ [')'])

theorem keyLine_eq (q : Char) (names : List Text) :
    keyLine q names = "PRIMARY KEY".toList ++ ' ' :: '(' :: (nameList q names ++ [')']) :=
  rfl

/-! ## The names -/

theorem nameList_cons_cons (q : Char) (n n' : Text) (ns : List Text) :
    nameList q (n :: n' :: ns) = quotedName q n ++ ',' :: ' ' :: nameList q (n' :: ns) := by
  simp [nameList, join]

/-- In a list of names what follows a blank is a quote. -/
def AfterBlank (c d : Char) : Prop := isBlank c = true → d = '(' ∨ isNameQuote d = true

section
variable {q : Char} (hq : isNameQuote q = true) {names : List Text}
variable (hn : ∀ n ∈ names, IsPlainName n)
include hq hn

omit hq in
theorem forall_mem_nameList {p : Char → Prop} (hpq : p q) (hs : p ' ') (hc : p ',')
    (hw : ∀ c, isMarkerChar c = true → p c) : ∀ c ∈ nameList q names, p c := by
  refine forall_mem_join (by simpa using ⟨hc, hs⟩) fun s hm => ?_
  obtain ⟨n, hmem, rfl⟩ := List.mem_map.1 hm
  exact forall_mem_quotedName hpq fun c hc => hw c ((hn n hmem).chars c hc)

theorem afterBlank_nameList : (nameList q names).IsChain AfterBlank := by
  have hword : ∀ {s : Text}, (∀ c ∈ s, isBlank c = false) → s.IsChain AfterBlank := by
    intro s hs
    induction s with
    | nil => exact List.isChain_nil
    | cons c s ih =>
      refine List.isChain_cons.2 ⟨fun d _ hb => ?_, ih fun d hd => hs d (by simp [hd])⟩
      rw [hs c (by simp)] at hb
      cases hb
  induction names with
  | nil => exact List.isChain_nil
  | cons n ns ih =>
    have hname := hword (not_blank_of_mem_name hq (hn n (by simp)))
    cases ns with
    | nil => simpa [nameList, join] using hname
    | cons n' ns =>
      have ih := ih fun m hm => hn m (by simp [hm])
      have hhead : (nameList q (n' :: ns)).head? = some q := by
        cases ns <;> simp [nameList, join, quotedName]
      rw [nameList_cons_cons]
      refine List.IsChain.append hname ?_ fun c hc _ _ hb => ?_
      · refine List.isChain_cons.2 ⟨fun d _ hb => absurd hb (by decide), ?_⟩
        refine List.isChain_cons.2 ⟨fun d hd _ => ?_, ih⟩
        rw [hhead] at hd
        exact Or.inr (Option.some.inj hd ▸ hq)
      · have := not_blank_of_mem_name hq (hn n (by simp)) c (List.mem_of_getLast? hc)
        rw [this] at hb
        cases hb

theorem avoids_nameList {ks : List Text} (hk : [] ∉ ks) (hw : ∀ n ∈ names, upper n ∉ ks) :
    Avoids ks (nameList q names) := by
  have hempty : Avoids ks [] := by
    intro k hm
    rw [show markerWords (upper []) = [[]] from rfl, List.mem_singleton]
    rintro rfl
    exact hk hm
  have hqm : isMarkerChar q.toUpper = false := by
    rcases eq_of_isNameQuote hq with rfl | rfl <;> decide
  induction names with
  | nil => exact hempty
  | cons n ns ih =>
    have hname : Avoids ks (quotedName q n) :=
      Avoids.cons hqm hk
        (Avoids.append_cons hqm (Avoids.of_word (hn n (by simp)).chars (hw n (by simp))) hempty)
    cases ns with
    | nil => simpa [nameList, join] using hname
    | cons n' ns =>
      have ih := ih (fun m hm => hn m (by simp [hm])) fun m hm => hw m (by simp [hm])
      rw [nameList_cons_cons]
      exact Avoids.append_cons (by decide) hname (Avoids.cons (by decide) hk ih)

omit hq hn in
theorem last_nameList (hne : names ≠ []) : (nameList q names).getLast? = some q := by
  induction names with
  | nil => exact absurd rfl hne
  | cons n ns ih =>
    cases ns with
    | nil => simp [nameList, join, quotedName, List.getLast?_cons]
    | cons n' ns =>
      have ih := ih (by simp)
      rw [nameList_cons_cons, List.getLast?_append, List.getLast?_cons, List.getLast?_cons, ih]
      rfl

/-! ## The clause -/

theorem isAscii_keyLine_tail : IsAscii (' ' :: '(' :: (nameList q names ++ [')'])) := by
  have hqa : q.toNat < 128 := by rcases eq_of_isNameQuote hq with rfl | rfl <;> decide
  have := forall_mem_nameList hn hqa (by decide) (by decide) fun c hc => lt_of_isMarkerChar hc
  exact IsAscii.cons (by decide) (IsAscii.cons (by decide) (IsAscii.append this (by decide)))

theorem afterBlank_keyLine_tail : (' ' :: '(' :: (nameList q names ++ [')'])).IsChain AfterBlank := by
  have hlist : (nameList q names ++ [')']).IsChain AfterBlank := by
    refine List.IsChain.append (afterBlank_nameList hq hn) (List.isChain_singleton _) ?_
    intro c hc _ _ hb
    by_cases hne : names = []
    · subst hne
      cases hc
    · rw [last_nameList hne] at hc
      obtain rfl := Option.some.inj hc
      rcases eq_of_isNameQuote hq with rfl | rfl
      · exact absurd hb (by decide)
      · exact absurd hb (by decide)
  refine List.isChain_cons.2 ⟨fun d hd _ => ?_, List.isChain_cons.2 ⟨fun d _ hb => ?_, hlist⟩⟩
  · exact Or.inl (Option.some.inj hd).symm
  · exact absurd hb (by decide)

end

theorem keywordEnd_of_afterBlank {k : Text} (hk : k ∈ attributeWords) {c : Char}
    (hc : c = '(' ∨ isNameQuote c = true) (s : Text) : keywordEnd k (c :: s) = none := by
  have hfold : ∀ k ∈ attributeWords, k ≠ [] ∧ ∀ x ∈ k,
      foldsTo x '(' = false ∧ foldsTo x '`' = false ∧ foldsTo x '"' = false := by decide
  obtain ⟨hne, hx⟩ := hfold k hk
  obtain ⟨x, w, rfl⟩ := List.exists_cons_of_ne_nil hne
  obtain ⟨hparen, htick, hdouble⟩ := hx x (by simp)
  have hf : foldsTo x c = false := by
    rcases hc with rfl | hc
    · exact hparen
    · rcases eq_of_isNameQuote hc with rfl | rfl
      · exact htick
      · exact hdouble
  rw [keywordEnd, keyword_of_head hf]
  rfl

/-- Attributes start with a word after a blank, and there are none where a
parenthesis or a quote follows every blank. -/
theorem passes_of_afterBlank {f : Scanner} (hf : ReadsAttribute attributeWords f) {s : Text}
    (hs : s.IsChain AfterBlank) (hl : s.getLast?.any isBlank = false) (prev : Option Char) :
    Passes (anywhere f) prev s [] := by
  intro a b hab hne
  refine Option.eq_none_iff_forall_ne_some.2 fun r hr => ?_
  obtain ⟨c, b, rfl⟩ := List.exists_cons_of_ne_nil hne
  obtain ⟨hb, k, hk, hkw⟩ := hf hr
  have hc : isBlank c = true := by simpa using hb
  cases b with
  | nil =>
    rw [hab, List.getLast?_append] at hl
    simp [hc] at hl
  | cons d b =>
    rw [hab] at hs
    have hd := (List.isChain_cons.1 (List.isChain_append.1 hs).2.1).1 d rfl hc
    have hdb : isBlank d = false := by
      rcases hd with rfl | hd
      · decide
      · rcases eq_of_isNameQuote hd with rfl | rfl <;> decide
    have hblanks : blanks (c :: d :: b ++ []) = d :: b := by
      rw [List.append_nil, blanks, trimStart, List.dropWhile_cons_of_pos hc,
        List.dropWhile_cons_of_neg (by simp [hdb])]
    rw [hblanks, keywordEnd_of_afterBlank hk hd] at hkw
    cases hkw

section
variable {q : Char} (hq : isNameQuote q = true) {names : List Text}
variable (hn : ∀ n ∈ names, IsPlainName n)
include hq hn

theorem passes_attribute_keyLine {f : Scanner} (hf : ReadsAttribute attributeWords f)
    (prev : Option Char) : Passes (anywhere f) prev (keyLine q names) [] := by
  have hends : wordEnds (' ' :: '(' :: (nameList q names ++ [')']) ++ []) = true := by
    simp [wordEnds, not_isWord_of_isBlank (c := ' ') (by decide)]
  have hascii := isAscii_keyLine_tail hq hn
  rw [← List.append_nil (' ' :: _)] at hascii
  refine Passes.append ?_ (passes_of_afterBlank hf (afterBlank_keyLine_tail hq hn) ?_ _)
  · refine hf.startsWith.passes (by decide) (by decide) hascii ?_ (by decide) hends prev
    have hwords : ∀ k ∈ attributeWords, k ∉ markerWords (upper "PRIMARY KEY".toList) := by decide
    exact hwords
  · have hparen : isBlank ')' = false := by decide
    simp [List.getLast?_cons, hparen]

theorem passes_marker_keyLine (d : Dialect) (prev : Option Char) :
    Passes (spacedMarker d.marker) prev (keyLine q names) [] := by
  have hm : ∀ k ∈ [d.marker], ∀ c ∈ k, isMarkerChar c = true := by cases d <;> decide
  have hk : [] ∉ [d.marker] := by cases d <;> decide
  have hascii : IsAscii (keyLine q names) :=
    IsAscii.append (by decide) (isAscii_keyLine_tail hq hn)
  have hempty : Avoids [d.marker] [] := by cases d <;> (unfold Avoids; decide)
  have hkey : Avoids [d.marker] "PRIMARY KEY".toList := by cases d <;> (unfold Avoids; decide)
  have hlist : Avoids [d.marker] (nameList q names ++ ')' :: []) := by
    refine Avoids.append_cons (by decide) (avoids_nameList hq hn hk fun n hm => ?_) hempty
    rw [List.mem_singleton]
    exact (hn n hm).not_marker d
  have hline : Avoids [d.marker] (keyLine q names) := by
    rw [keyLine_eq]
    exact Avoids.append_cons (c := ' ') (by decide) hkey (Avoids.cons (by decide) hk hlist)
  refine (startsWith_spacedMarker d.marker).passes hm hascii isAscii_nil hline ?_ rfl prev
  · have hparen : isBlank ')' = false := by decide
    rw [keyLine_eq, List.getLast?_append]
    simp [List.getLast?_cons, hparen]

/-! ## Converting the clause -/

omit hn in
theorem exists_head_nameList :
    ∃ c s, (c = '`' ∨ c = '"' ∨ c = ')') ∧ nameList q names ++ [')'] = c :: s := by
  rcases names with _ | ⟨n, _ | ⟨n', ns⟩⟩
  · exact ⟨')', [], Or.inr (Or.inr rfl), rfl⟩
  · refine ⟨q, n ++ [q, ')'], ?_, by simp [nameList, join, quotedName]⟩
    exact (eq_of_isNameQuote hq).imp_right Or.inl
  · refine ⟨q, n ++ q :: ',' :: ' ' :: (nameList q (n' :: ns) ++ [')']), ?_,
      by simp [nameList_cons_cons, quotedName]⟩
    exact (eq_of_isNameQuote hq).imp_right Or.inl

omit hn in
/-- A list of names in parentheses is no size, since no digit follows the parenthesis. -/
theorem optional_size_nameList :
    Text.optional sizeAfterBlanks (' ' :: '(' :: (nameList q names ++ [')']))
      = ' ' :: '(' :: (nameList q names ++ [')']) := by
  have hfirst : many1 Text.isDigit (blanks (nameList q names ++ [')'])) = none := by
    obtain ⟨c, s, hc, hcs⟩ := exists_head_nameList hq
    have hcb : isBlank c = false := by rcases hc with rfl | rfl | rfl <;> decide
    have hcd : Text.isDigit c = false := by rcases hc with rfl | rfl | rfl <;> decide +kernel
    rw [hcs, blanks, trimStart_eq_self (by simpa using hcb), many1, if_neg (by simp [hcd])]
  have hnone : size ('(' :: (nameList q names ++ [')'])) = none := by simp [size, char, hfirst]
  have hblanks : blanks (' ' :: '(' :: (nameList q names ++ [')']))
      = '(' :: (nameList q names ++ [')']) := rfl
  rw [Text.optional, sizeAfterBlanks, hblanks, hnone, Option.getD_none]

omit hn in
/-- The first typed name of a key clause is no column: `KEY` is no type. -/
theorem typedName?_keyLine :
    ∃ rest, typedName? (keyLine q names)
      = some ([], ⟨"PRIMARY".toList, " ".toList, "KEY".toList, [], rest⟩) := by
  have hsize := @optional_size_nameList q hq names
  obtain ⟨tail, htail⟩ : ∃ tail, tail = ' ' :: '(' :: (nameList q names ++ [')']) := ⟨_, rfl⟩
  rw [← htail] at hsize
  have hs : keyLine q names = "PRIMARY".toList ++ (" ".toList ++ ("KEY".toList ++ tail)) := by
    simp [keyLine_eq, htail]
  have hname : read nameToken ("PRIMARY".toList ++ (" ".toList ++ ("KEY".toList ++ tail)))
      = some ("PRIMARY".toList, " ".toList ++ ("KEY".toList ++ tail)) := by
    have hword : ∀ c ∈ "PRIMARY".toList, isWord c = true := by
      have : ∀ c ∈ "PRIMARY".toList, isAsciiWord c = true := by decide
      exact fun c hc => isWord_of_ascii (this c hc)
    have hq1 : ∀ s, quotedBy '`' ("PRIMARY".toList ++ s) = none := fun s => rfl
    have hq2 : ∀ s, quotedBy '"' ("PRIMARY".toList ++ s) = none := fun s => rfl
    refine read_of_append ?_
    rw [nameToken, hq1, hq2]
    exact many1_append (by decide) hword (by simp [not_isWord_of_isBlank (c := ' ') (by decide)])
  have hgap : read blanks1 (" ".toList ++ ("KEY".toList ++ tail))
      = some (" ".toList, "KEY".toList ++ tail) := by
    refine read_of_append (many1_append (by decide) (by decide) ?_)
    have : isBlank 'K' = false := by decide
    simpa using this
  have hrun : run Char.isAlpha ("KEY".toList ++ tail) = some ("KEY".toList, tail) := by
    refine run_append (by decide) (by decide) ?_
    rw [htail]
    rfl
  refine ⟨tail, ?_⟩
  have hread : typedName (keyLine q names)
      = some ⟨"PRIMARY".toList, " ".toList, "KEY".toList, [], tail⟩ := by
    rw [hs, typedName, hname, Option.bind_eq_bind, Option.bind_some]
    simp only [hgap, Option.bind_some, hrun, hsize]
    have hbefore : before tail tail = [] := by simp [before]
    rw [hbefore]
  have hcons : keyLine q names = 'P' :: ("RIMARY KEY".toList ++ tail) := by
    simp [keyLine_eq, htail]
  rw [hcons] at hread ⊢
  rw [typedName?, find, anywhere, hread]

omit hn in
theorem line_convertType_keyLine (m : TypeMap) (d : Direction) (table : Option Text) :
    (convertType m d table (keyLine q names)).line = keyLine q names := by
  obtain ⟨rest, hr⟩ := typedName?_keyLine hq
  generalize ht : (⟨"PRIMARY".toList, " ".toList, "KEY".toList, [], rest⟩ : TypedName) = t at hr
  have hk : m.ofDeclared? d t.declaredType = none := by
    subst ht
    cases d <;> rfl
  rw [convertType_of_unknown hr hk]

theorem convert_keyLine (m : TypeMap) (d : Direction) (table : Option Text) :
    (convert m d table (keyLine q names)).line? = some (keyLine q names) ∧
      (convert m d table (keyLine q names)).autoColumn? = none := by
  have hnone : respellMarker d (keyLine q names) = none :=
    respellMarker_eq_none_iff.2 (occurs_eq_false (passes_marker_keyLine hq hn d.source none))
  have hcolumn : (convertColumn m d table (keyLine q names)).line? = some (keyLine q names) ∧
      (convertColumn m d table (keyLine q names)).autoColumn? = none := by
    rw [convertColumn, line_convertType_keyLine hq, hnone]
    exact ⟨rfl, rfl⟩
  cases d with
  | sqliteToMysql => exact hcolumn
  | mysqlToSqlite =>
    have hattr : withoutAttributes (keyLine q names) = keyLine q names :=
      withoutAttributes_eq_self fun hf =>
        eraseAll_of_not_occurs (occurs_eq_false (passes_attribute_keyLine hq hn hf none))
    have hindex : isInlineIndex (keyLine q names) = false := rfl
    have hunique : withoutUniqueName (keyLine q names) = keyLine q names := rfl
    rw [convert, if_neg (by simp [hindex]), hunique]
    simp only [hattr]
    exact hcolumn

theorem chars_keyLine :
    ∀ c ∈ keyLine q names, isMarkerChar c = true ∨ c ∈ [' ', '(', ')', ',', '`', '"'] := by
  have hq' : isMarkerChar q = true ∨ q ∈ [' ', '(', ')', ',', '`', '"'] := by
    rcases eq_of_isNameQuote hq with rfl | rfl
    · exact Or.inr (by simp)
    · exact Or.inr (by simp)
  have hlist : ∀ c ∈ nameList q names, isMarkerChar c = true ∨ c ∈ [' ', '(', ')', ',', '`', '"'] :=
    forall_mem_nameList hn hq' (by simp) (by simp) fun _ => Or.inl
  intro c hc
  simp only [keyLine_eq, List.mem_append, List.mem_cons, List.not_mem_nil, or_false] at hc
  rcases hc with hc | rfl | rfl | hc | rfl
  · revert c
    decide
  · exact Or.inr (by simp)
  · exact Or.inr (by simp)
  · exact hlist c hc
  · exact Or.inr (by simp)

theorem isDefinition_keyLine : IsDefinition (keyLine q names) := by
  have hdash : '-' ∉ keyLine q names := fun h => absurd (chars_keyLine hq hn _ h) (by decide)
  have hbreak : '\n' ∉ keyLine q names := fun h => absurd (chars_keyLine hq hn _ h) (by decide)
  have hlast : (keyLine q names).getLast? = some ')' := by
    rw [keyLine_eq, List.getLast?_append]
    simp [List.getLast?_cons]
  exact
    { ne_nil := by intro h; rw [h] at hlast; cases hlast
      no_break := hbreak
      head := rfl
      last := by rw [hlast]; rfl
      no_comment := beforeComment_of_noDashes (NoDashes.of_not_mem hdash) none
      no_comma := by rw [hlast]; decide
      not_closing := rfl }

end

/-! ## Sole key clauses -/

theorem chars_quotedName {q : Char} (hq : isNameQuote q = true) {name : Text}
    (hn : IsPlainName name) : ∀ c ∈ quotedName q name, c ≠ ')' ∧ c ≠ ',' := by
  have hquote : q ≠ ')' ∧ q ≠ ',' := by rcases eq_of_isNameQuote hq with rfl | rfl <;> decide
  refine forall_mem_quotedName hquote fun c hc => ?_
  have hchar := hn.chars c hc
  constructor <;> rintro rfl <;> exact absurd hchar (by decide)

theorem trim_quotedName {q : Char} (hq : isNameQuote q = true) {name : Text}
    (hn : IsPlainName name) : trim (quotedName q name) = quotedName q name := by
  have hblank := not_blank_of_mem_name hq hn
  refine trim_eq_self (hblank q (by simp [quotedName])) ?_
  cases h : (quotedName q name).getLast? with
  | none => rfl
  | some c => exact hblank c (List.mem_of_getLast? h)

theorem isSoleKeyOf_keyLine {q : Char} (hq : isNameQuote q = true) {name : Text}
    (hn : IsPlainName name) : isSoleKeyOf name (keyLine q [name]) = true := by
  obtain ⟨list, hlist⟩ : ∃ list, list = quotedName q name ++ [')'] := ⟨_, rfl⟩
  have hs : keyLine q [name] = "PRIMARY".toList ++ (" ".toList ++ ("KEY".toList ++ ' ' :: '(' :: list)) := by
    simp [keyLine_eq, nameList, join, hlist]
  have hfirst : keywordBlanks "PRIMARY".toList (keyLine q [name])
      = some ("KEY".toList ++ ' ' :: '(' :: list) := by
    have hgap : blanks1 (" ".toList ++ ("KEY".toList ++ ' ' :: '(' :: list))
        = some ("KEY".toList ++ ' ' :: '(' :: list) :=
      many1_append (by decide) (by decide) (by simp; decide)
    rw [hs, keywordBlanks, keyword_append (by decide), Option.bind_eq_bind, Option.bind_some, hgap]
  have hsecond : keyword "KEY".toList ("KEY".toList ++ ' ' :: '(' :: list) = some (' ' :: '(' :: list) :=
    keyword_append (by decide) _
  have hopen : char '(' (blanks (' ' :: '(' :: list)) = some list := rfl
  have hname := chars_quotedName hq hn
  have hpos : ∀ c ∈ quotedName q name, (c != ')') = true := fun c hc => by simpa using (hname c hc).1
  have hdrop : list.dropWhile (· != ')') = [')'] := by
    rw [hlist, List.dropWhile_append_of_pos hpos]
    rfl
  have htake : list.takeWhile (· != ')') = quotedName q name := by
    rw [hlist, List.takeWhile_append_of_pos hpos, List.takeWhile_cons_of_neg (by simp),
      List.append_nil]
  have hsplit : splitOn ',' (quotedName q name) = [quotedName q name] :=
    splitOn_of_not_mem fun hm => (hname _ hm).2 rfl
  have hcols : keyClauseColumns? (keyLine q [name]) = some [name] := by
    rw [keyClauseColumns?, hfirst, Option.bind_eq_bind, Option.bind_some, hsecond]
    simp only [Option.bind_some, hopen, hdrop, htake, hsplit, List.map_cons, List.map_nil,
      trim_quotedName hq hn, bareName_name hq hn, if_true]
  rw [isSoleKeyOf, hcols]
  simp

theorem isSoleKeyOf_columnLine {q : Char} (hq : isNameQuote q = true) (auto name : Text)
    (ts : List Text) : isSoleKeyOf auto (columnLine q name ts) = false := by
  have hk : keyClauseColumns? (columnLine q name ts) = none := by
    rcases eq_of_isNameQuote hq with rfl | rfl <;> rfl
  rw [isSoleKeyOf, hk]
  rfl

end SchemaDialects.Definition
