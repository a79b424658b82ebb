import SchemaDialects.Proofs.Definition.ColumnConvert
import SchemaDialects.Proofs.Definition.Rewriting

/-!
# The name at the start of a definition

A name that is one word, bare or between quotes, passes through the rewriting
of a line: nothing that is taken out or respelled starts inside it, unless it is
a keyword itself. A bare name has to end where a word can end, also after the
attributes are out.
-/

namespace SchemaDialects.Definition

open Text Dialect

/-- A name as it is spelled: bare, or between two quotes. -/
def spelled (quote? : Option Char) (name : Text) : Text :=
  match quote? with
  | none => name
  | some q => q :: (name ++ [q])

/-- What follows a spelled name. No word goes on behind a bare one. -/
def Ends (quote? : Option Char) (rest : Text) : Prop := quote? = none → wordEnds rest = true

/-- A line that begins with a name of one word, bare or in quotes of either
kind. -/
structure BeginsWith (quote? : Option Char) (name line : Text) : Prop where
  ne : name ≠ []
  word : ∀ c ∈ name, isWord c = true
  quote : ∀ q ∈ quote?, isNameQuote q = true
  line : ∃ rest, line = spelled quote? name ++ rest ∧ Ends quote? rest

/-! ## Keywords -/

theorem toUpper_of_foldsTo {k c : Char} (hs : k ≠ 'S') (hk : k ≠ 'K') (h : foldsTo k c = true) :
    c.toUpper = k := by
  simpa [foldsTo, hs, hk] using h

/-- A keyword that is read at a name and ends with a word reads the name. -/
theorem keyword_name {k name rest r : Text} (hk : ∀ x ∈ k, isMarkerChar x = true)
    (hname : ∀ c ∈ name, isWord c = true) (hrest : wordEnds rest = true)
    (h : keyword k (name ++ rest) = some r) (hr : wordEnds r = true) :
    keyword k name = some [] ∧ r = rest := by
  induction k generalizing name with
  | nil =>
    obtain rfl := Option.some.inj h
    cases name with
    | nil => exact ⟨rfl, rfl⟩
    | cons c name => simp [wordEnds, hname c] at hr
  | cons x k ih =>
    cases name with
    | nil =>
      cases rest with
      | nil => cases h
      | cons c rest =>
        rw [List.nil_append, keyword] at h
        split at h
        · next hc => simp [wordEnds, isWord_of_foldsTo (hk x (by simp)) hc] at hrest
        · cases h
    | cons c name =>
      rw [List.cons_append, keyword] at h
      split at h
      · next hc =>
        rw [keyword, if_pos hc]
        exact ih (fun y hy => hk y (by simp [hy])) (fun d hd => hname d (by simp [hd])) h
      · cases h

/-- The letters that fold to themselves only spell the keyword. -/
theorem upper_of_keyword_eq_nil {k name : Text}
    (h : keyword k name = some []) (hfold : ∀ x ∈ k, ∀ c ∈ name, foldsTo x c = true → c.toUpper = x) :
    upper name = k := by
  induction k generalizing name with
  | nil =>
    obtain rfl := Option.some.inj h
    rfl
  | cons x k ih =>
    cases name with
    | nil => cases h
    | cons c name =>
      rw [keyword] at h
      split at h
      · next hc =>
        rw [upper_cons, hfold x (by simp) c (by simp) hc,
          ih h fun y hy d hd => hfold y (by simp [hy]) d (by simp [hd])]
      · cases h

theorem upper_of_keyword {k name rest r : Text}
    (hk : ∀ x ∈ k, isMarkerChar x = true ∧ x ≠ 'S' ∧ x ≠ 'K') (hname : ∀ c ∈ name, isWord c = true)
    (hrest : wordEnds rest = true) (h : keyword k (name ++ rest) = some r)
    (hr : wordEnds r = true) : upper name = k := by
  have hread := (keyword_name (fun x hx => (hk x hx).1) hname hrest h hr).1
  exact upper_of_keyword_eq_nil hread fun x hx c _ hc =>
    toUpper_of_foldsTo (hk x hx).2.1 (hk x hx).2.2 hc

theorem wordEnds_of_blanks1 {s r : Text} (h : blanks1 s = some r) : wordEnds s = true := by
  obtain ⟨b, rfl, hne, hb⟩ := exists_of_many1 h
  obtain ⟨c, b, rfl⟩ := List.exists_cons_of_ne_nil hne
  simp [wordEnds, not_isWord_of_isBlank (hb c (by simp))]

theorem wordEnds_of_keywordEnd {k s r : Text} (h : keywordEnd k s = some r) :
    wordEnds r = true := by
  obtain ⟨t, -, hr⟩ := Option.bind_eq_some_iff.1 h
  split at hr
  · next he => rw [← Option.some.inj hr, he]
  · cases hr

/-! ## What passes over a name -/

section
variable {name : Text} (hword : ∀ c ∈ name, isWord c = true)
include hword

theorem isBlank_of_mem_name : ∀ c ∈ name, isBlank c = false := by
  intro c hc
  by_contra hb
  rw [Bool.not_eq_false] at hb
  exact absurd (hword c hc) (by simp [not_isWord_of_isBlank hb])

theorem passes_name {α : Type} {f : Reader α} {rest : Text} (prev : Option Char)
    (hstart : ∀ {prev s a}, f prev s = some a →
      wordStarts prev = true ∨ s.head?.any isBlank = true)
    (hname : ∀ prev, f prev (name ++ rest) = none) : Passes f prev name rest := by
  intro a b hab hb
  by_cases ha : a = []
  · subst ha
    rw [List.nil_append] at hab
    rw [← hab]
    exact hname _
  · obtain ⟨c, b, rfl⟩ := List.exists_cons_of_ne_nil hb
    refine Option.eq_none_iff_forall_ne_some.2 fun x hx => ?_
    rcases hstart hx with h | h
    · have hlast : isWord (a.getLast ha) = true :=
        hword _ (by rw [hab]; exact List.mem_append_left _ (List.getLast_mem ha))
      simp [List.getLast?_eq_some_getLast ha, wordStarts, hlast] at h
    · have hc := isBlank_of_mem_name hword c (by simp [hab])
      simp [hc] at h

end

section
variable {quote? : Option Char} {name rest : Text}

theorem isBlank_of_mem_spelled {line : Text} (h : BeginsWith quote? name line) :
    ∀ c ∈ spelled quote? name, isBlank c = false := by
  have hname := isBlank_of_mem_name h.word
  cases quote? with
  | none => exact hname
  | some q =>
    have hq : isBlank q = false := by
      rcases eq_of_isNameQuote (h.quote q rfl) with rfl | rfl
      · decide
      · decide
    intro c hc
    simp only [spelled, List.mem_cons, List.mem_append, List.not_mem_nil, or_false] at hc
    rcases hc with rfl | hc | rfl
    · exact hq
    · exact hname c hc
    · exact hq

theorem not_isWord_of_isNameQuote {q : Char} (h : isNameQuote q = true) : isWord q = false := by
  rcases eq_of_isNameQuote h with rfl | rfl
  · exact not_isWord_of_isAscii (by decide)
  · exact not_isWord_of_isAscii (by decide)

theorem passes_spelled {α : Type} {f : Reader α} {line : Text} (h : BeginsWith quote? name line)
    (hrest : Ends quote? rest)
    (hstart : ∀ {prev s a}, f prev s = some a →
      wordStarts prev = true ∨ s.head?.any isBlank = true)
    (hquote : ∀ prev q s, isNameQuote q = true → f prev (q :: s) = none)
    (hname : ∀ prev s, wordEnds s = true → f prev (name ++ s) = none) :
    Passes f none (spelled quote? name) rest := by
  cases quote? with
  | none => exact passes_name h.word none hstart fun prev => hname prev rest (hrest rfl)
  | some q =>
    have hq := h.quote q rfl
    have hends : wordEnds (q :: rest) = true := by
      simp [wordEnds, not_isWord_of_isNameQuote hq]
    refine .cons (hquote none q _ hq) (.append ?_ (.cons (hquote _ q _ hq) (.nil _ _)))
    exact passes_name h.word (some q) hstart fun prev => hname prev (q :: rest) hends

theorem passes_of_blanks {f : Scanner} {line : Text} (h : BeginsWith quote? name line)
    (hf : ∀ {c s}, isBlank c = false → f (c :: s) = none) :
    Passes (anywhere f) none (spelled quote? name) rest := by
  intro a b hab hb
  obtain ⟨c, b, rfl⟩ := List.exists_cons_of_ne_nil hb
  exact hf (isBlank_of_mem_spelled h c (by simp [hab]))

end

/-! ## Reading a bare name -/

section
variable {name : Text} (hne : name ≠ []) (hword : ∀ c ∈ name, isWord c = true)
include hword

theorem not_isNameQuote_of_mem_name : ∀ c ∈ name, isNameQuote c = false := by
  intro c hc
  by_contra hq
  have hcw := hword c hc
  rw [not_isWord_of_isNameQuote (by simpa using hq)] at hcw
  cases hcw

include hne

theorem nameToken_bare {rest : Text} (hrest : wordEnds rest = true) :
    nameToken (name ++ rest) = some rest := by
  obtain ⟨c, cs, rfl⟩ := List.exists_cons_of_ne_nil hne
  have hc := not_isNameQuote_of_mem_name hword c (by simp)
  have hquote : ∀ q, isNameQuote q = true → quotedBy q (c :: (cs ++ rest)) = none := fun q hq =>
    quotedBy_of_ne (by rintro rfl; rw [hc] at hq; cases hq) _
  rw [nameToken, List.cons_append, hquote '`' (by decide), hquote '"' (by decide)]
  exact many1_append (a := c :: cs) (by simp) hword (by simpa [wordEnds] using hrest)

theorem bareName_bare : bareName name = name := by
  have hquote := not_isNameQuote_of_mem_name hword
  have hhead : name.dropWhile isNameQuote = name := by
    obtain ⟨c, cs, rfl⟩ := List.exists_cons_of_ne_nil hne
    exact dropWhile_eq_self (by simpa using hquote c (by simp))
  rw [bareName, hhead, dropEndWhile_eq_self]
  rw [List.getLast?_eq_some_getLast hne, Option.any_some]
  exact hquote _ (List.getLast_mem hne)

/-- A word behind a bare name and blanks is taken for the type by its leading letters. -/
theorem typedName?_blanks {gap letters u : Text} (hgap : gap ≠ [])
    (hblank : ∀ c ∈ gap, isBlank c = true) (hl : letters ≠ [])
    (ha : ∀ c ∈ letters, c.isAlpha = true) (hu : u.head?.any Char.isAlpha = false) :
    typedName? (name ++ (gap ++ (letters ++ u))) = some ([], ⟨name, gap, letters,
      before u (Text.optional sizeAfterBlanks u), Text.optional sizeAfterBlanks u⟩) := by
  have hread : read blanks1 (gap ++ (letters ++ u)) = some (gap, letters ++ u) := by
    refine read_of_append (many1_append hgap hblank ?_)
    obtain ⟨x, xs, rfl⟩ := List.exists_cons_of_ne_nil hl
    simpa using isBlank_of_isMarkerChar (isMarkerChar_of_isAlpha (ha x (by simp)))
  have hends : wordEnds (gap ++ (letters ++ u)) = true := by
    obtain ⟨b, bs, rfl⟩ := List.exists_cons_of_ne_nil hgap
    simp [wordEnds, not_isWord_of_isBlank (hblank b (by simp))]
  have htyped : typedName (name ++ (gap ++ (letters ++ u))) = some ⟨name, gap, letters,
      before u (Text.optional sizeAfterBlanks u), Text.optional sizeAfterBlanks u⟩ := by
    rw [typedName, read_of_append (nameToken_bare hne hword hends), Option.bind_eq_bind,
      Option.bind_some]
    simp only [hread, Option.bind_some, Text.run_append hl ha hu]
  obtain ⟨c, cs, rfl⟩ := List.exists_cons_of_ne_nil hne
  rw [List.cons_append] at htyped
  rw [typedName?, List.cons_append, find, anywhere, htyped]

theorem typedName?_bare {letters u : Text} (hl : letters ≠ [])
    (ha : ∀ c ∈ letters, c.isAlpha = true) (hu : u.head?.any Char.isAlpha = false) :
    typedName? (name ++ ' ' :: (letters ++ u)) = some ([], ⟨name, [' '], letters,
      before u (Text.optional sizeAfterBlanks u), Text.optional sizeAfterBlanks u⟩) :=
  typedName?_blanks hne hword (List.cons_ne_nil ' ' []) (by decide) hl ha hu

end

/-! ## Attributes -/

theorem blanks1_of_not_blank {c : Char} (h : isBlank c = false) (s : Text) :
    blanks1 (c :: s) = none := by
  simp [blanks1, many1, h]

theorem beginsWith_cleaned {q : Char} {name line : Text} (h : BeginsWith (some q) name line)
    (d : Direction) : BeginsWith (some q) name (cleaned d line) := by
  obtain ⟨rest, hline, -⟩ := h.line
  have hends : ∀ u, Ends (some q) u := fun u hq => by cases hq
  have herase : ∀ {f : Scanner}, (∀ {c s}, isBlank c = false → f (c :: s) = none) → ∀ u,
      ∃ u', eraseAll (anywhere f) (spelled (some q) name ++ u) = spelled (some q) name ++ u' :=
    fun hf u => ⟨_, eraseFrom_append (passes_of_blanks h hf)⟩
  cases d with
  | sqliteToMysql => exact h
  | mysqlToSqlite =>
    have hunique : withoutUniqueName line = line := by
      have hnone : uniqueKey line = none := by
        rw [hline]
        rcases eq_of_isNameQuote (h.quote q rfl) with rfl | rfl
        · rfl
        · rfl
      rw [withoutUniqueName, hnone]
    obtain ⟨u₁, h₁⟩ := herase (f := onUpdate) (fun hb => by simp [onUpdate, blanks1_of_not_blank hb]) rest
    obtain ⟨u₂, h₂⟩ := herase (f := commentClause)
      (fun hb => by simp [commentClause, blanks1_of_not_blank hb]) u₁
    obtain ⟨u₃, h₃⟩ := herase (f := typeAttribute)
      (fun hb => by simp [typeAttribute, blanks1_of_not_blank hb]) u₂
    refine ⟨h.ne, h.word, h.quote, u₃, ?_, hends u₃⟩
    simp only [cleaned, withoutAttributes]
    rw [hunique, hline, h₁, h₂, h₃]

/-! ## The type -/

/-- A type is replaced behind a name and blanks, so the name stays. -/
theorem beginsWith_convertType {quote? : Option Char} {name line : Text}
    (h : BeginsWith quote? name line) (m : TypeMap) (d : Direction) (table? : Option Text) :
    BeginsWith quote? name (convertType m d table? line).line := by
  obtain hsame | ⟨lead, u, t, mapping, -, htyped, -, hold, hnew⟩ :=
    line_convertType_cases m d table? line
  · rwa [hsame]
  · obtain ⟨rest, hline, hends⟩ := h.line
    obtain ⟨hgap, hblanks⟩ := gap_of_typedName htyped
    obtain ⟨b, g, hgap⟩ := List.exists_cons_of_ne_nil hgap
    have hb : isBlank b = true := hblanks b (by simp [hgap])
    have hsplit : spelled quote? name ++ rest
        = (lead ++ t.name) ++ (b :: (g ++ (t.declaredType ++ t.rest))) := by
      rw [← hline, hold, hgap]
      simp
    -- The blank is not in the name, so the name ends before it.
    obtain ⟨v, hv, hrest⟩ : ∃ v, lead ++ t.name = spelled quote? name ++ v
        ∧ rest = v ++ b :: (g ++ (t.declaredType ++ t.rest)) := by
      rcases List.append_eq_append_iff.1 hsplit with ⟨v, hv, hrest⟩ | ⟨v, hv, hrest⟩
      · exact ⟨v, hv, hrest⟩
      · cases v with
        | nil => exact ⟨[], by simpa using hv.symm, by simpa using hrest.symm⟩
        | cons c v =>
          obtain ⟨rfl, -⟩ := List.cons.inj hrest
          have := isBlank_of_mem_spelled h b (by simp [hv])
          rw [hb] at this
          cases this
    refine ⟨h.ne, h.word, h.quote, v ++ b :: (g ++ (mapping.target ++ t.rest)), ?_, fun hq => ?_⟩
    · rw [hnew, hv, hgap]
      simp
    · have := hends hq
      rw [hrest] at this
      cases v with
      | nil => exact this
      | cons c v => exact this

/-! ## The marker -/

theorem eraseFrom_wordEnds {f : Reader Text}
    (hf : ∀ {prev t r}, f prev t = some r → ∃ m, t = m ++ r ∧ m ≠ []) {s : Text} {n : Nat}
    (hr : ∀ {prev t r}, t <:+ s → f prev t = some r → wordEnds r = true)
    (h : wordEnds (s.drop n) = true) (prev : Option Char) :
    wordEnds (eraseFrom f prev n s) = true := by
  induction s generalizing prev n with
  | nil => rfl
  | cons c s ih =>
    have ih {n : Nat} := @ih n fun ht => hr (ht.trans (List.suffix_cons c s))
    cases n with
    | succ n => exact ih h _
    | zero =>
      rw [eraseFrom]
      cases hs : f prev (c :: s) with
      | none => exact h
      | some r =>
        obtain ⟨m, hm, hne⟩ := hf hs
        obtain ⟨x, m, rfl⟩ := List.exists_cons_of_ne_nil hne
        obtain ⟨rfl, hsplit⟩ := List.cons.inj hm
        refine ih ?_ _
        have hdrop : s.drop (s.length - r.length) = r := by simp [hsplit]
        rw [hdrop]
        exact hr (List.suffix_refl _) hs

theorem spacedMarker_start {k : Text} {prev : Option Char} {s r : Text}
    (h : spacedMarker k prev s = some r) :
    wordStarts prev = true ∨ s.head?.any isBlank = true :=
  (spacedMarker_iff_keywordEnd.1 h).1

theorem wordEnds_of_spacedMarker {k : Text} {prev : Option Char} {s r : Text}
    (h : spacedMarker k prev s = some r) : wordEnds r = true :=
  wordEnds_of_keywordEnd (spacedMarker_iff_keywordEnd.1 h).2

theorem primaryKey_start {prev : Option Char} {s r : Text} (h : primaryKey prev s = some r) :
    wordStarts prev = true :=
  (primaryKey_iff_keywords.1 h).1

theorem marker_letters (d : Dialect) :
    ∀ x ∈ d.marker, isMarkerChar x = true ∧ x ≠ 'S' ∧ x ≠ 'K' := by
  cases d <;> decide

section
variable {quote? : Option Char} {name rest line : Text}

theorem marker_passes_name (h : BeginsWith quote? name line) (hrest : Ends quote? rest)
    {d : Dialect} (hm : sameUpToCase name d.marker = false) :
    Passes (spacedMarker d.marker) none (spelled quote? name) rest := by
  refine passes_spelled h hrest spacedMarker_start (fun prev q s hq => ?_) fun prev s hs => ?_
  · have hnone : keywordEnd d.marker (blanks (q :: s)) = none := by
      rcases eq_of_isNameQuote hq with rfl | rfl
      · cases d <;> rfl
      · cases d <;> rfl
    rw [spacedMarker, hnone, ite_self]
  · obtain ⟨c, u, rfl⟩ := List.exists_cons_of_ne_nil h.ne
    have hb : isBlank c = false := isBlank_of_mem_name h.word c (by simp)
    have hblanks : blanks (c :: u ++ s) = c :: u ++ s := trimStart_eq_self (by simpa using hb)
    have hnone : keywordEnd d.marker (c :: u ++ s) = none := by
      refine Option.eq_none_iff_forall_ne_some.2 fun r hr => ?_
      have hup := upper_of_keyword (marker_letters d) h.word hs (keyword_of_keywordEnd hr)
        (wordEnds_of_keywordEnd hr)
      rw [sameUpToCase, hup, upper_marker, beq_self_eq_true] at hm
      cases hm
    rw [spacedMarker, hblanks, hnone, ite_self]

theorem keywordBlanks_primary (hword : ∀ c ∈ name, isWord c = true)
    (hk : isConstraintKeyword name = false) {s : Text} (hs : wordEnds s = true) :
    keywordBlanks "PRIMARY".toList (name ++ s) = none := by
  refine Option.eq_none_iff_forall_ne_some.2 fun r hr => ?_
  obtain ⟨t, ht, hblanks⟩ := Option.bind_eq_some_iff.1 hr
  have hup := upper_of_keyword (by decide) hword hs ht (wordEnds_of_blanks1 hblanks)
  have hsame : sameUpToCase "PRIMARY".toList name = true := by
    rw [sameUpToCase, hup]
    decide
  rw [isConstraintKeyword, constraintKeywords, List.any_cons, hsame, Bool.true_or] at hk
  cases hk

theorem key_passes_name (h : BeginsWith quote? name line) (hrest : Ends quote? rest)
    (hk : isConstraintKeyword name = false) :
    Passes primaryKey none (spelled quote? name) rest := by
  refine passes_spelled h hrest (fun hr => Or.inl (primaryKey_start hr)) (fun prev q s hq => ?_)
    fun prev s hs => ?_
  · have hnone : keywordBlanks "PRIMARY".toList (q :: s) = none := by
      rcases eq_of_isNameQuote hq with rfl | rfl
      · rfl
      · rfl
    rw [primaryKey, hnone]
    exact ite_self _
  · rw [primaryKey, keywordBlanks_primary h.word hk hs]
    exact ite_self _

theorem beginsWith_eraseMarker (h : BeginsWith quote? name line) {d : Dialect}
    (hm : sameUpToCase name d.marker = false) :
    BeginsWith quote? name (eraseAll (spacedMarker d.marker) line) := by
  obtain ⟨rest, hline, hends⟩ := h.line
  refine ⟨h.ne, h.word, h.quote,
    eraseFrom (spacedMarker d.marker) ((spelled quote? name).getLast?.or none) 0 rest, ?_, fun hq => ?_⟩
  · rw [hline]
    exact eraseFrom_append (marker_passes_name h hends hm)
  · refine eraseFrom_wordEnds (n := 0) (fun hr => ?_) (fun _ hr => wordEnds_of_spacedMarker hr)
      (hends hq) _
    obtain ⟨m, hm, hne, -⟩ := takesSome_spacedMarker d _ hr
    exact ⟨m, hm, hne⟩

theorem beginsWith_replaceKey (h : BeginsWith quote? name line)
    (hk : isConstraintKeyword name = false) (phrase : Text) :
    BeginsWith quote? name (replaceFirst primaryKey phrase line) := by
  obtain ⟨rest, hline, hends⟩ := h.line
  have hfind := find_append (key_passes_name h hends hk)
  rw [replaceFirst, hline, hfind]
  cases hr : find primaryKey ((spelled quote? name).getLast?.or none) rest with
  | none => exact ⟨h.ne, h.word, h.quote, rest, rfl, hends⟩
  | some r =>
    obtain ⟨lead, tail⟩ := r
    refine ⟨h.ne, h.word, h.quote, lead ++ phrase ++ tail, by simp, fun hq => ?_⟩
    subst hq
    obtain ⟨u, hu, hkey⟩ := append_of_find hr
    cases lead with
    | nil =>
      -- A key is a whole word, so it does not start right behind a bare name.
      have hlast : isWord (name.getLast h.ne) = true := h.word _ (List.getLast_mem h.ne)
      have hstart := primaryKey_start hkey
      simp [spelled, List.getLast?_eq_some_getLast h.ne, wordStarts, hlast] at hstart
    | cons c lead =>
      have := hends rfl
      rw [hu] at this
      exact this

theorem beginsWith_respellMarker (h : BeginsWith quote? name line)
    (hk : isConstraintKeyword name = false) {d : Direction}
    (hm : sameUpToCase name d.source.marker = false) {line' : Text}
    (hs : respellMarker d line = some line') : BeginsWith quote? name line' := by
  have hstrip := beginsWith_eraseMarker h hm
  obtain ⟨-, ⟨-, rfl⟩ | ⟨-, rfl⟩⟩ := respellMarker_cases hs
  · exact beginsWith_replaceKey hstrip hk _
  · obtain ⟨rest, hline, hends⟩ := hstrip.line
    refine ⟨h.ne, h.word, h.quote, rest ++ ' ' :: keyPhrase d, by simp [hline], fun hq => ?_⟩
    cases rest with
    | nil => exact wordEnds_blank _
    | cons c rest => exact hends hq

end

/-- A name stays at the start of a line that is rewritten. A bare one has to end
where a word can end once the attributes are out. -/
theorem beginsWith_rewritten {quote? : Option Char} {name line : Text}
    (h : BeginsWith quote? name line) {m : TypeMap} {d : Direction}
    (hk : isConstraintKeyword name = false) (hm : sameUpToCase name d.source.marker = false)
    (hbare : quote? = none → BeginsWith none name (cleaned d line)) :
    BeginsWith quote? name (rewritten m d line) := by
  have hcleaned : BeginsWith quote? name (cleaned d line) := by
    cases quote? with
    | none => exact hbare rfl
    | some q => exact beginsWith_cleaned h d
  have htyped := beginsWith_convertType hcleaned m d none
  rw [rewritten, retyped]
  cases hr : respellMarker d (convertType m d none (cleaned d line)).line with
  | none => exact htyped
  | some line' => exact beginsWith_respellMarker htyped hk hm hr

end SchemaDialects.Definition
