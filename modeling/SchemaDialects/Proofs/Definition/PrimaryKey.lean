import SchemaDialects.Proofs.Definition.LeadingName
import SchemaDialects.Proofs.Script.Body

/-!
# How often a line declares a primary key

A line declares a key wherever it has the words `PRIMARY KEY` outside quotes and
comments. Main statement: the line of an auto-increment column declares one key
once it has its phrase, and it is no key clause.
-/

namespace SchemaDialects.Definition

open Text Script

/-! ## The words of a key -/

/-- The keyword `k` in letters of any case. -/
def IsKeyword (k m : Text) : Prop := List.Forall₂ (fun x c => foldsTo x c = true) k m

instance (k m : Text) : Decidable (IsKeyword k m) :=
  inferInstanceAs (Decidable (List.Forall₂ (fun x c => foldsTo x c = true) k m))

/-- The words `PRIMARY KEY`. -/
def IsKeyPhrase (m : Text) : Prop :=
  ∃ p b k, m = p ++ (b ++ k) ∧ IsKeyword "PRIMARY".toList p ∧ b ≠ []
    ∧ (∀ c ∈ b, isBlank c = true) ∧ IsKeyword "KEY".toList k

theorem IsKeyword.isWord {k m : Text} (h : IsKeyword k m)
    (hk : ∀ x ∈ k, Dialect.isMarkerChar x = true) : ∀ c ∈ m, isWord c = true := by
  induction h with
  | nil => simp
  | cons hc _ ih =>
    exact List.forall_mem_cons.2 ⟨isWord_of_foldsTo (hk _ (by simp)) hc,
      ih fun x hx => hk x (by simp [hx])⟩

theorem IsKeyword.exists_cons {x : Char} {k m : Text} (h : IsKeyword (x :: k) m) :
    ∃ c n, m = c :: n ∧ foldsTo x c = true := by
  cases h with
  | cons hc _ => exact ⟨_, _, rfl, hc⟩

theorem not_foldsTo_of_K {c : Char} (h : foldsTo 'K' c = true) : foldsTo 'P' c = false := by
  have hup : c.toUpper = 'K' ∨ c = '\u212A' := by simpa [foldsTo] using h
  rcases hup with hup | rfl
  · simp [foldsTo, hup]
  · decide

theorem not_foldsTo_of_isBlank {c : Char} (h : isBlank c = true) : foldsTo 'P' c = false := by
  by_contra hf
  rw [isBlank_of_foldsTo (k := 'P') (by decide) (by simpa using hf)] at h
  cases h

section
variable {m : Text} (hm : IsKeyPhrase m)
include hm

theorem IsKeyPhrase.ne_nil : m ≠ [] := by
  obtain ⟨p, b, k, rfl, -, hne, -⟩ := hm
  simp [hne]

theorem IsKeyPhrase.last : ∃ n c, m = n ++ [c] ∧ isWord c = true := by
  obtain ⟨p, b, k, rfl, -, -, -, hk⟩ := hm
  obtain ⟨c, n, hkn, -⟩ := hk.exists_cons
  have hne : k ≠ [] := by simp [hkn]
  refine ⟨p ++ (b ++ k.dropLast), k.getLast hne, ?_, ?_⟩
  · rw [List.append_assoc, List.append_assoc, List.dropLast_append_getLast]
  · exact hk.isWord (by decide) _ (List.getLast_mem hne)

theorem IsKeyPhrase.parts : ∀ c ∈ m, isPart c := by
  obtain ⟨p, b, k, rfl, hp, -, hb, hk⟩ := hm
  intro c hc
  simp only [List.mem_append] at hc
  rcases hc with hc | hc | hc
  · exact Or.inl (isOrdinary_of_isWord (hp.isWord (by decide) c hc))
  · exact isPart_of_isBlank (hb c hc)
  · exact Or.inl (isOrdinary_of_isWord (hk.isWord (by decide) c hc))

theorem IsKeyPhrase.not_foldsTo {a n : Text} {d c : Char} (h : m = a ++ d :: c :: n)
    (hd : isWord d = false) : foldsTo 'P' c = false := by
  obtain ⟨p, b, k, rfl, hp, -, hb, hk⟩ := hm
  have hnot : ∀ {t : Text}, (∀ x ∈ t, isWord x = true) → d ∉ t := fun ht hmem => by
    rw [ht d hmem] at hd
    cases hd
  have hpw := hp.isWord (by decide)
  have hkw := hk.isWord (by decide)
  obtain ⟨a', ha⟩ : ∃ a', b ++ k = a' ++ d :: c :: n := by
    rcases List.append_eq_append_iff.1 h with ⟨a', -, ha⟩ | ⟨p', rfl, hp'⟩
    · exact ⟨a', ha⟩
    · cases p' with
      | nil => exact ⟨[], hp'.symm⟩
      | cons x p' =>
        obtain ⟨rfl, -⟩ := List.cons.inj hp'
        exact absurd (by simp) (hnot hpw)
  rcases List.append_eq_append_iff.1 ha with ⟨a'', -, hk'⟩ | ⟨b', rfl, hb'⟩
  · exact absurd (by simp [hk']) (hnot hkw)
  · match b' with
    | [] =>
      have hmem : d ∈ k := by
        rw [← show d :: c :: n = k from hb']
        simp
      exact absurd hmem (hnot hkw)
    | [x] =>
      obtain ⟨y, l, hy, hfold⟩ := hk.exists_cons
      rw [hy] at hb'
      obtain ⟨-, hcons⟩ := List.cons.inj hb'
      obtain ⟨rfl, -⟩ := List.cons.inj hcons
      exact not_foldsTo_of_K hfold
    | x :: y :: b' =>
      obtain ⟨-, hcons⟩ := List.cons.inj hb'
      obtain ⟨rfl, -⟩ := List.cons.inj hcons
      exact not_foldsTo_of_isBlank (hb c (by simp))

end

theorem primaryKey_eq_some_iff {prev : Option Char} {s r : Text} :
    primaryKey prev s = some r ↔ wordStarts prev = true
      ∧ ∃ m, IsKeyPhrase m ∧ s = m ++ r ∧ wordEnds r = true := by
  refine primaryKey_iff_keywords.trans (and_congr_right fun _ => ?_)
  constructor
  · rintro ⟨u, t, hu, hb, hkey⟩
    obtain ⟨p, hs, -, hfold⟩ := exists_of_keyword hu
    obtain ⟨b, rfl, hne, hblank⟩ := exists_of_many1 hb
    obtain ⟨k, rfl, -, hk⟩ := exists_of_keyword (keyword_of_keywordEnd hkey)
    exact ⟨p ++ (b ++ k), ⟨p, b, k, rfl, hfold, hne, hblank, hk⟩, by simp [hs],
      wordEnds_of_keywordEnd hkey⟩
  · rintro ⟨m, ⟨p, b, k, rfl, hfold, hne, hblank, hk⟩, rfl, hends⟩
    have hhead : (k ++ r).head?.any isBlank = false := by
      obtain ⟨c, n, rfl, hc⟩ := hk.exists_cons
      simpa using isBlank_of_foldsTo (by decide) hc
    refine ⟨b ++ (k ++ r), k ++ r, ?_, many1_append hne hblank hhead, ?_⟩
    · rw [List.append_assoc, keyword_append_of_folds hfold, List.append_assoc]
    · rw [keywordEnd, keyword_append_of_folds hk, Option.bind_eq_bind, Option.bind_some,
        if_pos hends]

/-! ## Where no key is read -/

section
variable {prev : Option Char} {x s u v : Text}

theorem primaryKey_of_head {c : Char} (h : foldsTo 'P' c = false) (s : Text) :
    primaryKey prev (c :: s) = none := by
  have hnone : keywordBlanks "PRIMARY".toList (c :: s) = none := by
    rw [keywordBlanks, show "PRIMARY".toList = 'P' :: "RIMARY".toList from rfl, keyword_of_head h]
    rfl
  rw [primaryKey, hnone]
  exact ite_self _

theorem primaryKey_of_word {c : Char} (h : isWord c = true) (s : Text) :
    primaryKey (some c) s = none := by
  simp [primaryKey, wordStarts, h]

theorem passes_of_word {c : Char} (hc : isWord c = true) (hx : ∀ d ∈ x, isWord d = true) (t : Text) :
    Passes primaryKey (some c) x t := by
  induction x generalizing c with
  | nil => exact .nil _ _
  | cons d x ih =>
    exact .cons (primaryKey_of_word hc _) (ih (hx d (by simp)) fun e he => hx e (by simp [he]))

theorem passes_of_blank (hx : ∀ d ∈ x, isBlank d = true) (t : Text) :
    Passes primaryKey prev x t := by
  induction x generalizing prev with
  | nil => exact .nil _ _
  | cons d x ih =>
    have hhead : foldsTo 'P' d = false := not_foldsTo_of_isBlank (hx d (by simp))
    exact .cons (primaryKey_of_head hhead _) (ih fun e he => hx e (by simp [he]))

end

/-! ## The phrase in the place of a key -/

/-- A search that passes a text before a key does so before any text that starts
with the same letter. -/
theorem passes_before_key {prev : Option Char} {x u v : Text} (hx : Passes primaryKey prev x u)
    (hlast : wordStarts (x.getLast?.or prev) = true) (hv : ∀ c ∈ v.head?, foldsTo 'P' c = true) :
    Passes primaryKey prev x v := by
  intro a b hab hb
  have hend : isWord (b.getLast hb) = false := by
    have : x.getLast?.or prev = some (b.getLast hb) := by
      rw [hab, List.getLast?_append, List.getLast?_eq_some_getLast hb]
      rfl
    simpa [wordStarts, this] using hlast
  refine Option.eq_none_iff_forall_ne_some.2 fun r hr => ?_
  obtain ⟨hstart, m, hm, hs, hends⟩ := primaryKey_eq_some_iff.1 hr
  have hne : m ≠ b := by
    rintro rfl
    obtain ⟨n, c, rfl, hc⟩ := hm.last
    rw [List.getLast_concat, hc] at hend
    cases hend
  rcases List.append_eq_append_iff.1 hs with ⟨n, hmn, hvn⟩ | ⟨n, rfl, rfl⟩
  · cases n with
    | nil => exact hne (by simpa using hmn)
    | cons c n =>
      have hfold := hv c (by simp [hvn])
      rw [← List.dropLast_append_getLast hb, List.append_assoc] at hmn
      rw [hm.not_foldsTo hmn hend] at hfold
      cases hfold
  · obtain ⟨c, n, rfl⟩ := List.exists_cons_of_ne_nil (l := n) fun h => hne (by simp [h])
    have hread : primaryKey (a.getLast?.or prev) (m ++ c :: n ++ u) = some (c :: n ++ u) :=
      primaryKey_eq_some_iff.2 ⟨hstart, m, hm, by simp, hends⟩
    rw [hx a _ hab hb] at hread
    cases hread

theorem passes_blank_end {prev : Option Char} {x : Text} (hx : Passes primaryKey prev x []) :
    Passes primaryKey prev (x ++ [' ']) [] := by
  refine .append ?_ (passes_of_blank (by decide) _)
  intro a b hab hb
  refine Option.eq_none_iff_forall_ne_some.2 fun r hr => ?_
  obtain ⟨hstart, m, hm, hs, hends⟩ := primaryKey_eq_some_iff.1 hr
  obtain ⟨n, c, rfl, hc⟩ := hm.last
  rw [List.append_nil] at hs
  rcases List.eq_nil_or_concat r with rfl | ⟨r, d, rfl⟩
  · have hlast := (List.append_inj' (hs.trans (List.append_nil _)) rfl).2
    obtain rfl : ' ' = c := (List.cons.inj hlast).1
    exact absurd hc (by decide +kernel)
  · rw [List.concat_eq_append, ← List.append_assoc] at hs
    obtain ⟨rfl, -⟩ := List.append_inj' hs rfl
    have hread : primaryKey (a.getLast?.or prev) (n ++ [c] ++ r ++ []) = some r := by
      refine primaryKey_eq_some_iff.2 ⟨hstart, _, hm, by simp, ?_⟩
      cases r with
      | nil => rfl
      | cons e r => simpa [wordEnds] using hends
    rw [hx a _ hab hb] at hread
    cases hread

/-! ## Counting keys -/

/-- How many keys stand outside quotes and comments in a text that is read from
the state `st`. -/
def keysFrom (st : Lexical) (prev : Option Char) : Text → Nat
  | [] => 0
  | c :: s =>
    (if st.isOutside ∧ (primaryKey prev (c :: s)).isSome then 1 else 0)
      + keysFrom (st.step c) (some c) s

/-- How often a line declares a primary key. -/
def keyCount (line : Text) : Nat := keysFrom .plain none line

theorem keysFrom_append {prev : Option Char} {x t : Text} (h : Passes primaryKey prev x t)
    (st : Lexical) :
    keysFrom st prev (x ++ t) = keysFrom (st.run x) (x.getLast?.or prev) t := by
  induction x generalizing prev st with
  | nil => simp
  | cons c x ih =>
    rw [List.cons_append, keysFrom, h.head, ih h.tail, Lexical.run_cons]
    have hl : (c :: x).getLast?.or prev = x.getLast?.or (some c) := by
      cases x <;> simp [List.getLast?_cons]
    rw [hl]
    simp

/-- Of the character before a text it matters whether a word can start behind
it. -/
theorem keysFrom_congr {prev prev' : Option Char} (h : wordStarts prev = wordStarts prev')
    (st : Lexical) (s : Text) : keysFrom st prev s = keysFrom st prev' s := by
  cases s with
  | nil => rfl
  | cons c s => rw [keysFrom, keysFrom, primaryKey, primaryKey, h]

theorem step_of_isPart {st : Lexical} (h : st.isOutside = true) {c : Char} (hc : isPart c) :
    st.step c = .plain := by
  rcases hc with hc | rfl
  · rw [lexical_step_of_isOrdinary hc]
    cases st <;> first | rfl | cases h
  · cases st <;> first | rfl | cases h

theorem run_of_parts {st : Lexical} (h : st.isOutside = true) {x : Text} (hne : x ≠ [])
    (hx : ∀ c ∈ x, isPart c) : st.run x = .plain := by
  obtain ⟨c, x, rfl⟩ := List.exists_cons_of_ne_nil hne
  rw [Lexical.run_cons, step_of_isPart h (hx c (by simp))]
  have hrest : ∀ d ∈ x, isPart d := fun d hd => hx d (by simp [hd])
  clear hx hne
  induction x with
  | nil => rfl
  | cons d x ih =>
    rw [Lexical.run_cons, step_of_isPart rfl (hrest d (by simp)), ih fun e he => hrest e (by simp [he])]

theorem passes_of_keyword {k m t : Text} (h : IsKeyword k m) (hk : ∀ x ∈ k, Dialect.isMarkerChar x = true)
    (hhead : ∀ c ∈ m.head?, foldsTo 'P' c = false) (prev : Option Char) :
    Passes primaryKey prev m t := by
  have hword := h.isWord hk
  cases m with
  | nil => exact .nil _ _
  | cons c m =>
    exact .cons (primaryKey_of_head (hhead c rfl) _)
      (passes_of_word (hword c (by simp)) (fun d hd => hword d (by simp [hd])) t)

theorem IsKeyPhrase.exists_cons {m : Text} (hm : IsKeyPhrase m) (t : Text) :
    ∃ c n, m = c :: n ∧ Passes primaryKey (some c) n t := by
  obtain ⟨p, b, k, rfl, hp, -, hb, hk⟩ := hm
  obtain ⟨c, p, rfl, -⟩ := hp.exists_cons
  have hword := hp.isWord (by decide)
  refine ⟨c, p ++ (b ++ k), rfl, ?_⟩
  refine .append (passes_of_word (hword c (by simp)) (fun e he => hword e (by simp [he])) _) ?_
  refine .append (passes_of_blank hb _) (passes_of_keyword hk (by decide) ?_ _)
  obtain ⟨e, k, rfl, he⟩ := hk.exists_cons
  intro x hx
  obtain rfl : e = x := Option.some.inj hx
  exact not_foldsTo_of_K he

/-- Words of a key are one key, whatever text follows. -/
theorem keysFrom_phrase {m y : Text} (hm : IsKeyPhrase m) {st : Lexical} (hst : st.isOutside = true)
    {prev : Option Char} (hprev : wordStarts prev = true) (hy : wordEnds y = true) :
    keysFrom st prev (m ++ y) = 1 + keysFrom .plain (some 'Y') y := by
  have hread : primaryKey prev (m ++ y) = some y :=
    primaryKey_eq_some_iff.2 ⟨hprev, m, hm, rfl, hy⟩
  have hrun := run_of_parts hst hm.ne_nil hm.parts
  obtain ⟨l, d, hlast, hd⟩ := hm.last
  obtain ⟨c, n, rfl, htail⟩ := hm.exists_cons y
  have hstart : wordStarts (n.getLast?.or (some c)) = wordStarts (some 'Y') := by
    have hl : n.getLast?.or (some c) = (c :: n).getLast? := by
      cases n <;> simp [List.getLast?_cons]
    have hY : isWord 'Y' = true := by decide
    rw [hl, hlast, List.getLast?_concat]
    simp [wordStarts, hd, hY]
  have hone : (if st.isOutside ∧ (primaryKey prev (c :: (n ++ y))).isSome then 1 else 0) = 1 := by
    rw [hst, ← List.cons_append, hread]
    rfl
  rw [List.cons_append, keysFrom, hone, keysFrom_append htail, ← Lexical.run_cons, hrun,
    keysFrom_congr hstart]

/-! ## The line of the auto-increment column -/

/-- What the phrase is put into: outside quotes it has one key at most, no key is
found before that one, and its end is outside quotes. -/
structure DeclaresAtMostOnce (s : Text) : Prop where
  outside : ∀ lead rest, find primaryKey none s = some (lead, rest) →
    (Lexical.plain.run lead).isOutside = true
  ends : (Lexical.plain.run s).isOutside = true
  count : keyCount s ≤ 1

theorem isKeyPhrase_plain : IsKeyPhrase "PRIMARY KEY".toList :=
  ⟨"PRIMARY".toList, [' '], "KEY".toList, rfl, by unfold IsKeyword; decide, by simp, by decide,
    by unfold IsKeyword; decide⟩

theorem keysFrom_keyPhrase {st : Lexical} (hst : st.isOutside = true) {prev : Option Char}
    (hprev : wordStarts prev = true) (y : Text) :
    keysFrom st prev (keyPhrase .mysqlToSqlite ++ y) = 1 + keysFrom .plain (some 'Y') y := by
  have hsplit : keyPhrase .mysqlToSqlite ++ y
      = "PRIMARY KEY".toList ++ (' ' :: ("AUTOINCREMENT".toList ++ y)) := rfl
  have hword : IsKeyword "AUTOINCREMENT".toList "AUTOINCREMENT".toList := by
    unfold IsKeyword
    decide
  have hhead : ∀ c ∈ "AUTOINCREMENT".toList.head?, foldsTo 'P' c = false := by
    rintro c ⟨⟩
    decide
  have hpass : Passes primaryKey (some 'Y') " AUTOINCREMENT".toList y :=
    .cons (primaryKey_of_head (by decide) _) (passes_of_keyword hword (by decide) hhead _)
  have hends : wordEnds (' ' :: ("AUTOINCREMENT".toList ++ y)) = true := by
    simp [wordEnds, not_isWord_of_isBlank (c := ' ') (by decide)]
  have htail := keysFrom_append hpass .plain
  rw [run_of_parts rfl (by decide) (fun c hc => Or.inl (by revert c; decide))] at htail
  have hlast : wordStarts (" AUTOINCREMENT".toList.getLast?.or (some 'Y')) = wordStarts (some 'Y') := by
    decide
  rw [hsplit, keysFrom_phrase isKeyPhrase_plain hst hprev hends]
  refine congrArg (1 + ·) (htail.trans ?_)
  exact keysFrom_congr hlast _ _

theorem exists_phrase {line line' : Text} (h : respellMarker .mysqlToSqlite line = some line') :
    ∃ x y, line' = x ++ (keyPhrase .mysqlToSqlite ++ y)
      ∧ Passes primaryKey none x (keyPhrase .mysqlToSqlite ++ y)
      ∧ wordStarts x.getLast? = true ∧ wordEnds y = true
      ∧ ((∃ m, IsKeyPhrase m ∧ eraseAll (spacedMarker Dialect.mysql.marker) line = x ++ (m ++ y)
          ∧ Passes primaryKey none x (m ++ y)
          ∧ find primaryKey none (eraseAll (spacedMarker Dialect.mysql.marker) line) = some (x, y))
        ∨ x = eraseAll (spacedMarker Dialect.mysql.marker) line ++ [' '] ∧ y = []) := by
  have hP : ∀ y, ∀ c ∈ (keyPhrase .mysqlToSqlite ++ y).head?, foldsTo 'P' c = true := by
    intro y c hc
    obtain rfl : 'P' = c := Option.some.inj hc
    decide
  have hcase := (respellMarker_cases h).2
  rw [show Direction.mysqlToSqlite.source = Dialect.mysql from rfl] at hcase
  generalize eraseAll (spacedMarker Dialect.mysql.marker) line = s at hcase ⊢
  obtain ⟨hkey, rfl⟩ | ⟨hkey, rfl⟩ := hcase
  · obtain ⟨⟨x, y⟩, hf⟩ := Option.isSome_iff_exists.1 hkey
    obtain ⟨t, rfl, -, hpass, ht⟩ := passes_of_find hf
    obtain ⟨hstart, m, hm, rfl, hends⟩ := primaryKey_eq_some_iff.1 ht
    rw [Option.or_none] at hstart
    refine ⟨x, y, ?_, passes_before_key hpass (by rwa [Option.or_none]) (hP y), hstart, hends,
      Or.inl ⟨m, hm, rfl, hpass, hf⟩⟩
    rw [replaceFirst, hf]
    simp
  · have hf := Option.isNone_iff_eq_none.1 (Option.isSome_eq_false_iff.1 hkey)
    have hpass := passes_blank_end (passes_of_find_eq_none hf)
    have hstart : wordStarts (s ++ [' ']).getLast? = true := by
      rw [List.getLast?_concat]
      exact wordStarts_of_isAscii (by decide)
    exact ⟨s ++ [' '], [], by simp, passes_before_key hpass (by rwa [Option.or_none]) (hP []),
      hstart, rfl, Or.inr ⟨rfl, rfl⟩⟩

theorem keyCount_respelled {line line' : Text} (h : respellMarker .mysqlToSqlite line = some line')
    (hs : DeclaresAtMostOnce (eraseAll (spacedMarker Dialect.mysql.marker) line)) :
    keyCount line' = 1 := by
  obtain ⟨x, y, rfl, hpass, hstart, hends, hcase⟩ := exists_phrase h
  rw [keyCount, keysFrom_append hpass, Option.or_none]
  rcases hcase with ⟨m, hm, hstrip, hpassm, hfind⟩ | ⟨rfl, rfl⟩
  · have hout := hs.outside x y hfind
    have hcount := hs.count
    rw [hstrip, keyCount, keysFrom_append hpassm, Option.or_none,
      keysFrom_phrase hm hout hstart hends] at hcount
    rw [keysFrom_keyPhrase hout hstart]
    omega
  · have hout : (Lexical.plain.run (eraseAll (spacedMarker Dialect.mysql.marker) line
        ++ [' '])).isOutside = true := by
      rw [Lexical.run_append, Lexical.run_cons, step_of_isPart hs.ends (Or.inl (by decide))]
      rfl
    rw [keysFrom_keyPhrase hout hstart]
    rfl

/-! ## Key clauses -/

/-- The clause `PRIMARY KEY (inner)`, with nothing before or behind it. -/
def IsKeyClause (inner line : Text) : Prop :=
  ∃ m b, IsKeyPhrase m ∧ (∀ c ∈ b, isBlank c = true)
    ∧ line = m ++ (b ++ '(' :: (inner ++ [')'])) ∧ ')' ∉ inner

theorem exists_isKeyClause {line : Text} {names : List Text}
    (h : keyClauseColumns? line = some names) :
    ∃ inner, IsKeyClause inner line
      ∧ names = (splitOn ',' inner).map fun c => bareName (trim c) := by
  obtain ⟨t, ht, h⟩ := Option.bind_eq_some_iff.1 h
  obtain ⟨u, hu, h⟩ := Option.bind_eq_some_iff.1 h
  obtain ⟨v, hv, h⟩ := Option.bind_eq_some_iff.1 h
  obtain ⟨w, hw, hb⟩ := Option.bind_eq_some_iff.1 ht
  obtain ⟨p, hline, -, hp⟩ := exists_of_keyword hw
  obtain ⟨b, hwb, hne, hblank⟩ := exists_of_many1 hb
  obtain ⟨k, htk, -, hk⟩ := exists_of_keyword hu
  split at h
  · next hclose =>
    refine ⟨v.takeWhile (· != ')'), ⟨p ++ (b ++ k), u.takeWhile isBlank,
      ⟨p, b, k, rfl, hp, hne, hblank, hk⟩, ?_, ?_, fun hm => ?_⟩, (Option.some.inj h).symm⟩
    · exact fun c hc => List.all_eq_true.1 List.all_takeWhile c hc
    · have hopen : '(' :: v = u.dropWhile isBlank := (exists_of_char hv).symm
      rw [← hclose, List.takeWhile_append_dropWhile, hopen, List.takeWhile_append_dropWhile, hline,
        hwb, htk]
      simp
    · simpa using List.all_eq_true.1 List.all_takeWhile _ hm
  · cases h

theorem keyClauseColumns?_of_isKeyClause {inner line : Text} (h : IsKeyClause inner line) :
    keyClauseColumns? line = some ((splitOn ',' inner).map fun c => bareName (trim c)) := by
  obtain ⟨m, b', ⟨p, b, k, rfl, hp, hne, hb, hk⟩, hb', rfl, hinner⟩ := h
  have hhead : ∀ s, (k ++ s).head?.any isBlank = false := by
    obtain ⟨c, n, rfl, hc⟩ := hk.exists_cons
    intro s
    simpa using isBlank_of_foldsTo (by decide) hc
  have hprimary : ∀ s, keywordBlanks "PRIMARY".toList (p ++ (b ++ (k ++ s))) = some (k ++ s) := by
    intro s
    rw [keywordBlanks, keyword_append_of_folds hp]
    exact many1_append hne hb (hhead s)
  have hblanks : ∀ s, blanks (b' ++ '(' :: s) = '(' :: s := by
    intro s
    rw [blanks, trimStart, List.dropWhile_append_of_pos hb', List.dropWhile_cons_of_neg (by decide)]
  have hpos : ∀ c ∈ inner, (c != ')') = true := by
    intro c hc
    rw [bne_iff_ne]
    rintro rfl
    exact hinner hc
  have hdrop : (inner ++ [')']).dropWhile (· != ')') = [')'] := by
    rw [List.dropWhile_append_of_pos hpos]
    rfl
  have htake : (inner ++ [')']).takeWhile (· != ')') = inner := by
    rw [List.takeWhile_append_of_pos hpos, List.takeWhile_cons_of_neg (by simp), List.append_nil]
  rw [List.append_assoc, List.append_assoc, keyClauseColumns?, hprimary]
  simp only [Option.bind_eq_bind, Option.bind_some, keyword_append_of_folds hk, hblanks, char,
    if_true, hdrop, htake]

theorem IsKeyClause.primaryKey {inner line : Text} (h : IsKeyClause inner line) :
    ∃ r, primaryKey none line = some r := by
  obtain ⟨m, b, hm, hb, rfl, -⟩ := h
  refine ⟨_, primaryKey_eq_some_iff.2 ⟨by decide, m, hm, rfl, ?_⟩⟩
  cases b with
  | nil =>
    have : isWord '(' = false := not_isWord_of_isAscii (by decide)
    simp [wordEnds, this]
  | cons c b => simp [wordEnds, not_isWord_of_isBlank (hb c (by simp))]

theorem IsKeyClause.keyCount_ne_zero {inner line : Text} (h : IsKeyClause inner line) :
    keyCount line ≠ 0 := by
  obtain ⟨r, hr⟩ := h.primaryKey
  cases line with
  | nil => cases hr
  | cons c line =>
    rw [keyCount, keysFrom, hr]
    simp [Lexical.isOutside]

/-- The phrase is longer than a key, so a line that starts with it is no clause. -/
theorem keyClauseColumns?_respelled {line line' : Text}
    (h : respellMarker .mysqlToSqlite line = some line') : keyClauseColumns? line' = none := by
  obtain ⟨x, y, rfl, hpass, -⟩ := exists_phrase h
  refine Option.eq_none_iff_forall_ne_some.2 fun names hnames => ?_
  cases x with
  | nil => cases hnames
  | cons c x =>
    obtain ⟨inner, hclause, -⟩ := exists_isKeyClause hnames
    obtain ⟨r, hr⟩ := hclause.primaryKey
    rw [List.cons_append, hpass.head] at hr
    cases hr

/-- The clause `PRIMARY KEY (name)`, the name in quotes or without. -/
def IsKeyOver (name line : Text) : Prop :=
  ∃ inner, IsKeyClause inner line ∧ ',' ∉ inner ∧ bareName (trim inner) = name

theorem keyClauseColumns?_eq_singleton_iff {name line : Text} :
    keyClauseColumns? line = some [name] ↔ IsKeyOver name line := by
  constructor
  · intro h
    obtain ⟨inner, hclause, hnames⟩ := exists_isKeyClause h
    obtain ⟨piece, hpieces, hname⟩ := List.map_eq_singleton_iff.1 hnames.symm
    have hcomma : ',' ∉ inner := by
      intro hm
      obtain ⟨a, b, rfl⟩ := List.append_of_mem hm
      rw [splitOn_append] at hpieces
      have := congrArg List.length hpieces
      have ha := List.length_pos_iff.2 (splitOn_ne_nil ',' a)
      have hb := List.length_pos_iff.2 (splitOn_ne_nil ',' b)
      rw [List.length_append, List.length_singleton] at this
      omega
    rw [splitOn_of_not_mem hcomma] at hpieces
    obtain rfl : inner = piece := (List.cons.inj hpieces).1
    exact ⟨inner, hclause, hcomma, hname⟩
  · rintro ⟨inner, hclause, hcomma, rfl⟩
    rw [keyClauseColumns?_of_isKeyClause hclause, splitOn_of_not_mem hcomma]
    rfl

end SchemaDialects.Definition
