import SchemaDialects.Proofs.Definition.Literals
import SchemaDialects.Proofs.Definition.PrimaryKey

/-!
# Whole words, and what the respelling leaves of them

A keyword stands in a text as a whole word, in letters of any case. Where two texts meet beside a
character of no word, a whole word of both is one of either. Main statement: a line has the source
dialect's marker nowhere once it is rewritten. Neither erasing the marker nor putting the phrase in
its place makes a new one, and no new type does.
-/

namespace SchemaDialects.Definition

open Text
open Dialect (isMarkerChar)

/-- The capitals `k` stand in `s` as a whole word, in letters of any case. -/
def HasKeyword (k s : Text) : Prop :=
  ∃ a w b, s = a ++ (w ++ b) ∧ IsKeyword k w ∧ wordStarts a.getLast? = true ∧ wordEnds b = true

/-! ## The edges of words -/

section
variable {m : Text} (hne : m ≠ []) (hm : ∀ c ∈ m, isWord c = true)
include hne hm

theorem wordStarts_behind_word (a : Text) : wordStarts (a ++ m).getLast? = false := by
  have hlast := hm _ (List.getLast_mem hne)
  simp [List.getLast?_append, List.getLast?_eq_some_getLast hne, wordStarts, hlast]

theorem wordEnds_before_word (b : Text) : wordEnds (m ++ b) = false := by
  obtain ⟨c, m, rfl⟩ := List.exists_cons_of_ne_nil hne
  simp [wordEnds, hm c]

end

theorem wordStarts_append {s t : Text} (hs : t = [] → wordStarts s.getLast? = true)
    (ht : wordStarts t.getLast? = true) : wordStarts (s ++ t).getLast? = true := by
  rcases List.eq_nil_or_concat t with rfl | ⟨t, c, rfl⟩
  · simpa using hs rfl
  · simpa [List.concat_eq_append, ← List.append_assoc] using ht

theorem wordStarts_of_append {s t : Text} (h : wordStarts (s ++ t).getLast? = true) :
    wordStarts t.getLast? = true := by
  rcases List.eq_nil_or_concat t with rfl | ⟨t, c, rfl⟩
  · rfl
  · simpa [List.concat_eq_append, ← List.append_assoc] using h

theorem wordEnds_append {s t : Text} (hs : wordEnds s = true) (ht : s = [] → wordEnds t = true) :
    wordEnds (s ++ t) = true := by
  cases s with
  | nil => exact ht rfl
  | cons c s => exact hs

theorem wordEnds_of_append {s t : Text} (h : wordEnds (s ++ t) = true) : wordEnds s = true := by
  cases s with
  | nil => rfl
  | cons c s => exact h

theorem wordStarts_behind_blanks {b : Text} (hb : ∀ c ∈ b, isBlank c = true) :
    wordStarts b.getLast? = true := by
  cases hl : b.getLast? with
  | none => rfl
  | some c => simp [wordStarts, not_isWord_of_isBlank (hb c (List.mem_of_getLast? hl))]

theorem wholeWord_eq_some_iff {k s r : Text} {prev : Option Char} :
    wholeWord k prev s = some r ↔ ∃ w, s = w ++ r ∧ wordStarts prev = true ∧ IsKeyword k w
      ∧ wordEnds r = true := by
  rw [wholeWord]
  constructor
  · intro h
    split at h
    · next hstart =>
      obtain ⟨w, rfl, -, hw⟩ := exists_of_keyword (keyword_of_keywordEnd h)
      exact ⟨w, rfl, hstart, hw, wordEnds_of_keywordEnd h⟩
    · cases h
  · rintro ⟨w, rfl, hstart, hw, hends⟩
    rw [if_pos hstart, keywordEnd, Script.keyword_append_of_folds hw, Option.bind_eq_bind,
      Option.bind_some, if_pos hends]

/-! ## Where texts meet -/

section
variable {k s t w : Text} (hk : AreKeywords [k])
include hk

theorem AreKeywords.isWord (hw : IsKeyword k w) : ∀ c ∈ w, isWord c = true :=
  IsKeyword.isWord hw (hk.chars k (by simp))

theorem AreKeywords.exists_cons (hw : IsKeyword k w) :
    ∃ c n, w = c :: n ∧ ∃ x ∈ k.head?, foldsTo x c = true := by
  cases k with
  | nil => exact absurd (by simp) hk.no_empty
  | cons x k =>
    obtain ⟨c, n, hcn, hc⟩ := hw.exists_cons
    exact ⟨c, n, hcn, x, rfl, hc⟩

theorem AreKeywords.ne_nil (hw : IsKeyword k w) : w ≠ [] := by
  obtain ⟨c, n, rfl, -⟩ := hk.exists_cons hw
  simp

theorem not_hasKeyword_of_letters (h : ∀ x ∈ k.head?, ∀ c ∈ s, foldsTo x c = false) : ¬ HasKeyword k s := by
  rintro ⟨a, w, b, rfl, hw, -⟩
  obtain ⟨c, n, rfl, x, hx, hc⟩ := hk.exists_cons hw
  rw [h x hx c (by simp)] at hc
  cases hc

/-- No whole word reaches across a place beside which stands a character of no word. -/
theorem hasKeyword_append_iff (h : wordStarts s.getLast? = true ∨ wordEnds t = true) :
    HasKeyword k (s ++ t) ↔ HasKeyword k s ∨ HasKeyword k t := by
  constructor
  · rintro ⟨a, w, b, hst, hw, ha, hb⟩
    have hword := hk.isWord hw
    rcases List.append_eq_append_iff.1 hst with ⟨m, rfl, ht⟩ | ⟨m, rfl, hm⟩
    · exact Or.inr ⟨m, w, b, ht, hw, wordStarts_of_append ha, hb⟩
    · rcases List.append_eq_append_iff.1 hm with ⟨n, rfl, rfl⟩ | ⟨n, rfl, rfl⟩
      · exact Or.inl ⟨a, w, n, rfl, hw, ha, wordEnds_of_append hb⟩
      · by_cases hn : n = []
        · subst hn
          exact Or.inl ⟨a, m, [], by simp, by simpa using hw, ha, rfl⟩
        · by_cases hm : m = []
          · subst hm
            exact Or.inr ⟨[], n, b, rfl, hw, rfl, hb⟩
          · -- The word would go on where one of the texts ends it.
            rw [wordStarts_behind_word hm (fun c hc => hword c (by simp [hc])) a,
              wordEnds_before_word hn (fun c hc => hword c (by simp [hc])) b] at h
            simp at h
  · rintro (⟨a, w, b, rfl, hw, ha, hb⟩ | ⟨a, w, b, rfl, hw, ha, hb⟩)
    · refine ⟨a, w, b ++ t, by simp, hw, ha, wordEnds_append hb fun hnil => ?_⟩
      subst hnil
      rw [List.append_nil, wordStarts_behind_word (hk.ne_nil hw) (hk.isWord hw)] at h
      simpa using h
    · refine ⟨s ++ a, w, b, by simp, hw, wordStarts_append (fun hnil => ?_) ha, hb⟩
      subst hnil
      rw [List.nil_append, wordEnds_before_word (hk.ne_nil hw) (hk.isWord hw)] at h
      simpa using h

theorem HasKeyword.of_word_append (h : HasKeyword k (s ++ t)) (hs : ∀ c ∈ s, isWord c = true)
    (hhead : ∀ x ∈ k.head?, ∀ c ∈ s.head?, foldsTo x c = false) : HasKeyword k t := by
  obtain ⟨a, w, b, hst, hw, ha, hb⟩ := h
  rcases List.append_eq_append_iff.1 hst with ⟨m, rfl, ht⟩ | ⟨m, rfl, hm⟩
  · exact ⟨m, w, b, ht, hw, wordStarts_of_append ha, hb⟩
  · by_cases hnil : m = []
    · subst hnil
      exact ⟨[], w, b, hm.symm, hw, rfl, hb⟩
    · obtain ⟨c, m, rfl⟩ := List.exists_cons_of_ne_nil hnil
      obtain ⟨d, n, rfl, x, hx, hd⟩ := hk.exists_cons hw
      obtain ⟨rfl, -⟩ := List.cons.inj hm
      by_cases hempty : a = []
      · subst hempty
        rw [hhead x hx d rfl] at hd
        cases hd
      · have := wordStarts_behind_word hempty (fun c hc => hs c (by simp [hc])) []
        rw [List.nil_append, ha] at this
        cases this

theorem HasKeyword.append_left (h : HasKeyword k t)
    (hhead : ∀ x ∈ k.head?, ∀ c ∈ t.head?, foldsTo x c = false) (s : Text) : HasKeyword k (s ++ t) := by
  obtain ⟨a, w, b, rfl, hw, ha, hb⟩ := h
  refine ⟨s ++ a, w, b, by simp, hw, wordStarts_append (fun hnil => ?_) ha, hb⟩
  subst hnil
  obtain ⟨c, n, rfl, x, hx, hc⟩ := hk.exists_cons hw
  rw [hhead x hx c rfl] at hc
  cases hc

/-! ## Reading the marker -/

theorem spacedMarker_eq_some_iff {prev : Option Char} {r : Text} :
    spacedMarker k prev s = some r ↔ ∃ b w, s = b ++ (w ++ r) ∧ (∀ c ∈ b, isBlank c = true)
      ∧ (b = [] → wordStarts prev = true) ∧ IsKeyword k w ∧ wordEnds r = true := by
  constructor
  · intro h
    have hends := wordEnds_of_spacedMarker h
    obtain ⟨hstart, hkey⟩ := spacedMarker_iff_keywordEnd.1 h
    obtain ⟨w, hw, -, hfold⟩ := exists_of_keyword (keyword_of_keywordEnd hkey)
    have hs : s = s.takeWhile isBlank ++ (w ++ r) := by
      rw [← hw]
      exact List.takeWhile_append_dropWhile.symm
    refine ⟨s.takeWhile isBlank, w, hs, fun c hc => List.all_eq_true.1 List.all_takeWhile c hc,
      fun hnil => ?_, hfold, hends⟩
    cases hstart with
    | inl hstart => exact hstart
    | inr hblank =>
      cases s with
      | nil => cases hblank
      | cons c s =>
        have hc : isBlank c = true := by simpa using hblank
        simp [hc] at hnil
  · rintro ⟨b, w, rfl, hb, hstart, hw, hends⟩
    have hblanks : blanks (b ++ (w ++ r)) = w ++ r := by
      have hword := hk.isWord hw
      obtain ⟨c, n, rfl, -⟩ := hk.exists_cons hw
      rw [blanks, trimStart_append_of_blank hb]
      exact trimStart_eq_self (by simpa using isBlank_of_mem_name hword c (by simp))
    have hcond : wordStarts prev = true ∨ (b ++ (w ++ r)).head?.any isBlank = true := by
      cases b with
      | nil => exact Or.inl (hstart rfl)
      | cons c b => exact Or.inr (by simpa using hb c (by simp))
    rw [spacedMarker_iff_keywordEnd, hblanks, keywordEnd, Script.keyword_append_of_folds hw,
      Option.bind_eq_bind, Option.bind_some, if_pos hends]
    exact ⟨hcond, rfl⟩

theorem not_hasKeyword_of_passes {prev : Option Char} (h : Passes (spacedMarker k) prev s t)
    (hs : wordStarts prev = true ∨ wordEnds s = true)
    (ht : wordStarts s.getLast? = true ∨ wordEnds t = true) : ¬ HasKeyword k s := by
  rintro ⟨a, w, b, rfl, hw, ha, hb⟩
  have hnone := h a (w ++ b) rfl (by simp [hk.ne_nil hw])
  have hstart : wordStarts (a.getLast?.or prev) = true := by
    cases hl : a.getLast? with
    | some c => rwa [Option.some_or, ← hl]
    | none =>
      obtain rfl := List.getLast?_eq_none_iff.1 hl
      rw [List.nil_append, wordEnds_before_word (hk.ne_nil hw) (hk.isWord hw)] at hs
      simpa using hs
  have hends : wordEnds (b ++ t) = true := by
    refine wordEnds_append hb fun hnil => ?_
    subst hnil
    rw [List.append_nil, wordStarts_behind_word (hk.ne_nil hw) (hk.isWord hw)] at ht
    simpa using ht
  have hread : spacedMarker k (a.getLast?.or prev) (w ++ b ++ t) = some (b ++ t) :=
    (spacedMarker_eq_some_iff hk).2 ⟨[], w, by simp, by simp, fun _ => hstart, hw, hends⟩
  rw [hread] at hnone
  cases hnone

/-- The search finds whole words, and all of them. -/
theorem occurs_spacedMarker_iff : occurs (spacedMarker k) s = true ↔ HasKeyword k s := by
  rw [occurs]
  cases hf : find (spacedMarker k) none s with
  | some r =>
    obtain ⟨lead, r⟩ := r
    obtain ⟨t, rfl, ht⟩ := append_of_find hf
    obtain ⟨b, w, rfl, hb, hstart, hw, hends⟩ := (spacedMarker_eq_some_iff hk).1 ht
    have hword : HasKeyword k (lead ++ (b ++ (w ++ r))) :=
      ⟨lead ++ b, w, r, by simp, hw,
        wordStarts_append (by simpa using hstart) (wordStarts_behind_blanks hb), hends⟩
    simp [hword]
  | none =>
    have := not_hasKeyword_of_passes hk (passes_of_find_eq_none hf) (Or.inl rfl) (Or.inr rfl)
    simp [this]

theorem occurs_wholeWord_iff : occurs (wholeWord k) s = true ↔ HasKeyword k s := by
  rw [occurs, Option.isSome_iff_exists]
  constructor
  · rintro ⟨⟨lead, r⟩, hf⟩
    obtain ⟨t, rfl, ht⟩ := append_of_find hf
    obtain ⟨w, rfl, hstart, hw, hends⟩ := wholeWord_eq_some_iff.1 ht
    exact ⟨lead, w, r, rfl, hw, by simpa using hstart, hends⟩
  · rintro ⟨a, w, b, rfl, hw, ha, hb⟩
    refine Option.ne_none_iff_exists'.1 fun hnone => ?_
    have hpassed := passes_of_find_eq_none hnone a (w ++ b) rfl (by simp [hk.ne_nil hw])
    have hread : wholeWord k (a.getLast?.or none) (w ++ b ++ []) = some b :=
      wholeWord_eq_some_iff.2 ⟨w, by simp, by simpa using ha, hw, hb⟩
    rw [hread] at hpassed
    cases hpassed

/-! ## Erasing the marker -/

/-- What stands behind a marker ends it, and that is how the text before it and what is left of the
text behind it do not make a new one. -/
theorem not_hasKeyword_eraseFrom {prev : Option Char} (hs : wordStarts prev = true ∨ wordEnds s = true) :
    ¬ HasKeyword k (eraseFrom (spacedMarker k) prev 0 s) := by
  induction hn : s.length using Nat.strong_induction_on generalizing prev s with
  | _ n ih =>
    cases hf : find (spacedMarker k) prev s with
    | none =>
      rw [eraseFrom_of_find_eq_none hf]
      exact not_hasKeyword_of_passes hk (passes_of_find_eq_none hf) hs (Or.inr rfl)
    | some r =>
      obtain ⟨lead, rest⟩ := r
      obtain ⟨t, rfl, -, hpass, ht⟩ := passes_of_find hf
      obtain ⟨b, w, rfl, hb, hstart, hw, hends⟩ := (spacedMarker_eq_some_iff hk).1 ht
      have hne : b ++ w ≠ [] := by simp [hk.ne_nil hw]
      have hlead : wordStarts lead.getLast? = true ∨ wordEnds (b ++ (w ++ rest)) = true := by
        cases b with
        | nil =>
          have := hstart rfl
          cases hl : lead.getLast? with
          | none => exact Or.inl rfl
          | some c => exact Or.inl (by rwa [hl, Option.some_or] at this)
        | cons c b =>
          have hc := not_isWord_of_isBlank (hb c (by simp))
          exact Or.inr (by simp [wordEnds, hc])
      have hnot := not_hasKeyword_of_passes hk hpass (hs.imp_right wordEnds_of_append) hlead
      rw [← List.append_assoc b w rest] at hpass ht ⊢
      rw [eraseFrom_reads hpass ht hne]
      have hshort : rest.length < n := by
        have := List.length_pos_iff.2 hne
        simp only [List.length_append] at hn this
        omega
      let behind := (lead ++ (b ++ w)).getLast?.or prev
      have hrest : ¬ HasKeyword k (eraseFrom (spacedMarker k) behind 0 rest) :=
        ih rest.length hshort (Or.inr hends) rfl
      have hends' : wordEnds (eraseFrom (spacedMarker k) behind 0 rest) = true := by
        refine eraseFrom_wordEnds (n := 0) (fun hr => ?_) (fun _ hr => wordEnds_of_spacedMarker hr)
          hends _
        obtain ⟨b', w', hs', -, -, hw', -⟩ := (spacedMarker_eq_some_iff hk).1 hr
        exact ⟨b' ++ w', by simp [hs'], by simp [hk.ne_nil hw']⟩
      rw [hasKeyword_append_iff hk (Or.inr hends')]
      exact not_or.2 ⟨hnot, hrest⟩

theorem not_hasKeyword_eraseAll (s : Text) : ¬ HasKeyword k (eraseAll (spacedMarker k) s) :=
  not_hasKeyword_eraseFrom hk (Or.inl rfl)

end

theorem not_foldsTo_head_marker (d : Dialect) {p : Char → Prop} (hp : ∀ c, p c → foldsTo 'A' c = false) :
    ∀ x ∈ d.marker.head?, ∀ c, p c → foldsTo x c = false := by
  intro x hx
  obtain rfl : 'A' = x := by
    cases d
    · exact Option.some.inj hx
    · exact Option.some.inj hx
  exact hp

theorem not_hasKeyword_marker (d : Dialect) {s : Text} (h : ∀ c ∈ s, foldsTo 'A' c = false) :
    ¬ HasKeyword d.marker s :=
  not_hasKeyword_of_letters (areKeywords_marker d) (not_foldsTo_head_marker d h)

/-! ## The phrase -/

instance (d : Dialect) (s : Text) : Decidable (HasKeyword d.marker s) :=
  decidable_of_iff _ (occurs_spacedMarker_iff (areKeywords_marker d))

theorem respellMarker_eq_none_iff_not_hasKeyword {d : Direction} {s : Text} :
    respellMarker d s = none ↔ ¬ HasKeyword d.source.marker s := by
  rw [respellMarker_eq_none_iff, ← occurs_spacedMarker_iff (areKeywords_marker _),
    Bool.not_eq_true]

theorem exists_of_respellMarker {d : Direction} {s s' : Text} (h : respellMarker d s = some s') :
    ∃ u v, s' = u ++ (keyPhrase d ++ v) ∧ wordStarts u.getLast? = true ∧ wordEnds v = true
      ∧ ¬ HasKeyword d.source.marker u ∧ ¬ HasKeyword d.source.marker v := by
  have hk := areKeywords_marker d.source
  have hblank : ¬ HasKeyword d.source.marker [' '] := not_hasKeyword_marker _ (by decide)
  have hstrip := not_hasKeyword_eraseAll hk s
  have hcase := (respellMarker_cases h).2
  generalize eraseAll (spacedMarker d.source.marker) s = t at hstrip hcase
  obtain ⟨hkey, rfl⟩ | ⟨-, rfl⟩ := hcase
  · obtain ⟨⟨u, v⟩, hf⟩ := Option.isSome_iff_exists.1 hkey
    obtain ⟨r, rfl, hr⟩ := append_of_find hf
    obtain ⟨hstart, m, hm, rfl, hends⟩ := primaryKey_eq_some_iff.1 hr
    rw [Option.or_none] at hstart
    rw [hasKeyword_append_iff hk (Or.inl hstart), hasKeyword_append_iff hk (Or.inr hends), not_or,
      not_or] at hstrip
    refine ⟨u, v, ?_, hstart, hends, hstrip.1, hstrip.2.2⟩
    rw [replaceFirst, hf]
    simp
  · refine ⟨t ++ [' '], [], by simp, ?_, rfl, ?_, not_hasKeyword_marker _ (by simp)⟩
    · exact wordStarts_append (by simp) (wordStarts_of_isAscii (by decide))
    · rw [hasKeyword_append_iff hk (Or.inr (wordEnds_blank []))]
      exact not_or.2 ⟨hstrip, hblank⟩

theorem not_hasKeyword_respelled {d : Direction} {s s' : Text} (h : respellMarker d s = some s') :
    ¬ HasKeyword d.source.marker s' := by
  have hk := areKeywords_marker d.source
  have hphrase : ¬ HasKeyword d.source.marker (keyPhrase d) := by
    cases d
    · decide +kernel
    · decide +kernel
  obtain ⟨u, v, rfl, hstart, hends, hu, hv⟩ := exists_of_respellMarker h
  rw [hasKeyword_append_iff hk (Or.inl hstart), hasKeyword_append_iff hk (Or.inr hends)]
  simp [hu, hv, hphrase]

theorem not_hasKeyword_rewritten (m : TypeMap) (d : Direction) (line : Text) :
    ¬ HasKeyword d.source.marker (rewritten m d line) := by
  rw [rewritten]
  cases h : respellMarker d (retyped m d line) with
  | none => exact respellMarker_eq_none_iff_not_hasKeyword.1 h
  | some s => exact not_hasKeyword_respelled h

theorem keyPhrase_infix_rewritten {m : TypeMap} {d : Direction} {line : Text}
    (h : HasKeyword d.source.marker (retyped m d line)) : keyPhrase d <:+: rewritten m d line := by
  rw [rewritten]
  cases hr : respellMarker d (retyped m d line) with
  | none => exact absurd h (respellMarker_eq_none_iff_not_hasKeyword.1 hr)
  | some s =>
    obtain ⟨u, v, rfl, -⟩ := exists_of_respellMarker hr
    exact ⟨u, v, by simp⟩

/-! ## The type -/

theorem head?_rest_of_typedName {s : Text} {t : TypedName} (h : typedName s = some t)
    (hsize : t.size = []) : t.rest.head?.any Char.isAlpha = false := by
  have hkeyword := keyword_of_typedName h
  rw [hsize, List.nil_append,
    List.takeWhile_append_of_pos (spells_of_typedName h).isAlpha_keyword] at hkeyword
  cases hr : t.rest with
  | nil => rfl
  | cons c r =>
    by_cases hc : c.isAlpha = true
    · simp [hr, hc] at hkeyword
    · simpa using hc

theorem not_foldsTo_of_isDigit {c : Char} (h : c.isDigit = true) : foldsTo 'A' c = false := by
  have hc : c.toNat < 128 := lt_of_isMarkerChar (by simp [isMarkerChar, Char.isAlphanum, h])
  exact forall_ascii (p := fun c => c.isDigit = true → foldsTo 'A' c = false) (by decide) hc h

/-- A type of the target dialect is a word that starts with another letter than the marker, and has
a length in parentheses perhaps. -/
theorem exists_word_of_target {m : TypeMap} {d : Direction} {s : Text} {mapping : Mapping}
    (h : m.ofDeclared? d s = some mapping) : ∃ w g, mapping.target = w ++ g
      ∧ (∀ c ∈ w, isWord c = true) ∧ (∀ c ∈ w.head?, foldsTo 'A' c = false)
      ∧ (∀ c ∈ g, foldsTo 'A' c = false) ∧ wordStarts g.getLast? = true := by
  have hword : ∀ {w : Text}, w.all isAsciiWord = true → (w.head?.all fun c => !foldsTo 'A' c) = true →
      ∃ w' g, w = w' ++ g ∧ (∀ c ∈ w', isWord c = true) ∧ (∀ c ∈ w'.head?, foldsTo 'A' c = false)
        ∧ (∀ c ∈ g, foldsTo 'A' c = false) ∧ wordStarts g.getLast? = true := by
    intro w hw hhead
    refine ⟨w, [], (List.append_nil w).symm, fun c hc => ?_, fun c hc => ?_, by simp, rfl⟩
    · exact isWord_of_ascii (List.all_eq_true.1 hw c hc)
    · simpa [Option.mem_def.1 hc] using hhead
  cases d with
  | mysqlToSqlite =>
    obtain ⟨c, hc⟩ := TypeMap.exists_name_eq_target h
    rw [← hc]
    cases c <;> exact hword (by decide) (by decide)
  | sqliteToMysql =>
    obtain ⟨c, hc⟩ := TypeMap.exists_toMysql_eq_target h
    rw [← hc]
    cases c with
    | text =>
      refine ⟨"VARCHAR".toList, '(' :: (ofNat m.textLength ++ [')']), ?_,
        fun c hc => isWord_of_ascii ?_, fun c hc => ?_, fun c hc => ?_, ?_⟩
      · show "VARCHAR(".toList ++ ofNat m.textLength ++ ")".toList = _
        simp
      · revert c
        decide
      · obtain rfl : 'V' = c := Option.some.inj hc
        decide
      · simp only [List.mem_cons, List.mem_append, List.not_mem_nil, or_false] at hc
        rcases hc with rfl | hc | rfl
        · decide
        · exact not_foldsTo_of_isDigit (Nat.isDigit_of_mem_toDigits (by decide) (by decide) hc)
        · decide
      · rw [← List.cons_append, List.getLast?_concat]
        exact wordStarts_of_isAscii (by decide)
    | integer => exact hword rfl rfl
    | real => exact hword rfl rfl
    | blob => exact hword rfl rfl
    | numeric => exact hword rfl rfl

theorem isAlpha_of_foldsTo {c : Char} (h : foldsTo 'A' c = true) : c.isAlpha = true := by
  refine isAlpha_of_toUpper ?_
  rw [toUpper_of_foldsTo (by decide) (by decide) h]
  decide

/-- A marker behind the new type stood behind the old one. -/
theorem hasKeyword_of_target {m : TypeMap} {d : Direction} {u : Text} {t : TypedName} {mapping : Mapping}
    (hu : typedName u = some t) (hm : m.ofDeclared? d t.declaredType = some mapping)
    (h : HasKeyword d.source.marker (mapping.target ++ t.rest)) :
    HasKeyword d.source.marker (t.declaredType ++ t.rest) := by
  have hk := areKeywords_marker d.source
  have hA {p : Char → Prop} (hp : ∀ c, p c → foldsTo 'A' c = false) :=
    not_foldsTo_head_marker d.source hp
  obtain ⟨w, g, htarget, hw, hhead, hg, hlast⟩ := exists_word_of_target hm
  rw [htarget, List.append_assoc] at h
  have hbehind := (hasKeyword_append_iff hk (Or.inl hlast)).1 (h.of_word_append hk hw (hA hhead))
  have hrest : HasKeyword d.source.marker t.rest :=
    hbehind.resolve_left (not_hasKeyword_marker _ hg)
  cases (spells_of_typedName hu).size with
  | inl hnil =>
    -- No letter follows the keyword, so no marker starts right behind it.
    refine hrest.append_left hk (hA fun c hc => ?_) _
    have hletter := head?_rest_of_typedName hu hnil
    rw [Option.mem_def.1 hc, Option.any_some] at hletter
    by_contra hf
    rw [isAlpha_of_foldsTo (by simpa using hf)] at hletter
    cases hletter
  | inr hsize =>
    obtain ⟨b, g, hsize, -⟩ := hsize
    have hclosed : wordStarts t.declaredType.getLast? = true := by
      rw [TypedName.declaredType, hsize, ← List.cons_append, ← List.append_assoc, ← List.append_assoc,
        List.getLast?_concat]
      exact wordStarts_of_isAscii (by decide)
    exact (hasKeyword_append_iff hk (Or.inl hclosed)).2 (Or.inr hrest)

theorem hasKeyword_of_convertType {m : TypeMap} {d : Direction} {table? : Option Text} {s : Text}
    (h : HasKeyword d.source.marker (convertType m d table? s).line) : HasKeyword d.source.marker s := by
  have hk := areKeywords_marker d.source
  obtain hsame | ⟨lead, u, t, mapping, -, hu, hm, hold, hnew⟩ :=
    line_convertType_cases m d table? s
  · rwa [hsame] at h
  · obtain ⟨hgap, hblanks⟩ := gap_of_typedName hu
    -- The type begins behind a blank, so it is read apart from what is before it.
    have hstart : wordStarts (lead ++ t.name ++ t.gap).getLast? = true :=
      wordStarts_append (fun hnil => absurd hnil hgap) (wordStarts_behind_blanks hblanks)
    rw [hnew, hasKeyword_append_iff hk (Or.inl hstart)] at h
    rw [hold, hasKeyword_append_iff hk (Or.inl hstart)]
    exact h.imp_right (hasKeyword_of_target hu hm)

end SchemaDialects.Definition
