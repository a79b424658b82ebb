import SchemaDialects.Definition.Convert
import SchemaDialects.Proofs.Definition.Chunks
import SchemaDialects.Proofs.Text.Erasing

/-!
# Definitions that keep their outline

What is taken out of a tame definition stands in an item that has begun, and not
between two characters that are read together. Main statement: the converted
line moves the reader as the line does.
-/

namespace SchemaDialects.Definition

open Text Script

/-! ## Erasing -/

/-- Where `f` reads something in `s`, the reader that was `r` before `s` is
settled. -/
def ReadsSettled (f : Reader Text) (r : Reading) (s : Text) : Prop :=
  ∀ a b rest, s = a ++ b → f a.getLast? b = some rest → (r.run a).IsSettled

theorem readsSettled_iff (f : Reader Text) (r : Reading) (s : Text) :
    ReadsSettled f r s ↔ ∀ n ∈ List.range (s.length + 1),
      (f (s.take n).getLast? (s.drop n)).isSome = true → (r.run (s.take n)).IsSettled := by
  rw [← forall_places_iff (P := fun a b => (f a.getLast? b).isSome = true → (r.run a).IsSettled)]
  simp only [ReadsSettled, Option.isSome_iff_exists, forall_exists_index]
  exact forall₂_congr fun a b => forall_comm

instance (f : Reader Text) (r : Reading) (s : Text) : Decidable (ReadsSettled f r s) :=
  decidable_of_iff _ (readsSettled_iff f r s).symm

theorem run_eraseAll {f : Reader Text} {r : Reading} {s : Text}
    (h : ∀ a b rest, s = a ++ b → f a.getLast? b = some rest →
      ∃ m, b = m ++ rest ∧ m ≠ [] ∧ (r.run a).run m = r.run a) :
    r.run (eraseAll f s) = r.run s :=
  foldl_eraseAll h

section
variable {r : Reading} {s : Text} (hbreak : '\n' ∉ s)
include hbreak

theorem run_eraseAll_words {f : Reader Text} (hf : ∀ prev, TakesSome (f prev))
    (h : ReadsSettled f r s) : r.run (eraseAll f s) = r.run s := by
  refine run_eraseAll fun a b rest hs hr => ?_
  obtain ⟨m, rfl, hne, hm⟩ := hf _ hr
  have hord := isOrdinary_of_part hm (fun c hc => by simp [hs, hc]) hbreak
  exact ⟨m, rfl, hne, Reading.run_of_steady (h a _ rest hs hr).steady hord⟩

theorem run_eraseAll_onUpdate (h : ReadsSettled (anywhere onUpdate) r s) :
    r.run (eraseAll (anywhere onUpdate) s) = r.run s := by
  refine run_eraseAll fun a b rest hs hr => ?_
  have hsettled := h a b rest hs hr
  obtain ⟨m, g, rfl, hne, hm, hg⟩ := exists_of_onUpdate hr
  have hord := isOrdinary_of_part hm (fun c hc => by simp [hs, hc]) hbreak
  refine ⟨m ++ g, by simp, by simp [hne], ?_⟩
  rw [Reading.run_append, Reading.run_of_steady hsettled.steady hord]
  rcases hg with rfl | ⟨ds, rfl, hds⟩
  · rfl
  · exact hsettled.run_group fun c hc => Or.inl (hds c hc)

end

/-! ## Quotes

In an item that has begun quotes leave the place as it is. -/

section
variable {p : Place} (hp : p.fill = p) (q : Quote)
include hp

theorem step_openQuote : Reading.step ⟨.plain, p⟩ q.char = ⟨.quoted q, p⟩ := by
  have hread : p.readPlain q.char = p.fill := by
    rcases p with _ | ⟨_ | n, b⟩ | ⟨_ | n⟩ | k | _ <;> cases q <;> rfl
  have hlexical : Lexical.plain.step q.char = .quoted q := by cases q <;> rfl
  simp [Reading.step, hlexical, hread, hp]

theorem step_closeQuote : Reading.step ⟨.quoted q, p⟩ q.char = ⟨.plain, p⟩ := by
  have hlexical : (Lexical.quoted q).step q.char = .plain := by cases q <;> rfl
  simp [Reading.step, hlexical, hp]

theorem step_withinQuotes {c : Char} (hq : c ≠ q.char) (hb : c ≠ '\\') :
    Reading.step ⟨.quoted q, p⟩ c = ⟨.quoted q, p⟩ := by
  simp [Reading.step, Lexical.step, hq, hb, hp]

end

/-! ## Comment clauses -/

/-- The literal of a comment clause ends where its quotes do. -/
theorem run_literalRest {p : Place} (hp : p.fill = p) {s rest : Text}
    (h : literalRest s = some rest) :
    ∃ m, s = m ++ rest ∧ Reading.run ⟨.quoted .single, p⟩ m = ⟨.plain, p⟩ := by
  have hclose : Reading.step ⟨.quoted .single, p⟩ '\'' = ⟨.plain, p⟩ := step_closeQuote hp .single
  have hopen : Reading.step ⟨.plain, p⟩ '\'' = ⟨.quoted .single, p⟩ := step_openQuote hp .single
  have hescape : ∀ c, Reading.run ⟨.quoted .single, p⟩ ['\\', c] = ⟨.quoted .single, p⟩ := by
    intro c
    simp [Reading.step, Lexical.step, Quote.escapes, hp]
  fun_induction literalRest s with
  | case1 s ih =>
    rcases Option.or_eq_some_iff.1 h with h | ⟨-, h⟩
    · obtain ⟨m, rfl, hm⟩ := ih h
      exact ⟨'\'' :: '\'' :: m, rfl, by rw [Reading.run_cons, Reading.run_cons, hclose, hopen, hm]⟩
    · obtain rfl := Option.some.inj h
      exact ⟨['\''], rfl, hclose⟩
  | case2 s hs =>
    obtain rfl := Option.some.inj h
    exact ⟨['\''], rfl, hclose⟩
  | case3 s => cases h
  | case4 c s hc ih =>
    obtain ⟨m, rfl, hm⟩ := ih h
    refine ⟨'\\' :: c :: m, rfl, ?_⟩
    rw [show '\\' :: c :: m = ['\\', c] ++ m from rfl, Reading.run_append, hescape, hm]
  | case5 => cases h
  | case6 c s hdouble hquote hescaped hback ih =>
    obtain ⟨m, rfl, hm⟩ := ih h
    have hb : c ≠ '\\' := by
      intro hc
      cases hs : m ++ rest with
      | nil => exact hback hc hs
      | cons d t => exact hescaped d t hc hs
    exact ⟨c :: m, rfl, by rw [Reading.run_cons, step_withinQuotes hp .single hquote hb, hm]⟩
  | case7 => cases h

/-- Where a comment clause is read in `s`, the reader is settled and outside
quotes and comments. -/
def CommentsSettled (r : Reading) (s : Text) : Prop :=
  ∀ a b rest, s = a ++ b → commentClause b = some rest →
    (r.run a).IsSettled ∧ (r.run a).lexical = .plain

theorem commentsSettled_iff (r : Reading) (s : Text) :
    CommentsSettled r s ↔ ∀ n ∈ List.range (s.length + 1), (commentClause (s.drop n)).isSome = true →
      (r.run (s.take n)).IsSettled ∧ (r.run (s.take n)).lexical = .plain := by
  rw [← forall_places_iff (P := fun a b => (commentClause b).isSome = true →
    (r.run a).IsSettled ∧ (r.run a).lexical = .plain)]
  simp only [CommentsSettled, Option.isSome_iff_exists, forall_exists_index]
  exact forall₂_congr fun a b => forall_comm

instance (r : Reading) (s : Text) : Decidable (CommentsSettled r s) :=
  decidable_of_iff _ (commentsSettled_iff r s).symm

theorem run_eraseAll_comment {r : Reading} {s : Text} (hbreak : '\n' ∉ s)
    (h : CommentsSettled r s) : r.run (eraseAll (anywhere commentClause) s) = r.run s := by
  refine run_eraseAll fun a b rest hs hr => ?_
  obtain ⟨hsettled, hplain⟩ := h a b rest hs hr
  obtain ⟨m, t, rfl, hne, hm, ht⟩ := exists_of_commentClause hr
  have hord := isOrdinary_of_part hm (fun c hc => by simp [hs, hc]) hbreak
  have hfill := Reading.fill_of_steady hsettled.steady (Or.inl hplain)
  generalize r.run a = u at hsettled hplain hfill
  obtain ⟨l, p⟩ := u
  obtain rfl : l = .plain := hplain
  obtain ⟨n, rfl, hn⟩ := run_literalRest hfill ht
  have hopen : Reading.step ⟨.plain, p⟩ '\'' = ⟨.quoted .single, p⟩ :=
    step_openQuote hfill .single
  refine ⟨m ++ '\'' :: n, by simp, by simp, ?_⟩
  rw [Reading.run_append, Reading.run_of_steady hsettled.steady hord, Reading.run_cons, hopen, hn]

/-! ## Names of unique keys -/

theorem run_quotedName {p : Place} (hp : p.fill = p) {a : Text} (hq : '"' ∉ a) (hb : '\\' ∉ a) :
    Reading.run ⟨.plain, p⟩ ('"' :: (a ++ ['"'])) = ⟨.plain, p⟩ := by
  have hopen : Reading.step ⟨.plain, p⟩ '"' = ⟨.quoted .double, p⟩ := step_openQuote hp .double
  have hclose : Reading.step ⟨.quoted .double, p⟩ '"' = ⟨.plain, p⟩ := step_closeQuote hp .double
  have hrun : Reading.run ⟨.quoted .double, p⟩ a = ⟨.quoted .double, p⟩ := by
    induction a with
    | nil => rfl
    | cons c a ih =>
      have hcq : c ≠ '"' := fun hc => hq (by simp [hc])
      have hcb : c ≠ '\\' := fun hc => hb (by simp [hc])
      rw [Reading.run_cons, step_withinQuotes hp .double hcq hcb, ih (fun hm => hq (by simp [hm])) fun hm => hb (by simp [hm])]
  rw [Reading.run_cons, hopen, Reading.run_append, hrun, Reading.run_cons, hclose, Reading.run_nil]

theorem run_withoutUniqueName {r : Reading} {s : Text} (hbreak : '\n' ∉ s)
    (h : ∀ rest, uniqueKey s = some rest → r.lexical = .plain ∧ '\\' ∉ before s rest) :
    r.run (withoutUniqueName s) = r.run s := by
  unfold withoutUniqueName
  cases hu : uniqueKey s with
  | none => rfl
  | some rest =>
    obtain ⟨hplain, hback⟩ := h rest hu
    obtain ⟨l, p⟩ := r
    obtain rfl : l = .plain := hplain
    obtain ⟨c, m, n, b, rfl, hb, hm, hbp, hn⟩ := exists_of_uniqueKey hu
    have hmord := isOrdinary_of_part (s := c :: (m ++ (n ++ (b ++ '(' :: rest)))) hm
      (fun x hx => by rw [← List.cons_append]; exact List.mem_append_left _ hx) hbreak
    have hbord := isOrdinary_of_part (s := c :: (m ++ (n ++ (b ++ '(' :: rest)))) hbp
      (fun x hx => by simp [hx]) hbreak
    -- Both spellings start with a word and go on with the parenthesis.
    have hword : Reading.run ⟨.plain, p⟩ (c :: m) = ⟨.plain, p.fill⟩ := by
      rw [Reading.run_word _ hb hmord]
      have hread := Place.readPlain_of_isOrdinary (c := 'A') (by decide) p
      rw [if_neg (by decide)] at hread
      simp [Reading.step, Lexical.step, Lexical.opening, Quote.ofChar?, hread]
    have hsteady : Reading.step ⟨.plain, p.fill⟩ 'A' = ⟨.plain, p.fill⟩ := by
      rw [← hword, Reading.run_word _ hb hmord, Reading.steady_step]
    have hname : Reading.run ⟨.plain, p.fill⟩ n = ⟨.plain, p.fill⟩ := by
      rcases hn with ⟨a, rfl, ha⟩ | hn
      · refine run_quotedName (Place.fill_fill p) ha fun hm => hback ?_
        have heq : c :: (m ++ ('"' :: (a ++ ['"']) ++ (b ++ '(' :: rest)))
            = (c :: (m ++ ('"' :: (a ++ ['"']) ++ (b ++ ['('])))) ++ rest := by simp
        rw [heq, before_append_self]
        simp [hm]
      · exact Reading.run_of_steady hsteady (isOrdinary_of_part hn (fun x hx => by simp [hx]) hbreak)
    have hold : Reading.run ⟨.plain, p⟩ (c :: (m ++ (n ++ (b ++ '(' :: rest))))
        = Reading.run ⟨.plain, p.fill⟩ ('(' :: rest) := by
      rw [← List.cons_append, Reading.run_append, hword, Reading.run_append, hname,
        Reading.run_append, Reading.run_of_steady hsteady hbord]
    have hnew : Reading.run ⟨.plain, p⟩ "UNIQUE ".toList = ⟨.plain, p.fill⟩ := by
      rw [← hword, Reading.run_word _ hb hmord]
      exact Reading.run_word _ (by decide) (by decide)
    have hsplit : "UNIQUE (".toList ++ rest = "UNIQUE ".toList ++ '(' :: rest := by simp
    simp only
    rw [hsplit, Reading.run_append, hnew, hold]

/-! ## Types -/

section
variable {r : Reading}

theorem opened_step (h : r.place ≠ .before) : (r.step 'A').place ≠ .before := by
  obtain ⟨l, p⟩ := r
  have hfill : p.fill ≠ .before := by cases p <;> simp_all [Place.fill]
  have hpass : p.pass ≠ .before := by cases p <;> simp_all [Place.pass]
  have hread : ∀ p : Place, p.readPlain 'A' = p.fill := fun p => by
    rw [Place.readPlain_of_isOrdinary (by decide), if_neg (by decide)]
  cases l <;> simp [Reading.step, hread, hfill, hpass]

theorem isSettled_step (h : r.place ≠ .before) : (r.step 'A').IsSettled :=
  ⟨Reading.steady_step r, opened_step h⟩

/-- A type in the target dialect is a word, with a length perhaps. -/
theorem exists_target {m : TypeMap} {d : Direction} {s : Text} {mapping : Mapping}
    (hm : m.ofDeclared? d s = some mapping) :
    ∃ c w g, mapping.target = c :: w ++ g ∧ isBlank c = false
      ∧ (∀ x ∈ c :: w, isOrdinary x = true)
      ∧ (g = [] ∨ ∃ ds, g = '(' :: (ds ++ [')']) ∧ ∀ x ∈ ds, isOrdinary x = true) := by
  have hword : ∀ {c : Char} {w : Text}, isBlank c = false → (∀ x ∈ c :: w, isOrdinary x = true) →
      ∃ c' w' g, c :: w = c' :: w' ++ g ∧ isBlank c' = false ∧ (∀ x ∈ c' :: w', isOrdinary x = true)
        ∧ (g = [] ∨ ∃ ds, g = '(' :: (ds ++ [')']) ∧ ∀ x ∈ ds, isOrdinary x = true) := by
    intro c w hb hw
    exact ⟨c, w, [], (List.append_nil _).symm, hb, hw, Or.inl rfl⟩
  cases d with
  | mysqlToSqlite =>
    obtain ⟨k, hk⟩ := TypeMap.exists_name_eq_target hm
    rw [← hk]
    cases k <;> exact hword (by decide) (by decide)
  | sqliteToMysql =>
    obtain ⟨k, hk⟩ := TypeMap.exists_toMysql_eq_target hm
    rw [← hk]
    cases k with
    | text =>
      refine ⟨'V', "ARCHAR".toList, '(' :: (ofNat m.textLength ++ [')']), ?_, by decide, by decide,
        Or.inr ⟨_, rfl, fun x hx => ?_⟩⟩
      · show "VARCHAR(".toList ++ ofNat m.textLength ++ ")".toList = _
        simp
      · exact isOrdinary_of_class (p := Char.isDigit) (by decide)
          (Nat.isDigit_of_mem_toDigits (by decide) (by decide) hx)
    | integer => exact hword (by decide) (by decide)
    | real => exact hword (by decide) (by decide)
    | blob => exact hword (by decide) (by decide)
    | numeric => exact hword (by decide) (by decide)

theorem run_target (h : r.place ≠ .before) {m : TypeMap} {d : Direction} {s : Text}
    {mapping : Mapping} (hm : m.ofDeclared? d s = some mapping) :
    r.run mapping.target = r.step 'A' := by
  obtain ⟨c, w, g, ht, hb, hw, hg⟩ := exists_target hm
  rw [ht, Reading.run_append, Reading.run_word r hb hw]
  rcases hg with rfl | ⟨ds, rfl, hds⟩
  · rfl
  · exact (isSettled_step h).run_group fun x hx => Or.inl (hds x hx)

/-- Where the line's type stands, the list has been opened. -/
def TypeOpened (r : Reading) (s : Text) : Prop :=
  ∀ lead t, typedName? s = some (lead, t) → (r.run (lead ++ (t.name ++ t.gap))).place ≠ .before

instance (r : Reading) (s : Text) : Decidable (TypeOpened r s) :=
  match h : typedName? s with
  | none => .isTrue fun lead t ht => by rw [h] at ht; cases ht
  | some (lead, t) =>
    decidable_of_iff ((r.run (lead ++ (t.name ++ t.gap))).place ≠ .before)
      ⟨fun hp _ _ ht => by rw [h] at ht; cases ht; exact hp, fun hp => hp lead t h⟩

/-- A type as it is spelled is read like its first letter. -/
theorem run_declaredType (h : r.place ≠ .before) {s : Text} {t : TypedName} (ht : t.Spells s)
    (hbreak : '\n' ∉ t.size) : r.run t.declaredType = r.step 'A' := by
  obtain ⟨-, ⟨c, w, hcw, halpha⟩, hsize⟩ := ht
  have hkeyword : r.run t.keyword = r.step 'A' := by
    rw [hcw]
    refine Reading.run_word r ?_ fun x hx => isOrdinary_of_isAlpha (halpha x hx)
    exact isBlank_of_isMarkerChar (isMarkerChar_of_isAlpha (halpha c (by simp)))
  have hsettled := isSettled_step h
  rw [TypedName.declaredType, Reading.run_append, hkeyword]
  rcases hsize with hnil | ⟨b, g, hbg, hb, hg⟩
  · rw [hnil]
    rfl
  · rw [hbg] at hbreak ⊢
    have hbord := isOrdinary_of_part hb (fun _ => List.mem_append_left _) hbreak
    have hgord : ∀ x ∈ g, isOrdinary x = true ∨ x = ',' := by
      intro x hx
      rcases hg x hx with (h | rfl) | h
      · exact Or.inl h
      · exact absurd (by simp [hx]) hbreak
      · exact Or.inr h
    rw [Reading.run_append, Reading.run_of_steady hsettled.steady hbord]
    exact hsettled.run_group hgord

theorem run_convertType {s : Text} (hbreak : '\n' ∉ s) (h : TypeOpened r s) (m : TypeMap)
    (d : Direction) (table : Option Text) : r.run (convertType m d table s).line = r.run s := by
  obtain hsame | ⟨lead, u, t, mapping, ht, hu, hm, hold, hnew⟩ := line_convertType_cases m d table s
  · rw [hsame]
  · have hopened := h lead t ht
    have hsize : '\n' ∉ t.size := fun hx => hbreak (by simp [hold, TypedName.declaredType, hx])
    have hrun : ∀ v, r.run (lead ++ t.name ++ t.gap ++ v)
        = (r.run (lead ++ (t.name ++ t.gap))).run v := fun v => by
      rw [List.append_assoc lead, Reading.run_append]
    rw [hnew, hold, hrun, hrun, Reading.run_append _ mapping.target, run_target hopened hm,
      Reading.run_append _ t.declaredType, run_declaredType hopened (spells_of_typedName hu) hsize]

end

/-! ## Markers -/

theorem run_keyPhrase (r : Reading) (d : Direction) : r.run (keyPhrase d) = r.step 'A' := by
  cases d <;> exact Reading.run_word r (by decide) (by decide)

theorem run_replaceFirst_primaryKey {r : Reading} {s : Text} (hbreak : '\n' ∉ s) (d : Direction) :
    r.run (replaceFirst primaryKey (keyPhrase d) s) = r.run s := by
  unfold replaceFirst
  cases hf : find primaryKey none s with
  | none => rfl
  | some x =>
    obtain ⟨lead, rest⟩ := x
    obtain ⟨u, rfl, hu⟩ := append_of_find hf
    obtain ⟨c, m, rfl, hb, hm⟩ := takesWord_primaryKey _ hu
    have hord := isOrdinary_of_part (s := lead ++ c :: (m ++ rest)) hm
      (fun x hx => List.mem_append_right _ (by
        rw [← List.cons_append]; exact List.mem_append_left _ hx)) hbreak
    simp only
    rw [List.append_assoc, Reading.run_append, Reading.run_append, run_keyPhrase,
      Reading.run_append, ← List.cons_append, Reading.run_append, Reading.run_word _ hb hord]

theorem run_respellMarker {r : Reading} {s s' : Text} (hbreak : '\n' ∉ s) {d : Direction}
    (h : ReadsSettled (spacedMarker d.source.marker) r s) (hend : (r.run s).step 'A' = r.run s)
    (hs : respellMarker d s = some s') : r.run s' = r.run s := by
  have hstrip := run_eraseAll_words hbreak (takesSome_spacedMarker d.source) h
  obtain ⟨-, ⟨-, rfl⟩ | ⟨-, rfl⟩⟩ := respellMarker_cases hs
  · have hbreak' : '\n' ∉ eraseAll (spacedMarker d.source.marker) s := not_mem_eraseAll _ hbreak
    rw [run_replaceFirst_primaryKey hbreak', hstrip]
  · have hsteady : (r.run (eraseAll (spacedMarker d.source.marker) s)).step 'A'
        = r.run (eraseAll (spacedMarker d.source.marker) s) := by rw [hstrip, hend]
    rw [Reading.run_append, Reading.run_cons, Reading.step_of_steady hsteady (by decide),
      run_keyPhrase, hsteady, hstrip]

/-! ## The whole line -/

/-- What is left of a definition before its type is converted. -/
def cleaned : Direction → Text → Text
  | .mysqlToSqlite, line => withoutAttributes (withoutUniqueName line)
  | .sqliteToMysql, line => line

/-- What is taken out of a definition, read from `r` on, stands in an
item that has begun. -/
structure IsTame (m : TypeMap) (d : Direction) (r : Reading) (line : Text) : Prop where
  uniqueName : d = .mysqlToSqlite → ∀ rest, uniqueKey line = some rest →
    r.lexical = .plain ∧ '\\' ∉ before line rest
  updates : d = .mysqlToSqlite →
    ReadsSettled (anywhere onUpdate) r (withoutUniqueName line)
  comments : d = .mysqlToSqlite →
    CommentsSettled r (eraseAll (anywhere onUpdate) (withoutUniqueName line))
  attributes : d = .mysqlToSqlite →
    ReadsSettled (anywhere typeAttribute) r
      (eraseAll (anywhere commentClause) (eraseAll (anywhere onUpdate) (withoutUniqueName line)))
  type : TypeOpened r (cleaned d line)
  marker : ReadsSettled (spacedMarker d.source.marker) r
    (convertType m d none (cleaned d line)).line
  last : occurs (spacedMarker d.source.marker) (convertType m d none (cleaned d line)).line = true →
    (r.run line).step 'A' = r.run line

instance (m : TypeMap) (d : Direction) (r : Reading) (line : Text) :
    Decidable (IsTame m d r line) :=
  let updated := eraseAll (anywhere onUpdate) (withoutUniqueName line)
  let typed := (convertType m d none (cleaned d line)).line
  decidable_of_iff
    ((d = .mysqlToSqlite → ((uniqueKey line).all fun rest =>
        r.lexical = .plain ∧ '\\' ∉ before line rest) = true)
      ∧ (d = .mysqlToSqlite → ReadsSettled (anywhere onUpdate) r (withoutUniqueName line))
      ∧ (d = .mysqlToSqlite → CommentsSettled r updated)
      ∧ (d = .mysqlToSqlite →
        ReadsSettled (anywhere typeAttribute) r (eraseAll (anywhere commentClause) updated))
      ∧ TypeOpened r (cleaned d line)
      ∧ ReadsSettled (spacedMarker d.source.marker) r typed
      ∧ (occurs (spacedMarker d.source.marker) typed = true →
        (r.run line).step 'A' = r.run line)) <| by
    constructor
    · intro ⟨hname, hupdates, hcomments, hattributes, htype, hmarker, hlast⟩
      refine ⟨fun hd rest hr => ?_, hupdates, hcomments, hattributes, htype, hmarker, hlast⟩
      have hall := hname hd
      rw [hr] at hall
      simpa using hall
    · intro h
      refine ⟨fun hd => ?_, h.updates, h.comments, h.attributes, h.type, h.marker, h.last⟩
      cases hr : uniqueKey line with
      | none => rfl
      | some rest => simpa using h.uniqueName hd rest hr

theorem not_mem_withoutUniqueName {s : Text} (hbreak : '\n' ∉ s) :
    '\n' ∉ withoutUniqueName s := by
  unfold withoutUniqueName
  cases hu : uniqueKey s with
  | none => exact hbreak
  | some rest =>
    obtain ⟨c, m, n, b, rfl, -⟩ := exists_of_uniqueKey hu
    intro hm
    rcases List.mem_append.1 hm with hm | hm
    · exact absurd hm (by decide)
    · exact hbreak (by simp [hm])

theorem not_mem_convertType {s : Text} (hbreak : '\n' ∉ s) (m : TypeMap) (d : Direction)
    (table : Option Text) : '\n' ∉ (convertType m d table s).line := by
  obtain hsame | ⟨lead, -, t, mapping, -, -, hm, hold, hnew⟩ := line_convertType_cases m d table s
  · rwa [hsame]
  · have htarget : '\n' ∉ mapping.target := by
      obtain ⟨c, w, g, ht, -, hw, hg⟩ := exists_target hm
      have hne : ∀ {x : Char}, isOrdinary x = true → x ≠ '\n' := fun h =>
        ne_of_isOrdinary h _ (by decide)
      rw [ht]
      intro hmem
      rcases List.mem_append.1 hmem with hmem | hmem
      · exact hne (hw _ hmem) rfl
      · rcases hg with rfl | ⟨ds, rfl, hds⟩
        · cases hmem
        · simp only [List.mem_cons, List.mem_append, List.not_mem_nil, or_false] at hmem
          rcases hmem with hmem | hmem | hmem
          · exact absurd hmem (by decide)
          · exact hne (hds _ hmem) rfl
          · exact absurd hmem (by decide)
    rw [hold] at hbreak
    rw [hnew]
    simp only [List.mem_append, not_or] at hbreak ⊢
    exact ⟨hbreak.1, htarget, hbreak.2.2⟩

theorem line?_convert_of_kept {m : TypeMap} {d : Direction} {line line' : Text}
    (h : (convert m d none line).line? = some line') :
    line' = (respellMarker d (convertType m d none (cleaned d line)).line).getD
      (convertType m d none (cleaned d line)).line := by
  cases d with
  | sqliteToMysql => exact (Option.some.inj h).symm
  | mysqlToSqlite =>
    unfold convert at h
    by_cases hi : isInlineIndex line = true
    · simp only [hi, if_true] at h
      cases h
    · simp only [hi] at h
      exact (Option.some.inj h).symm

theorem not_mem_respellMarker {s s' : Text} (hbreak : '\n' ∉ s) {d : Direction}
    (hs : respellMarker d s = some s') : '\n' ∉ s' := by
  have hphrase : '\n' ∉ ' ' :: keyPhrase d := by cases d <;> decide
  have hstrip : '\n' ∉ eraseAll (spacedMarker d.source.marker) s := not_mem_eraseAll _ hbreak
  obtain ⟨-, ⟨-, rfl⟩ | ⟨-, rfl⟩⟩ := respellMarker_cases hs
  · rw [replaceFirst]
    cases hf : find primaryKey none (eraseAll (spacedMarker d.source.marker) s) with
    | none => exact hstrip
    | some x =>
      obtain ⟨lead, rest⟩ := x
      obtain ⟨u, hu, hkey⟩ := append_of_find hf
      obtain ⟨c, m, rfl, -⟩ := takesWord_primaryKey _ hkey
      rw [hu] at hstrip
      simp only [List.mem_append, List.mem_cons, not_or] at hstrip hphrase ⊢
      exact ⟨⟨hstrip.1, hphrase.2⟩, hstrip.2.2.2⟩
  · simp only [List.mem_append, not_or]
    exact ⟨hstrip, hphrase⟩

theorem not_mem_cleaned {line : Text} (hbreak : '\n' ∉ line) (d : Direction) :
    '\n' ∉ cleaned d line := by
  cases d with
  | sqliteToMysql => exact hbreak
  | mysqlToSqlite =>
    exact not_mem_eraseAll _ (not_mem_eraseAll _ (not_mem_eraseAll _ (not_mem_withoutUniqueName hbreak)))

theorem not_mem_of_kept {m : TypeMap} {d : Direction} {line line' : Text} (hbreak : '\n' ∉ line)
    (h : (convert m d none line).line? = some line') : '\n' ∉ line' := by
  have htype := not_mem_convertType (not_mem_cleaned hbreak d) m d none
  rw [line?_convert_of_kept h]
  cases hm : respellMarker d (convertType m d none (cleaned d line)).line with
  | none => exact htype
  | some s => exact not_mem_respellMarker htype hm

/-- Nothing that is taken out of a tame definition moves the reader. -/
theorem run_cleaned {m : TypeMap} {d : Direction} {r : Reading} {line : Text} (hbreak : '\n' ∉ line)
    (h : IsTame m d r line) : r.run (cleaned d line) = r.run line := by
  cases d with
  | sqliteToMysql => rfl
  | mysqlToSqlite =>
    have hname := not_mem_withoutUniqueName hbreak
    have hupdates : '\n' ∉ eraseAll (anywhere onUpdate) (withoutUniqueName line) :=
      not_mem_eraseAll _ hname
    have hcomments : '\n' ∉ eraseAll (anywhere commentClause)
        (eraseAll (anywhere onUpdate) (withoutUniqueName line)) := not_mem_eraseAll _ hupdates
    have hattributes := run_eraseAll_words hcomments (f := anywhere typeAttribute)
      (fun _ => takesSome_typeAttribute) (h.attributes rfl)
    refine hattributes.trans ?_
    rw [run_eraseAll_comment hupdates (h.comments rfl), run_eraseAll_onUpdate hname (h.updates rfl),
      run_withoutUniqueName hbreak (h.uniqueName rfl)]

theorem run_convert {m : TypeMap} {d : Direction} {r : Reading} {line line' : Text}
    (hbreak : '\n' ∉ line) (h : IsTame m d r line) (hc : (convert m d none line).line? = some line') :
    r.run line' = r.run line := by
  have hbreak' := not_mem_cleaned hbreak d
  have hcleaned := run_cleaned hbreak h
  have htype := run_convertType hbreak' h.type m d none
  rw [line?_convert_of_kept hc, ← hcleaned, ← htype]
  cases hm : respellMarker d (convertType m d none (cleaned d line)).line with
  | none => rfl
  | some s =>
    have hlast := h.last (respellMarker_cases hm).1
    rw [← hcleaned, ← htype] at hlast
    exact run_respellMarker (not_mem_convertType hbreak' m d none) h.marker hlast hm

end SchemaDialects.Definition
