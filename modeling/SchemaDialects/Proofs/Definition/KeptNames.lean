import SchemaDialects.Proofs.Definition.QuotedNames
import SchemaDialects.Proofs.Definition.Rewriting

/-!
# Names of a definition that stay

A definition loses the name of a unique key. Its other names stay where nothing
is taken out of them, but for the one name that the first typed name of the line
may have its type in: of that name the type is replaced. Main statement: the
rewritten definition has the names of the definition, changed at most so.
-/

namespace SchemaDialects.Definition

open Text Script

/-! ## What is taken out -/

theorem isNeutral_of_mem_group {g : Text} (hg : ∀ x ∈ g, isPart x ∨ x = ',') :
    ∀ x ∈ '(' :: (g ++ [')']), isNeutral x := by
  have hgroup : isNeutral '(' ∧ isNeutral ')' ∧ isNeutral ',' := by decide
  intro x hx
  simp only [List.mem_cons, List.mem_append, List.not_mem_nil, or_false] at hx
  rcases hx with rfl | hx | rfl
  · exact hgroup.1
  · rcases hg x hx with hx | rfl
    · exact isNeutral_of_isPart hx
    · exact hgroup.2.2
  · exact hgroup.2.1

theorem takesNeutral_of_takesSome {f : Reader Text} (hf : ∀ prev, TakesSome (f prev)) :
    TakesNeutral f := by
  intro prev s rest h
  obtain ⟨m, hs, hne, hm⟩ := hf prev h
  exact ⟨m, hs, hne, fun x hx => isNeutral_of_isPart (hm x hx)⟩

theorem takesNeutral_onUpdate : TakesNeutral (anywhere onUpdate) := by
  intro prev s rest h
  obtain ⟨m, g, rfl, hne, hm, hg⟩ := exists_of_onUpdate h
  refine ⟨m ++ g, by simp, by simp [hne], ?_⟩
  have hgroup : ∀ x ∈ g, isNeutral x := by
    rcases hg with rfl | ⟨ds, rfl, hds⟩
    · simp
    · exact isNeutral_of_mem_group fun x hx => Or.inl (Or.inl (hds x hx))
  exact List.forall_mem_append.2 ⟨fun x hx => isNeutral_of_isPart (hm x hx), hgroup⟩

theorem takesNeutral_typeAttribute : TakesNeutral (anywhere typeAttribute) :=
  takesNeutral_of_takesSome fun _ => takesSome_typeAttribute

theorem takesNeutral_marker (d : Dialect) : TakesNeutral (spacedMarker d.marker) :=
  takesNeutral_of_takesSome (takesSome_spacedMarker d)

/-- A literal is read to its end. -/
theorem exists_of_literalRest {s rest : Text} (h : literalRest s = some rest) :
    ∃ m, s = m ++ rest
      ∧ ∀ names, NameReading.run .mysql ⟨.literal, names⟩ m = ⟨.outside, names⟩ := by
  fun_induction literalRest s with
  | case1 s ih =>
    rcases Option.or_eq_some_iff.1 h with h | ⟨-, h⟩
    · obtain ⟨m, rfl, hm⟩ := ih h
      refine ⟨'\'' :: '\'' :: m, rfl, fun names => ?_⟩
      simpa [NameReading.step, Part.next, Part.closes] using hm names
    · obtain rfl := Option.some.inj h
      exact ⟨['\''], rfl, fun names => by simp [NameReading.step, Part.next, Part.closes]⟩
  | case2 s hs =>
    obtain rfl := Option.some.inj h
    exact ⟨['\''], rfl, fun names => by simp [NameReading.step, Part.next, Part.closes]⟩
  | case3 s => cases h
  | case4 c s hc ih =>
    obtain ⟨m, rfl, hm⟩ := ih h
    refine ⟨'\\' :: c :: m, rfl, fun names => ?_⟩
    simpa [NameReading.step, Part.next, Part.closes] using hm names
  | case5 => cases h
  | case6 c s hdouble hquote hescaped hback ih =>
    have hb : c ≠ '\\' := by
      intro hc
      cases hs : s with
      | nil => exact hback hc hs
      | cons d t => exact hescaped d t hc hs
    have hq : c ≠ '\'' := hquote
    obtain ⟨m, rfl, hm⟩ := ih h
    refine ⟨c :: m, rfl, fun names => ?_⟩
    simpa [NameReading.step, Part.next, Part.closes, hb, hq] using hm names
  | case7 => cases h

theorem staysOutside_commentClause : StaysOutside .mysql (anywhere commentClause) := by
  intro prev s rest h
  obtain ⟨m, t, rfl, -, hm, ht⟩ := exists_of_commentClause h
  obtain ⟨n, rfl, hn⟩ := exists_of_literalRest ht
  refine ⟨m ++ '\'' :: n, by simp, by simp, fun r hr => ?_⟩
  have hopen : r.step .mysql '\'' = ⟨.literal, r.names⟩ := by
    simp [NameReading.step, hr, Part.next, Part.closes]
  have hneutral : ∀ x ∈ m, isNeutral x := fun x hx => isNeutral_of_isPart (hm x hx)
  rw [NameReading.run_append, run_of_isNeutral (Or.inl hr) hneutral, NameReading.run_cons, hopen, hn,
    ← hr]

/-! ## Names of unique keys -/

/-- The name that a unique key loses, if it has quotes. -/
def indexNames : Direction → Text → List Text
  | .mysqlToSqlite, line => ((uniqueKey line).map fun rest => quotedNames .mysql (before line rest)).getD []
  | .sqliteToMysql, _ => []

theorem run_uniqueKey {line rest : Text} (h : uniqueKey line = some rest) :
    ∃ names, names.length ≤ 1
      ∧ NameReading.start.run .mysql (before line rest) = ⟨.outside, names⟩ := by
  obtain ⟨c, m, n, b, rfl, -, hm, hb, hn⟩ := exists_of_uniqueKey h
  have hsplit : c :: (m ++ (n ++ (b ++ '(' :: rest))) = (c :: m) ++ (n ++ (b ++ ['('])) ++ rest := by simp
  have hword : NameReading.start.run .mysql (c :: m) = NameReading.start :=
    run_of_isNeutral (Or.inl rfl) fun x hx => isNeutral_of_isPart (hm x hx)
  have hend : ∀ r : NameReading, r.part = .outside → r.run .mysql (b ++ ['(']) = r := by
    intro r hr
    have hopen : ∀ x ∈ ['('], isNeutral x := by decide
    exact run_of_isNeutral (Or.inl hr)
      (List.forall_mem_append.2 ⟨fun x hx => isNeutral_of_isPart (hb x hx), hopen⟩)
  rw [hsplit, before_append_self, NameReading.run_append, hword, NameReading.run_append]
  rcases hn with ⟨a, rfl, ha⟩ | hn
  · have hquote : NameReading.start.step .mysql '"' = ⟨.name '"' [], []⟩ := rfl
    refine ⟨[a], by simp, ?_⟩
    rw [NameReading.run_cons, hquote, run_name ha]
    exact hend _ rfl
  · refine ⟨[], by simp, ?_⟩
    rw [run_of_isNeutral (Or.inl rfl) fun x hx => isNeutral_of_isPart (hn x hx)]
    exact hend _ rfl

theorem length_indexNames_le (d : Direction) (line : Text) : (indexNames d line).length ≤ 1 := by
  cases d with
  | sqliteToMysql => exact Nat.zero_le _
  | mysqlToSqlite =>
    rw [indexNames]
    cases h : uniqueKey line with
    | none => exact Nat.zero_le _
    | some rest =>
      obtain ⟨names, hlen, hrun⟩ := run_uniqueKey h
      rw [Option.map_some, Option.getD_some, quotedNames, hrun]
      exact hlen

theorem run_withoutUniqueName_names (line : Text) :
    NameReading.start.run .mysql line
      = ⟨(NameReading.start.run .mysql (withoutUniqueName line)).part,
        indexNames .mysqlToSqlite line ++ quotedNames .mysql (withoutUniqueName line)⟩ := by
  rw [withoutUniqueName, indexNames]
  cases h : uniqueKey line with
  | none => rfl
  | some rest =>
    obtain ⟨names, -, hrun⟩ := run_uniqueKey h
    have hline : before line rest ++ rest = line := by
      obtain ⟨c, m, n, b, rfl, -⟩ := exists_of_uniqueKey h
      exact before_append ⟨c :: (m ++ (n ++ (b ++ ['(']))), by simp⟩
    have hunique : NameReading.start.run .mysql "UNIQUE (".toList = NameReading.start :=
      run_of_isNeutral (Or.inl rfl) (by decide)
    have hshift := NameReading.run_names .mysql NameReading.start names rest
    simp only [Option.map_some, Option.getD_some, quotedNames, NameReading.run_append, hunique, hrun]
    conv_lhs => rw [← hline, NameReading.run_append, hrun]
    simpa [NameReading.start] using hshift

/-! ## Types -/

/-- The name that is open before the texts `old` and `rest`, as it is with `old` and as it is with
`new` in the place of `old`. -/
def Part.change? (old new rest : Text) : Part → Option (Text × Text)
  | .name q n => some (n ++ old ++ rest.takeWhile (· != q), n ++ new ++ rest.takeWhile (· != q))
  | _ => none

/-- The name that the first typed name of the line has its type in, and what it becomes when the
type is converted. -/
def retypedName? (m : TypeMap) (d : Direction) (line : Text) : Option (Text × Text) := do
  let (lead, t) ← typedName? line
  let mapping ← m.ofDeclared? d t.declaredType
  (NameReading.start.run d.source (lead ++ t.name ++ t.gap)).part.change? t.declaredType
    mapping.target t.rest

/-- The same names, but for the one that is changed as given. -/
def Renamed (change? : Option (Text × Text)) (names names' : List Text) : Prop :=
  match change? with
  | none => names' = names
  | some (old, new) => ∃ lead rest, names = lead ++ old :: rest ∧ names' = lead ++ new :: rest

theorem Renamed.eq_iff {change? : Option (Text × Text)} {names names' : List Text}
    (h : Renamed change? names names') :
    names' = names ↔ ∀ old new, change? = some (old, new) → new = old := by
  cases change? with
  | none => exact iff_of_true h fun _ _ hc => by cases hc
  | some change =>
    obtain ⟨old, new⟩ := change
    obtain ⟨lead, rest, rfl, rfl⟩ := h
    simp

theorem isNeutral_of_mem_type {s : Text} {t : TypedName} (h : t.Spells s) :
    ∀ x ∈ t.declaredType, isNeutral x := by
  obtain ⟨-, ⟨c, w, hcw, halpha⟩, hsize⟩ := h
  intro x hx
  rcases List.mem_append.1 hx with hx | hx
  · exact isNeutral_of_isPart (Or.inl (isOrdinary_of_isAlpha (halpha x (hcw ▸ hx))))
  · rcases hsize with hnil | ⟨b, g, hbg, hb, hg⟩
    · rw [hnil] at hx
      cases hx
    · rw [hbg, List.mem_append] at hx
      exact hx.elim (fun hx => isNeutral_of_isPart (hb x hx)) (isNeutral_of_mem_group hg x)

theorem isNeutral_of_mem_target {m : TypeMap} {d : Direction} {s : Text} {mapping : Mapping}
    (h : m.ofDeclared? d s = some mapping) : ∀ x ∈ mapping.target, isNeutral x := by
  obtain ⟨c, w, g, ht, -, hw, hg⟩ := exists_target h
  intro x hx
  rw [ht, List.mem_append] at hx
  rcases hx with hx | hx
  · exact isNeutral_of_isPart (Or.inl (hw x hx))
  · rcases hg with rfl | ⟨ds, rfl, hds⟩
    · cases hx
    · exact isNeutral_of_mem_group (fun y hy => Or.inl (Or.inl (hds y hy))) x hx

section
variable {d : Dialect} {front old new rest : Text}
variable (hold : ∀ x ∈ old, isNeutral x) (hnew : ∀ x ∈ new, isNeutral x)
variable (hne : old ≠ []) (hne' : new ≠ [])
variable (hclosed : (NameReading.start.run d (front ++ (old ++ rest))).part.isName = false)
include hold hnew hne hne' hclosed

/-- A word that is replaced by another changes the name that it stands in. -/
theorem renamed_of_replaced :
    (NameReading.start.run d (front ++ (new ++ rest))).part.isName = false
      ∧ Renamed ((NameReading.start.run d front).part.change? old new rest)
        (quotedNames d (front ++ (old ++ rest))) (quotedNames d (front ++ (new ++ rest))) := by
  cases hp : (NameReading.start.run d front).part with
  | name q n =>
    have hquote : ¬ isNeutral q := by
      rcases eq_of_isNameQuote (isNameQuote_of_part_name hp) with rfl | rfl <;> decide
    have hq : q ∉ old := fun hm => hquote (hold q hm)
    have hq' : q ∉ new := fun hm => hquote (hnew q hm)
    have hfront : NameReading.start.run d front
        = ⟨.name q n, (NameReading.start.run d front).names⟩ := by rw [← hp]
    -- The name is closed, so `rest` goes on to its end.
    obtain ⟨x, y, rfl, hx, -⟩ : ∃ x y, rest = x ++ q :: y ∧ q ∉ x ∧ _ := by
      have hend := hclosed
      rw [NameReading.run_append, NameReading.run_append, hfront, run_in_name hq] at hend
      exact exists_of_closed rfl hend
    have hbehind : (x ++ q :: y).takeWhile (· != q) = x := by
      rw [List.takeWhile_append_of_pos, List.takeWhile_cons_of_neg (by simp), List.append_nil]
      intro c hc
      simpa using fun h : c = q => hx (h ▸ hc)
    have hread {w : Text} (hw : q ∉ w) : NameReading.start.run d (front ++ (w ++ (x ++ q :: y)))
        = ⟨(NameReading.start.run d y).part,
          (NameReading.start.run d front).names ++ (n ++ w ++ x) :: quotedNames d y⟩ := by
      rw [NameReading.run_append, hfront, run_to_quote hw hx]
    rw [hread hq] at hclosed
    simp only [Part.change?, hbehind]
    rw [quotedNames, quotedNames, hread hq, hread hq']
    exact ⟨hclosed, _, _, rfl, rfl⟩
  | _ =>
    have hr : (NameReading.start.run d front).part.isName = false := by rw [hp]; rfl
    have hrun : NameReading.start.run d (front ++ (new ++ rest))
        = NameReading.start.run d (front ++ (old ++ rest)) := by
      rw [NameReading.run_append, NameReading.run_append _ _ new,
        run_eq_of_isNeutral hr hnew hold hne' hne, ← NameReading.run_append,
        ← NameReading.run_append]
    rw [quotedNames, quotedNames, hrun]
    exact ⟨hclosed, rfl⟩

end

theorem renamed_convertType (m : TypeMap) (table? : Option Text) {d : Direction} {s : Text}
    (hclosed : (NameReading.start.run d.source s).part.isName = false) :
    (NameReading.start.run d.source (convertType m d table? s).line).part.isName = false
      ∧ Renamed (retypedName? m d s) (quotedNames d.source s)
        (quotedNames d.source (convertType m d table? s).line) := by
  cases ht : typedName? s with
  | none =>
    rw [convertType_of_untyped ht, retypedName?, ht]
    exact ⟨hclosed, rfl⟩
  | some r =>
    obtain ⟨lead, t⟩ := r
    cases hm : m.ofDeclared? d t.declaredType with
    | none =>
      have hchange : retypedName? m d s = none := by
        simp only [retypedName?, ht, hm, Option.bind_eq_bind, Option.bind_some, Option.bind_none]
      rw [convertType_of_unknown ht hm, hchange]
      exact ⟨hclosed, rfl⟩
    | some mapping =>
      obtain ⟨u, hs, hu⟩ := append_of_find ht
      have hspells := spells_of_typedName hu
      have hold : s = lead ++ t.name ++ t.gap ++ (t.declaredType ++ t.rest) := by
        simp [hs, hspells.eq, TypedName.declaredType]
      have hnew : (convertType m d table? s).line
          = lead ++ t.name ++ t.gap ++ (mapping.target ++ t.rest) := by
        simp [convertType_of_known ht hm]
      have hchange : retypedName? m d s
          = (NameReading.start.run d.source (lead ++ t.name ++ t.gap)).part.change? t.declaredType
            mapping.target t.rest := by
        simp only [retypedName?, ht, hm, Option.bind_eq_bind, Option.bind_some]
      have hne : t.declaredType ≠ [] := by
        obtain ⟨c, w, hcw, -⟩ := hspells.keyword
        simp [TypedName.declaredType, hcw]
      have hne' : mapping.target ≠ [] := by
        obtain ⟨c, w, g, hcw, -⟩ := exists_target hm
        simp [hcw]
      rw [hold] at hclosed
      rw [hchange, hnew]
      have := renamed_of_replaced (isNeutral_of_mem_type hspells) (isNeutral_of_mem_target hm) hne
        hne' hclosed
      rwa [← hold] at this

/-! ## Markers -/

theorem isNeutral_of_mem_keyPhrase (d : Direction) : ∀ x ∈ keyPhrase d, isNeutral x := by
  cases d <;> decide

theorem quotedNames_append_words {d : Dialect} {s m : Text}
    (hclosed : (NameReading.start.run d s).part.isName = false) (hm : ∀ x ∈ m, isNeutral x) :
    quotedNames d (s ++ ' ' :: m) = quotedNames d s := by
  have hblank : isNeutral ' ' := by decide
  rw [quotedNames, NameReading.run_append,
    run_cons_of_isNeutral hclosed (List.forall_mem_cons.2 ⟨hblank, hm⟩), quotedNames]

theorem run_replaceFirst_key {d : Direction} {s : Text}
    (hkey : ∀ r ∈ find primaryKey none s,
      (NameReading.start.run d.source r.1).part.isName = false) :
    NameReading.start.run d.source (replaceFirst primaryKey (keyPhrase d) s)
      = NameReading.start.run d.source s := by
  rw [replaceFirst]
  cases hf : find primaryKey none s with
  | none => rfl
  | some r =>
    obtain ⟨lead, rest⟩ := r
    obtain ⟨t, rfl, ht⟩ := append_of_find hf
    obtain ⟨c, m, rfl, -, hm⟩ := takesWord_primaryKey _ ht
    have hword : ∀ x ∈ c :: m, isNeutral x := fun x hx => isNeutral_of_isPart (hm x hx)
    have hne : keyPhrase d ≠ [] := by cases d <;> decide
    show NameReading.start.run d.source (lead ++ keyPhrase d ++ rest) = _
    rw [List.append_assoc, NameReading.run_append, NameReading.run_append,
      run_eq_of_isNeutral (hkey _ hf) (isNeutral_of_mem_keyPhrase d) hword hne (by simp),
      ← NameReading.run_append, ← NameReading.run_append, List.cons_append]

/-! ## The whole line -/

/-- No name has a part taken out of it when the line is rewritten, or a key phrase put into it. -/
structure SparesNames (m : TypeMap) (d : Direction) (line : Text) : Prop where
  updates : d = .mysqlToSqlite → Spares .mysql (anywhere onUpdate) (withoutUniqueName line)
  comments : d = .mysqlToSqlite →
    Spares .mysql (anywhere commentClause) (eraseAll (anywhere onUpdate) (withoutUniqueName line))
  attributes : d = .mysqlToSqlite → Spares .mysql (anywhere typeAttribute)
    (eraseAll (anywhere commentClause) (eraseAll (anywhere onUpdate) (withoutUniqueName line)))
  marker : Spares d.source (spacedMarker d.source.marker) (retyped m d line)
  key : occurs (spacedMarker d.source.marker) (retyped m d line) = true →
    ∀ r ∈ find primaryKey none (eraseAll (spacedMarker d.source.marker) (retyped m d line)),
      (NameReading.start.run d.source r.1).part.isName = false

namespace SparesNames

variable {m : TypeMap} {d : Direction} {line : Text} (h : SparesNames m d line)
include h

theorem run_withoutAttributes (hd : d = .mysqlToSqlite) :
    NameReading.start.run .mysql (withoutAttributes (withoutUniqueName line))
      = NameReading.start.run .mysql (withoutUniqueName line) := by
  rw [withoutAttributes,
    run_eraseAll_of_spares (takesNeutral_typeAttribute.staysOutside _) (h.attributes hd),
    run_eraseAll_of_spares staysOutside_commentClause (h.comments hd),
    run_eraseAll_of_spares (takesNeutral_onUpdate.staysOutside _) (h.updates hd)]

/-- Cleaning takes a name out of a unique key, and no other. -/
theorem quotedNames_cleaned (hclosed : (NameReading.start.run d.source line).part.isName = false) :
    (NameReading.start.run d.source (cleaned d line)).part.isName = false
      ∧ quotedNames d.source line = indexNames d line ++ quotedNames d.source (cleaned d line) := by
  cases d with
  | sqliteToMysql => exact ⟨hclosed, rfl⟩
  | mysqlToSqlite =>
    have hkept := h.run_withoutAttributes rfl
    have hnames : quotedNames .mysql (Definition.cleaned .mysqlToSqlite line)
        = quotedNames .mysql (withoutUniqueName line) := congrArg NameReading.names hkept
    have hpart : (NameReading.start.run .mysql (Definition.cleaned .mysqlToSqlite line)).part
        = (NameReading.start.run .mysql (withoutUniqueName line)).part :=
      congrArg NameReading.part hkept
    have hline := run_withoutUniqueName_names line
    rw [show Direction.mysqlToSqlite.source = Dialect.mysql from rfl] at hclosed ⊢
    rw [hline] at hclosed
    exact ⟨hpart ▸ hclosed, by rw [hnames, quotedNames, hline]⟩

theorem quotedNames_rewritten
    (hclosed : (NameReading.start.run d.source (retyped m d line)).part.isName = false) :
    quotedNames d.source (rewritten m d line) = quotedNames d.source (retyped m d line) := by
  have hstrip := run_eraseAll_of_spares ((takesNeutral_marker d.source).staysOutside _) h.marker
  rw [rewritten]
  cases hr : respellMarker d (retyped m d line) with
  | none => rfl
  | some line' =>
    obtain ⟨hmarker, ⟨-, rfl⟩ | ⟨-, rfl⟩⟩ := respellMarker_cases hr
    · rw [Option.getD_some, quotedNames, run_replaceFirst_key (h.key hmarker), hstrip, quotedNames]
    · rw [Option.getD_some,
        quotedNames_append_words (hstrip ▸ hclosed) (isNeutral_of_mem_keyPhrase d), quotedNames,
        hstrip, quotedNames]

/-- A unique key loses its name. The other names stay, but for the one that the type is read in. -/
theorem renamed_rewritten (hclosed : (NameReading.start.run d.source line).part.isName = false) :
    ∃ names, quotedNames d.source line = indexNames d line ++ names
      ∧ Renamed (retypedName? m d (cleaned d line)) names
        (quotedNames d.source (rewritten m d line)) := by
  obtain ⟨hcleaned, hnames⟩ := h.quotedNames_cleaned hclosed
  obtain ⟨hretyped, hrenamed⟩ := renamed_convertType m none hcleaned
  refine ⟨_, hnames, ?_⟩
  rw [h.quotedNames_rewritten hretyped]
  exact hrenamed

end SparesNames

end SchemaDialects.Definition
