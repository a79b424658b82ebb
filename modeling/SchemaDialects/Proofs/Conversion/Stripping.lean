import SchemaDialects.Proofs.Conversion.Output
import SchemaDialects.Proofs.Definition.Lines
import SchemaDialects.Proofs.Script.LeadingComments

/-!
# Statements behind comments

The comments before a statement are taken off one at a time, with the blanks around what
is left. This comes to an end where the one reading of the body ends, and from there on
every reader sees the same statement, with comments before it or without.
-/

namespace SchemaDialects

open Text Definition

namespace Script

/-! ## One comment at a time -/

theorem length_trim_le (s : Text) : (trim s).length ≤ s.length :=
  (isPrefix_dropEndWhile isBlank (trimStart s)).length_le.trans (List.dropWhile_suffix isBlank).length_le

/-- Takes off the first comment and the outer blanks of what follows it, as often as there is
one. A text without outer blanks stays without them. -/
def stripped (s : Text) : Text :=
  match _h : afterIdle? s with
  | none => s
  | some t => stripped (trim t)
termination_by s.length
decreasing_by exact (length_trim_le t).trans_lt (length_lt_of_afterIdle? _h)

theorem body_trim (s : Text) : body (trim s) = body s := by
  rw [body, trim_trim, body]

theorem body_of_afterIdle? {s t : Text} (h : afterIdle? s = some t) : body s = body t := by
  rw [body_eq, skip_of_some h, body_eq]

theorem afterIdle?_eq_none_iff {s : Text} : afterIdle? s = none ↔ skip .blanks s = s := by
  refine ⟨skip_of_none, fun h => ?_⟩
  by_contra hne
  obtain ⟨t, ht⟩ := Option.ne_none_iff_exists'.1 hne
  -- Behind a comment or a blank there would be less text.
  have hle := (skip_suffix .blanks t).length_le
  rw [← skip_of_some ht, h] at hle
  exact absurd (length_lt_of_afterIdle? ht) hle.not_gt

theorem stripped_of_trimmed {s : Text} (hs : trim s = s) : stripped s = body s := by
  fun_induction stripped s with
  | case1 s h => rw [body, hs, skip_of_none h]
  | case2 s t h ih => rw [ih (trim_trim t), body_trim, body_of_afterIdle? h]

theorem stripped_trim (s : Text) : stripped (trim s) = body s := by
  rw [stripped_of_trimmed (trim_trim s), body_trim]

/-! ## What is left -/

/-- The text starts with neither a blank nor a comment. -/
structure IsStripped (s : Text) : Prop where
  not_blank : ∀ c ∈ s.head?, isBlank c = false
  not_line : ¬ "--".toList <+: s
  not_block : ¬ "/*".toList <+: s

theorem isStripped_of_afterIdle? {s : Text} (h : afterIdle? s = none) : IsStripped s := by
  cases s with
  | nil => exact ⟨nofun, by decide, by decide⟩
  | cons c s =>
    rw [afterIdle?_cons] at h
    split at h
    · cases h
    · next hblank =>
      split at h
      · cases h
      · next hline =>
        split at h
        · cases h
        · next hblock =>
          refine ⟨by simpa using hblank, ?_, ?_⟩
          · rintro ⟨t, ht⟩
            obtain ⟨rfl, rfl⟩ := List.cons.inj ht
            exact hline ⟨rfl, rfl⟩
          · rintro ⟨t, ht⟩
            obtain ⟨rfl, rfl⟩ := List.cons.inj ht
            exact hblock ⟨rfl, rfl⟩

theorem isStripped_body (s : Text) : IsStripped (body s) :=
  isStripped_of_afterIdle? (afterIdle?_eq_none_iff.2 (skip_skip .blanks (trim s)))

theorem body_suffix (s : Text) : body s <:+ trim s := skip_suffix .blanks (trim s)

/-! ## What may stand before a statement -/

/-- Blanks and line comments in any order, each comment with its line break. -/
inductive IsPreamble : Text → Prop
  | nil : IsPreamble []
  | blank {c : Char} {p : Text} : isBlank c = true → IsPreamble p → IsPreamble (c :: p)
  | comment {x p : Text} : '\n' ∉ x → IsPreamble p → IsPreamble ("--".toList ++ (x ++ '\n' :: p))

theorem IsPreamble.skip_append {p : Text} (h : IsPreamble p) (s : Text) :
    skip .blanks (p ++ s) = skip .blanks s := by
  induction h with
  | nil => rfl
  | blank hc _ ih => rw [List.cons_append, skip, if_pos hc, ih]
  | @comment x p hx _ ih =>
    have hline : ∀ c ∈ x, (c != '\n') = true := by
      rintro c hc
      rw [bne_iff_ne]
      rintro rfl
      exact hx hc
    have hbreak : (x ++ '\n' :: (p ++ s)).dropWhile (· != '\n') = '\n' :: (p ++ s) := by
      rw [List.dropWhile_append_of_pos hline]
      rfl
    have hafter : afterIdle? ("--".toList ++ (x ++ '\n' :: (p ++ s))) = some ('\n' :: (p ++ s)) :=
      congrArg some hbreak
    rw [List.append_assoc, List.append_assoc, List.cons_append, skip_of_some hafter, skip,
      if_pos (by decide), ih]

theorem IsPreamble.body_append {p : Text} (h : IsPreamble p) (s : Text) : body (p ++ s) = body s := by
  rw [body_eq, h.skip_append, body_eq]

/-- The statement of `s` alone, or with blanks and line comments before it. -/
inductive IsVariant (s : Text) : Text → Prop
  | stripped : IsVariant s (body s)
  | preceded {p : Text} : IsPreamble p → IsVariant s (p ++ s)

theorem IsVariant.body_eq {s t : Text} (h : IsVariant s t) : body t = body s := by
  cases h with
  | stripped => exact body_body s
  | preceded hp => exact hp.body_append s

end Script

/-! ## The same conversion -/

/-- The error as it is for another statement, of which it then shows the first line. -/
def ConversionError.about (sql : Text) : ConversionError → ConversionError
  | unsupportedStatement _ => ofStatement sql
  | lossyConversion w => lossyConversion w

namespace Conversion

open Script

theorem mapError_convertLayout (c : Conversion) (table? : Option Text) (l : Layout) (sql : Text) :
    (c.convertLayout table? l).value.mapError (·.about sql) = (c.convertLayout table? l).value := by
  rw [value_convertLayout]
  split
  · rfl
  · rfl

/-- Statements with one body are converted alike, up to the line that an error shows. -/
theorem statement_of_body_eq {sql sql' : Text} (h : body sql = body sql') (c : Conversion) :
    c.statement sql
      = ⟨(c.statement sql').notices, (c.statement sql').value.mapError (·.about sql)⟩ := by
  have hlayout : layout c.direction sql = layout c.direction sql' := by
    unfold layout
    rw [h]
  rw [statement_eq, statement_eq, h, hlayout]
  split
  · split
    · rfl
    · rw [Traced.bind_of_ok rfl]
      simp only [mapError_convertLayout]
  · rfl

/-- Taking the comments before a statement off one at a time leads to its body. That is an end
of the trimmed text, it starts with neither blank nor comment, and it is its own body. So
whether the body is read or the text, or the text with blanks and line comments before it, the
kind of the statement is the same, its table is, and so is its conversion, up to the line that
an error shows. -/
theorem stripping_settles (s : Text) :
    stripped (trim s) = body s ∧ body s <:+ trim s ∧ IsStripped (body s) ∧ body (body s) = body s ∧
    ∀ t, IsVariant s t → body t = body s ∧ classify t = classify s ∧
      isPlainCreateTable t = isPlainCreateTable s ∧ tableName? t = tableName? s ∧
      ∀ c : Conversion, (c.statement t).notices = (c.statement s).notices ∧
        (c.statement t).value = (c.statement s).value.mapError (·.about t) := by
  refine ⟨stripped_trim s, body_suffix s, isStripped_body s, body_body s, fun t ht => ?_⟩
  have hbody := ht.body_eq
  refine ⟨hbody, ?_, ?_, ?_, fun c => ?_⟩
  · unfold classify
    rw [hbody]
  · unfold isPlainCreateTable
    rw [hbody]
  · unfold tableName?
    rw [hbody]
  · rw [statement_of_body_eq hbody c]
    exact ⟨rfl, rfl⟩

/-- A quote in a comment opens nothing. -/
theorem stripping_settles_quote :
    let s := "/* a */ -- b\nCREATE TABLE t (\n  id INT\n); ".toList
    let p := ' ' :: ("--".toList ++ (" it's".toList ++ '\n' :: '\t' :: ("--".toList ++ ([] ++ ['\n']))))
    let c : Conversion := { direction := .mysqlToSqlite }
    IsVariant s (p ++ s) ∧ body (p ++ s) = "CREATE TABLE t (\n  id INT\n);".toList
      ∧ classify (p ++ s) = (.createTable, "t".toList) ∧ isPlainCreateTable (p ++ s) = true
      ∧ tableName? (p ++ s) = some "t".toList
      ∧ (c.statement (p ++ s)).value = .ok "CREATE TABLE t (\n  id INTEGER\n);".toList := by
  intro s p c
  have hvariant : IsVariant s (p ++ s) :=
    .preceded (.blank (by decide) (.comment (by decide) (.blank (by decide) (.comment (by decide) .nil))))
  have hs : body s = "CREATE TABLE t (\n  id INT\n);".toList := by decide
  have hkind : classify s = (.createTable, "t".toList) := by decide +kernel
  have hplain : isPlainCreateTable s = true := by decide +kernel
  have htable : tableName? s = some "t".toList := by decide +kernel
  have hvalue : (c.statement s).value = .ok "CREATE TABLE t (\n  id INTEGER\n);".toList := by
    decide +kernel
  obtain ⟨-, -, -, -, hsame⟩ := stripping_settles s
  obtain ⟨hbody, hkinds, hplains, htables, hstatement⟩ := hsame (p ++ s) hvariant
  refine ⟨hvariant, hbody.trans hs, hkinds.trans hkind, hplains.trans hplain, htables.trans htable, ?_⟩
  rw [(hstatement c).2, hvalue]
  rfl

end Conversion

end SchemaDialects
