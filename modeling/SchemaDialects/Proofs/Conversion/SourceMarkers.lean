import SchemaDialects.Proofs.Conversion.Lines
import SchemaDialects.Proofs.Definition.SourceMarker

/-!
# Markers in the output

Below the header of a table the output has its definitions, with commas and line feeds between them.
None of them has the source dialect's marker, so the text as a whole has none. A definition that had
it has the target dialect's phrase instead.
-/

namespace SchemaDialects.Conversion

open Text Definition

/-! ## Below the header -/

section
variable {d : Dialect} {defs : List Text} (h : ∀ line ∈ defs, ¬ HasKeyword d.marker line)
include h

theorem not_hasKeyword_join : ¬ HasKeyword d.marker (join ",\n  ".toList defs) := by
  have hk := areKeywords_marker d
  have hcomma : ¬ HasKeyword d.marker ",\n  ".toList := not_hasKeyword_marker d (by decide)
  induction defs with
  | nil => exact not_hasKeyword_marker d (by simp [join])
  | cons line defs ih =>
    cases defs with
    | nil => exact h line (by simp)
    | cons next defs =>
      have hends : wordEnds (",\n  ".toList ++ join ",\n  ".toList (next :: defs)) = true :=
        wordEnds_of_isAscii (by decide) _
      have hstart : wordStarts ",\n  ".toList.getLast? = true := wordStarts_of_isAscii (by decide)
      rw [join, List.append_assoc, hasKeyword_append_iff hk (Or.inr hends),
        hasKeyword_append_iff hk (Or.inl hstart)]
      exact not_or.2 ⟨h line (by simp), not_or.2 ⟨hcomma, ih fun x hx => h x (by simp [hx])⟩⟩

theorem exists_assemble (header : Text) (closed : Bool) :
    ∃ below, assemble header defs closed = header ++ below ∧ (∀ c ∈ below.head?, c = '\n')
      ∧ ¬ HasKeyword d.marker below := by
  have hk := areKeywords_marker d
  have hnil : ¬ HasKeyword d.marker [] := not_hasKeyword_marker d (by simp)
  have hindent : ¬ HasKeyword d.marker "\n  ".toList ∧ ¬ HasKeyword d.marker "\n)".toList :=
    ⟨not_hasKeyword_marker d (by decide), not_hasKeyword_marker d (by decide)⟩
  have hstart : wordStarts "\n  ".toList.getLast? = true := wordStarts_of_isAscii (by decide)
  have hclose : ¬ HasKeyword d.marker (if closed then "\n)".toList else [])
      ∧ wordEnds (if closed then "\n)".toList else []) = true := by
    cases closed with
    | true => exact ⟨hindent.2, wordEnds_of_isAscii (by decide) _⟩
    | false => exact ⟨hnil, rfl⟩
  by_cases hempty : defs = []
  · subst hempty
    refine ⟨if closed then "\n)".toList else [], by simp [assemble], ?_, hclose.1⟩
    cases closed <;> simp
  · refine ⟨"\n  ".toList ++ join ",\n  ".toList defs ++ if closed then "\n)".toList else [], ?_,
      by simp, ?_⟩
    · rw [assemble_eq hempty]
      simp only [List.append_assoc]
    · rw [hasKeyword_append_iff hk (Or.inr hclose.2), hasKeyword_append_iff hk (Or.inl hstart)]
      exact not_or.2 ⟨not_or.2 ⟨hindent.1, not_hasKeyword_join h⟩, hclose.1⟩

end

/-- Only semicolons and blanks are cut from a text before it gets the target's ending. -/
theorem exists_finish_eq (c : Conversion) (s : Text) :
    ∃ body cut, c.finish s = body ++ c.ending ∧ s = body ++ cut ∧ wordEnds cut = true := by
  have hsemicolon : isWord ';' = false := not_isWord_of_isAscii (by decide)
  unfold finish ending
  cases c.direction with
  | mysqlToSqlite =>
    simp only
    split
    · next h =>
      have hlast : s.getLast? = some ';' := by simpa [endsWith] using h
      obtain ⟨body, rfl⟩ := List.getLast?_eq_some_iff.1 hlast
      exact ⟨body, [';'], rfl, rfl, by simp [wordEnds, hsemicolon]⟩
    · exact ⟨s, [], rfl, (List.append_nil s).symm, rfl⟩
  | sqliteToMysql =>
    obtain ⟨z, hz, hsemicolons⟩ := exists_dropEndWhile (· == ';') s
    obtain ⟨b, hb, hblanks⟩ := exists_dropEndWhile isBlank (dropEndWhile (· == ';') s)
    refine ⟨trimEnd (dropEndWhile (· == ';') s), b ++ z, by simp, ?_, ?_⟩
    · rw [← List.append_assoc, trimEnd, ← hb, ← hz]
    · refine wordEnds_append (wordEnds_of_blank fun c hc => hblanks c (List.mem_of_mem_head? hc))
        fun _ => ?_
      cases z with
      | nil => rfl
      | cons c z =>
        obtain rfl : c = ';' := by simpa using hsemicolons c (by simp)
        simp [wordEnds, hsemicolon]

theorem not_mem_header (d : Direction) (sql : Text) : '\n' ∉ (layout d sql).header := by
  rw [layout, Layout.ofLines]
  cases hlines : contentLines (requoted d (Script.body sql)) with
  | nil => simp
  | cons header lines => exact (ends_of_mem_contentLines (by rw [hlines]; simp)).2.2

/-- Below the header a finished text has no marker that its definitions do not have, up to the
ending. -/
theorem exists_finish_assemble {c : Conversion} {defs : List Text} {header : Text}
    (h : ∀ line ∈ defs, ¬ HasKeyword c.direction.source.marker line) (hheader : '\n' ∉ header)
    (closed : Bool) :
    ∃ body, c.finish (assemble header defs closed) = body ++ c.ending
      ∧ ¬ HasKeyword c.direction.source.marker (body.dropWhile (· != '\n')) := by
  have hk := areKeywords_marker c.direction.source
  obtain ⟨below, hassemble, hhead, hbelow⟩ := exists_assemble h header closed
  obtain ⟨body, cut, hfinish, hbody, hcut⟩ := exists_finish_eq c (assemble header defs closed)
  refine ⟨body, hfinish, ?_⟩
  have hbefore : ∀ x ∈ header, (x != '\n') = true := by
    intro x hx
    rw [bne_iff_ne]
    rintro rfl
    exact hheader hx
  rcases List.append_eq_append_iff.1 (hassemble.symm.trans hbody) with ⟨m, rfl, hm⟩ | ⟨m, hm, -⟩
  · rw [List.dropWhile_append_of_pos hbefore]
    rw [hm, hasKeyword_append_iff hk (Or.inr hcut), not_or] at hbelow
    have hself : m.dropWhile (· != '\n') = m := by
      cases m with
      | nil => rfl
      | cons x m =>
        obtain rfl := hhead x (by simp [hm])
        exact List.dropWhile_cons_of_neg (by simp)
    rw [hself]
    exact hbelow.1
  · -- Nothing is left but a part of the header.
    have hnil : body.dropWhile (· != '\n') = [] :=
      List.dropWhile_eq_nil_iff.2 fun x hx => hbefore x (by simp [hm, hx])
    rw [hnil]
    exact not_hasKeyword_marker _ (by simp)

/-! ## The output -/

/-- Below the header of the output the source dialect's marker is nowhere, whatever the case of its
letters, apart from the ending that every table gets. Of the definitions that are kept, those that
have the marker once their attributes are out and their type is converted get the target dialect's
phrase, and respelling them again finds no marker, nor does it behind another conversion of the
type. -/
theorem markers_of_ok {c : Conversion} {sql out : Text} (h : (c.statement sql).value = .ok out) :
    let l := layout c.direction sql
    let marker := c.direction.source.marker
    (∃ body, out = body ++ c.ending ∧ ¬ HasKeyword marker (body.dropWhile (· != '\n')))
    ∧ ∃ kept, IsKept c.types c.direction l.definitions kept
      ∧ out = c.finish (assemble l.header (kept.map (rewritten c.types c.direction))
          l.closing?.isSome)
      ∧ ∀ line ∈ kept, ¬ HasKeyword marker (rewritten c.types c.direction line)
        ∧ (HasKeyword marker (retyped c.types c.direction line) →
          keyPhrase c.direction <:+: rewritten c.types c.direction line
          ∧ respellMarker c.direction (rewritten c.types c.direction line) = none
          ∧ ∀ table?, respellMarker c.direction (convertType c.types c.direction table?
              (rewritten c.types c.direction line)).line = none) := by
  intro l marker
  have hline : ∀ line, ¬ HasKeyword marker (rewritten c.types c.direction line) :=
    not_hasKeyword_rewritten c.types c.direction
  obtain ⟨kept, hkept, hlines⟩ := exists_isKept c l
  have hout : out = c.finish (assemble l.header (kept.map (rewritten c.types c.direction))
      l.closing?.isSome) := by
    rw [eq_output_of_ok h, output, hlines]
  refine ⟨?_, kept, hkept, hout, fun line _ => ⟨hline line, fun hmarker => ⟨?_, ?_, ?_⟩⟩⟩
  · have hdefs : ∀ x ∈ kept.map (rewritten c.types c.direction), ¬ HasKeyword marker x := by
      simpa using fun line _ => hline line
    obtain ⟨body, hbody, hbelow⟩ :=
      exists_finish_assemble hdefs (not_mem_header c.direction sql) l.closing?.isSome
    exact ⟨body, hout.trans hbody, hbelow⟩
  · exact keyPhrase_infix_rewritten hmarker
  · exact respellMarker_eq_none_iff_not_hasKeyword.2 (hline line)
  · exact fun table? => respellMarker_eq_none_iff_not_hasKeyword.2 fun hw =>
      hline line (hasKeyword_of_convertType hw)

/-- Of a table with a marker in small letters, and with another one in a literal. -/
theorem markers_of_ok_users :
    let sql := "CREATE TABLE users (\n  id INT auto_increment,\n  n INT DEFAULT 'Auto_Increment'\n);".toList
    let c : Conversion := { direction := .mysqlToSqlite }
    let marker := Dialect.mysql.marker
    let out := "CREATE TABLE users (\n  id INTEGER PRIMARY KEY AUTOINCREMENT,\n".toList
      ++ "  n INTEGER DEFAULT '' PRIMARY KEY AUTOINCREMENT\n);".toList
    let line := "id INT auto_increment".toList
    (c.statement sql).value = .ok out
      ∧ (∃ body, out = body ++ [';'] ∧ ¬ HasKeyword marker (body.dropWhile (· != '\n')))
      ∧ HasKeyword marker (retyped c.types .mysqlToSqlite line)
      ∧ keyPhrase .mysqlToSqlite <:+: rewritten c.types .mysqlToSqlite line
      ∧ respellMarker .mysqlToSqlite (rewritten c.types .mysqlToSqlite line) = none := by
  intro sql c marker out line
  have hout : (c.statement sql).value = .ok out := by decide +kernel
  have hline : line ∈ (layout .mysqlToSqlite sql).definitions := by decide +kernel
  have hmarker : HasKeyword marker (retyped c.types .mysqlToSqlite line) := by decide +kernel
  obtain ⟨hbody, kept, hkept, -, hlines⟩ := markers_of_ok hout
  have hmem : line ∈ kept := hkept.mem hline (by decide +kernel) (by decide +kernel)
  obtain ⟨hphrase, hnone, -⟩ := (hlines line hmem).2 hmarker
  exact ⟨hout, hbody, hmarker, hphrase, hnone⟩

end SchemaDialects.Conversion
