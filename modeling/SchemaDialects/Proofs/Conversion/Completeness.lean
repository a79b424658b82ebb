import SchemaDialects.Proofs.Conversion.Output
import SchemaDialects.Proofs.Definition.Lines
import SchemaDialects.Proofs.Definition.Tame
import SchemaDialects.Proofs.Rendering.Table
import SchemaDialects.Proofs.Script.Body
import SchemaDialects.Proofs.Script.Ending

/-!
# Complete output

The converter keeps the lines of a statement and puts a comma between each two
definitions, whatever stood there. The output is complete exactly when the
statement's own lines are with these commas.
-/

namespace SchemaDialects.Conversion

open Text Definition Script

/-! ## The ending -/

/-- The place behind a finished statement that was read up to `r`. -/
def finishedPlace : Direction → Reading → Place
  | .mysqlToSqlite, r => if r.place.isEnded then r.place else (r.step ';').place
  | .sqliteToMysql, r =>
    if r.place.isEnded then .ended 0 else (((r.step ' ').step 'A').step ';').place

theorem isOrdinary_clause {storage : Storage} (hs : storage.IsBare) :
    ∀ x ∈ storage.clause, isOrdinary x = true := by
  have hbare : ∀ {w : Text}, Settings.isBareIdentifier w = true → ∀ x ∈ w, isOrdinary x = true :=
    fun hw x hx => isOrdinary_of_class (by decide) ((chars_of_isBareIdentifier hw).2 x hx)
  have heq : storage.clause = "ENGINE=".toList ++ storage.engine ++ " DEFAULT CHARSET=".toList
      ++ storage.charset := rfl
  intro x hx
  rw [heq, List.mem_append, List.mem_append, List.mem_append] at hx
  rcases hx with ((hx | hx) | hx) | hx
  · exact (by decide : ∀ y ∈ "ENGINE=".toList, isOrdinary y = true) x hx
  · exact hbare hs.engine x hx
  · exact (by decide : ∀ y ∈ " DEFAULT CHARSET=".toList, isOrdinary y = true) x hx
  · exact hbare hs.charset x hx

section
variable {c : Conversion} {s : Text}

theorem place_finish_sqlite (hc : c.direction = .mysqlToSqlite) :
    (Reading.start.run (c.finish s)).place = finishedPlace c.direction (Reading.start.run s) := by
  unfold finish finishedPlace
  rw [hc]
  simp only
  by_cases hs : endsWith s ';' = true
  · rw [if_pos hs]
    split
    · rfl
    · next he => rw [Reading.place_step_of_endsWith hs (by simpa using he)]
  · rw [if_neg hs, Reading.run_append, Reading.run_cons, Reading.run_nil, if_neg]
    intro he
    exact hs (Reading.endsWith_of_ended he)

theorem run_clause {storage : Storage} (hs : storage.IsBare) (r : Reading) :
    r.run (' ' :: storage.clause ++ [';']) = ((r.step ' ').step 'A').step ';' := by
  have hclause : (r.step ' ').run storage.clause = (r.step ' ').step 'A' :=
    Reading.run_word (c := 'E') _ (by decide) (isOrdinary_clause hs)
  rw [List.cons_append, Reading.run_cons, Reading.run_append, hclause]
  rfl

/-- A clause before the semicolon leaves a statement ended or broken. -/
theorem place_clause_of_semicolon {r : Reading} (h : r.lexical.isOutside = true)
    (he : r.place.isEnded = false)
    (hp : (r.step ';').place = .ended 0 ∨ (r.step ';').place = .broken) :
    (((r.step ' ').step 'A').step ';').place = (r.step ';').place := by
  have hblank : r.step ' ' = ⟨.plain, (r.step ' ').place⟩ := by
    rw [Reading.step_of_isBlank h (c := ' ') (by decide)]
  rw [Reading.step_semicolon h he] at hp ⊢
  rw [hblank]
  generalize (r.step ' ').place = p at hp ⊢
  rcases p with _ | ⟨_ | n, b⟩ | ⟨_ | n⟩ | k | _
  · rfl
  · rfl
  · rfl
  · rfl
  · rfl
  · rcases hp with hp | hp
    · injection hp with hk
      omega
    · cases hp
  · rfl

/-- Within quotes or a comment neither the clause nor what is cut before it is read. -/
theorem place_clause_within {r : Reading} (hin : r.lexical.isOutside = false) {cut : Text}
    (hmild : ∀ d ∈ cut, d ∉ closers) (hcut : CutAtBreaks r.lexical cut)
    (hplain : (r.run cut).place.isEnded = true → (r.run cut).lexical = .plain) :
    (((r.step ' ').step 'A').step ';').place = finishedPlace .sqliteToMysql (r.run cut) := by
  obtain ⟨hin', hheld, -⟩ := Reading.held_run hin hmild hcut
  have hword : ∀ {u : Reading}, u.lexical.isOutside = false →
      (((u.step ' ').step 'A').step ';').place = u.held := fun hu =>
    (Reading.held_run hu (s := " A;".toList) (by decide) (cutAtBreaks_of_line (by decide))).2.2
      (by decide)
  rw [finishedPlace, if_neg, hword hin, hword hin', hheld]
  intro hend
  rw [hplain hend] at hin'
  cases hin'

/-- Outside of them the clause is read behind the last word, and the semicolons cut before it end
or break the statement as the clause's own one does. -/
theorem place_clause_outside {r : Reading} (hout : r.lexical.isOutside = true) {b e : Text}
    (hblank : ∀ d ∈ b, isBlank d = true) (hsemi : ∀ d ∈ e, d = ';')
    (hended : (r.run b).place.isEnded = false) :
    (((r.step ' ').step 'A').step ';').place = finishedPlace .sqliteToMysql (r.run (b ++ e)) := by
  rw [finishedPlace, Reading.run_append]
  obtain ⟨hout', hspace⟩ := Reading.run_of_blanks hout hblank
  rw [← hspace]
  generalize r.run b = u at hended hout' ⊢
  cases e with
  | nil => rw [Reading.run_nil, if_neg (by simp [hended])]
  | cons d e =>
    rcases Reading.place_run_semicolons hout' hended hsemi with ⟨hp, hend⟩ | ⟨hp, hend⟩
    · rw [place_clause_of_semicolon hout' hended (Or.inl hp), if_pos hend, hp]
    · have hbroken : ∀ x, ((u.run (d :: e)).step x).place = .broken :=
        Reading.place_step_broken hend
      rw [place_clause_of_semicolon hout' hended (Or.inr hp), hp, if_neg (by rw [hend]; decide)]
      exact (Reading.place_step_broken (Reading.place_step_broken (hbroken ' ') 'A') ';').symm

theorem not_isEnded_dropSemicolons (s : Text) :
    (Reading.start.run (dropEndWhile (· == ';') s)).place.isEnded = false := by
  rw [Bool.eq_false_iff]
  intro hended
  have hlast := last_dropEndWhile (p := (· == ';')) s
  have hends := Reading.endsWith_of_ended hended
  rw [endsWith, beq_iff_eq] at hends
  simp [hends] at hlast

theorem place_finish_mysql (hc : c.direction = .sqliteToMysql) (hs : c.storage.IsBare)
    (hb : CutAtBreaks .plain s) :
    (Reading.start.run (c.finish s)).place = finishedPlace c.direction (Reading.start.run s) := by
  have hfinish : c.finish s
      = trimEnd (dropEndWhile (· == ';') s) ++ (' ' :: c.storage.clause ++ [';']) := by
    unfold finish
    rw [hc]
    simp
  obtain ⟨e, he, hsemi⟩ := exists_dropEndWhile (· == ';') s
  obtain ⟨b, hy, hblank⟩ := exists_trimEnd (dropEndWhile (· == ';') s)
  have hended := not_isEnded_dropSemicolons s
  rw [hfinish, Reading.run_append, run_clause hs, hc]
  rw [hy] at hended
  generalize trimEnd (dropEndWhile (· == ';') s) = y at hy hended ⊢
  obtain rfl : s = y ++ (b ++ e) := by rw [he, hy, List.append_assoc]
  have hcut := hb.suffix
  rw [show Lexical.plain.run y = (Reading.start.run y).lexical by simp [Reading.start]] at hcut
  have hplain := Reading.lexical_of_ended (s := y ++ (b ++ e))
  rw [Reading.run_append] at hended hplain ⊢
  have hsemi : ∀ d ∈ e, d = ';' := fun d hd => by simpa using hsemi d hd
  cases hout : (Reading.start.run y).lexical.isOutside with
  | false =>
    refine place_clause_within hout (fun d hd => ?_) hcut hplain
    rcases List.mem_append.1 hd with hd | hd
    · exact not_mem_closers_of_isBlank (hblank d hd)
    · rw [hsemi d hd]
      decide
  | true => exact place_clause_outside hout hblank hsemi hended

theorem place_finish (hs : c.storage.IsBare) (hb : CutAtBreaks .plain s) :
    (Reading.start.run (c.finish s)).place = finishedPlace c.direction (Reading.start.run s) := by
  cases hc : c.direction with
  | mysqlToSqlite => rw [← hc]; exact place_finish_sqlite hc
  | sqliteToMysql => rw [← hc]; exact place_finish_mysql hc hs hb

end

/-! ## The lines -/

/-- The definitions that are kept, each beside its converted line. -/
def kept (c : Conversion) (l : Layout) : List (Text × Text) :=
  let lines := l.definitions.filterMap fun line =>
    (convert c.types c.direction none line).line?.map (line, ·)
  match (c.outcomes none l).findSome? Outcome.autoColumn? with
  | some auto => eraseLast (isSoleKeyOf auto ∘ Prod.snd) lines
  | none => lines

/-- The definitions that are kept, as the statement has them. -/
def sources (c : Conversion) (l : Layout) : List Text := (c.kept l).map Prod.fst

theorem eraseLast_map {α β : Type} (p : β → Bool) (f : α → β) (l : List α) :
    (eraseLast (p ∘ f) l).map f = eraseLast p (l.map f) := by
  rw [eraseLast, eraseLast, List.map_reverse, ← List.eraseP_map, List.map_reverse]

theorem eraseLast_subset {α : Type} (p : α → Bool) (l : List α) : eraseLast p l ⊆ l := by
  intro x hx
  exact List.mem_reverse.1 (List.mem_of_mem_eraseP (List.mem_reverse.1 hx))

theorem map_snd_kept (c : Conversion) (l : Layout) :
    (c.kept l).map Prod.snd = keptLines (c.outcomes none l) := by
  have hlines : (l.definitions.filterMap fun line =>
        (convert c.types c.direction none line).line?.map (line, ·)).map Prod.snd
      = (c.outcomes none l).filterMap Outcome.line? := by
    rw [outcomes, List.map_filterMap, List.filterMap_map]
    refine congrArg (List.filterMap · l.definitions) (funext fun line => ?_)
    simp [Function.comp_def]
  rw [kept, keptLines]
  cases (c.outcomes none l).findSome? Outcome.autoColumn? with
  | none => exact hlines
  | some auto => rw [← hlines]; exact eraseLast_map _ _ _

theorem of_mem_kept {c : Conversion} {l : Layout} {x : Text × Text} (h : x ∈ c.kept l) :
    x.1 ∈ l.definitions ∧ (convert c.types c.direction none x.1).line? = some x.2 := by
  have hmem : x ∈ l.definitions.filterMap fun line =>
      (convert c.types c.direction none line).line?.map (line, ·) := by
    rw [kept] at h
    cases hauto : (c.outcomes none l).findSome? Outcome.autoColumn? with
    | none => rw [hauto] at h; exact h
    | some auto => rw [hauto] at h; exact eraseLast_subset _ _ h
  obtain ⟨line, hline, hx⟩ := List.mem_filterMap.1 hmem
  obtain ⟨line', hc, rfl⟩ := Option.map_eq_some_iff.1 hx
  exact ⟨hline, hc⟩

theorem not_mem_definitions (d : Direction) (sql : Text) {line : Text}
    (h : line ∈ (layout d sql).definitions) : '\n' ∉ line := by
  obtain ⟨l, hl, rfl⟩ := List.mem_map.1 h
  have hmem := List.mem_of_mem_tail ((List.takeWhile_prefix _).subset hl)
  rw [withoutComma]
  intro hm
  refine (ends_of_mem_contentLines hmem).2.2 ?_
  exact (isPrefix_dropEndWhile _ _).subset ((isPrefix_dropEndWhile _ _).subset hm)

/-- The definitions are tame where they are read, and none ends inside a line
comment. -/
def TameFrom (m : TypeMap) (d : Direction) : Reading → List Text → Prop
  | _, [] => True
  | r, line :: lines => IsTame m d r line ∧ (r.run line).lexical ≠ .lineComment
    ∧ TameFrom m d (r.run (line ++ ",\n  ".toList)) lines

instance decidableTameFrom (m : TypeMap) (d : Direction) :
    (r : Reading) → (lines : List Text) → Decidable (TameFrom m d r lines)
  | _, [] => .isTrue trivial
  | r, line :: lines =>
    have := decidableTameFrom m d (r.run (line ++ ",\n  ".toList)) lines
    inferInstanceAs (Decidable (_ ∧ _ ∧ _))

/-- Two texts that move the reader alike and break their lines outside line
comments. -/
structure ReadAlike (r : Reading) (s t : Text) : Prop where
  run : r.run t = r.run s
  cut : CutAtBreaks r.lexical s
  cut' : CutAtBreaks r.lexical t

section
variable {r : Reading}

theorem ReadAlike.append {s t s' t' : Text} (h : ReadAlike r s t)
    (h' : ReadAlike (r.run s) s' t') : ReadAlike r (s ++ s') (t ++ t') where
  run := by rw [Reading.run_append, Reading.run_append, h.run, h'.run]
  cut := h.cut.append (by rw [← Reading.lexical_run]; exact h'.cut)
  cut' := h.cut'.append (by rw [← Reading.lexical_run, h.run]; exact h'.cut')

theorem readAlike_of_line {s t : Text} (hs : '\n' ∉ s) (ht : '\n' ∉ t) (h : r.run t = r.run s) :
    ReadAlike r s t :=
  ⟨h, cutAtBreaks_of_line hs, cutAtBreaks_of_line ht⟩

theorem readAlike_break (hr : r.lexical ≠ .lineComment) {u : Text} (hu : '\n' ∉ u) :
    ReadAlike r ('\n' :: u) ('\n' :: u) := by
  have hcut : CutAtBreaks r.lexical ('\n' :: u) := by
    intro a t h
    cases a with
    | nil => exact hr
    | cons c a =>
      obtain ⟨-, hu'⟩ := List.cons.inj h
      exact absurd (by simp [hu']) hu
  exact ⟨rfl, hcut, hcut⟩

theorem lexical_step_comma (hr : r.lexical ≠ .lineComment) :
    (r.step ',').lexical ≠ .lineComment := by
  obtain ⟨l, p⟩ := r
  cases l with
  | lineComment => exact absurd rfl hr
  | quoted q => cases q <;> simp [Reading.step, Lexical.step, Quote.char]
  | _ => simp [Reading.step, Lexical.step, Lexical.opening, Quote.ofChar?]

theorem readAlike_comma (hr : r.lexical ≠ .lineComment) :
    ReadAlike r ",\n  ".toList ",\n  ".toList :=
  (readAlike_of_line (s := [',']) (t := [',']) (by decide) (by decide) rfl).append
    (readAlike_break (lexical_step_comma hr) (u := "  ".toList) (by decide))

variable {m : TypeMap} {d : Direction}

theorem readAlike_join {ps : List (Text × Text)}
    (hps : ∀ x ∈ ps, '\n' ∉ x.1 ∧ (convert m d none x.1).line? = some x.2) (hne : ps ≠ [])
    (ht : TameFrom m d r (ps.map Prod.fst)) :
    ReadAlike r (join ",\n  ".toList (ps.map Prod.fst)) (join ",\n  ".toList (ps.map Prod.snd))
      ∧ (r.run (join ",\n  ".toList (ps.map Prod.fst))).lexical ≠ .lineComment := by
  induction ps generalizing r with
  | nil => exact absurd rfl hne
  | cons x ps ih =>
    obtain ⟨hbreak, hconv⟩ := hps x (by simp)
    obtain ⟨htame, hcut, hrest⟩ := ht
    have hline : ReadAlike r x.1 x.2 :=
      readAlike_of_line hbreak (not_mem_of_kept hbreak hconv) (run_convert hbreak htame hconv)
    cases ps with
    | nil => exact ⟨hline, hcut⟩
    | cons y ps =>
      obtain ⟨hlines, hlast⟩ := ih (fun z hz => hps z (by simp [hz])) (by simp) hrest
      have hcomma := hline.append (readAlike_comma hcut)
      refine ⟨hcomma.append hlines, ?_⟩
      show (r.run (x.1 ++ ",\n  ".toList ++ join ",\n  ".toList ((y :: ps).map Prod.fst))).lexical
        ≠ .lineComment
      rw [Reading.run_append]
      exact hlast

end

/-- The header is closed and the definitions are tame where they are read. -/
structure TameLayout (c : Conversion) (l : Layout) : Prop where
  plain : isPlainCreateTable l.header = true
  header : (Reading.start.run l.header).lexical ≠ .lineComment
  definitions :
    TameFrom c.types c.direction (Reading.start.run (l.header ++ "\n  ".toList)) (c.sources l)

instance (c : Conversion) (l : Layout) : Decidable (TameLayout c l) :=
  decidable_of_iff (isPlainCreateTable l.header = true
      ∧ (Reading.start.run l.header).lexical ≠ .lineComment
      ∧ TameFrom c.types c.direction (Reading.start.run (l.header ++ "\n  ".toList)) (c.sources l))
    ⟨fun h => ⟨h.1, h.2.1, h.2.2⟩, fun h => ⟨h.plain, h.header, h.definitions⟩⟩

theorem assemble_eq {header : Text} {defs : List Text} (hne : defs ≠ []) (closed : Bool) :
    assemble header defs closed = header ++ "\n  ".toList ++ join ",\n  ".toList defs
      ++ (if closed then "\n)".toList else []) := by
  rw [assemble, if_neg hne]
  simp only [List.append_assoc]

theorem readAlike_assemble {c : Conversion} {l : Layout} (hbreak : '\n' ∉ l.header)
    (hdefs : ∀ line ∈ l.definitions, '\n' ∉ line) (h : TameLayout c l) (hne : c.kept l ≠ [])
    (closed : Bool) :
    ReadAlike .start (assemble l.header (c.sources l) closed)
      (assemble l.header ((c.kept l).map Prod.snd) closed) := by
  have hhead : ReadAlike .start (l.header ++ "\n  ".toList) (l.header ++ "\n  ".toList) :=
    (readAlike_of_line hbreak hbreak rfl).append
      (readAlike_break h.header (u := "  ".toList) (by decide))
  have hps : ∀ x ∈ c.kept l, '\n' ∉ x.1 ∧ (convert c.types c.direction none x.1).line? = some x.2 :=
    fun x hx => ⟨hdefs _ (of_mem_kept hx).1, (of_mem_kept hx).2⟩
  obtain ⟨hlines, hlast⟩ := readAlike_join hps hne h.definitions
  rw [assemble_eq (by simpa [sources] using hne), assemble_eq (by simpa using hne)]
  refine (hhead.append hlines).append ?_
  cases closed with
  | false => exact readAlike_of_line (by simp) (by simp) rfl
  | true =>
    refine readAlike_break ?_ (u := [')']) (by decide)
    rw [Reading.run_append]
    exact hlast

/-! ## Complete statements -/

/-- Nothing is cut from a header that a line follows. -/
theorem exists_finish (c : Conversion) {header : Text} (hl : header.getLast?.any isBlank = false)
    (u : Text) : ∃ b w, isBlank b = true ∧ c.finish (header ++ '\n' :: u) = header ++ b :: w := by
  unfold finish
  cases c.direction with
  | mysqlToSqlite =>
    simp only
    split
    · exact ⟨'\n', u, by decide, rfl⟩
    · exact ⟨'\n', u ++ [';'], by decide, by simp⟩
  | sqliteToMysql =>
    have hdrop : ∃ u', dropEndWhile (· == ';') (header ++ '\n' :: u) = header ++ '\n' :: u' := by
      have hne : dropEndWhile (· == ';') ('\n' :: u) ≠ [] := by
        rw [dropEndWhile, Ne, List.reverse_eq_nil_iff, List.dropWhile_eq_nil_iff]
        intro h
        exact absurd (h '\n' (by simp)) (by decide)
      obtain ⟨v, hv⟩ := isPrefix_dropEndWhile (· == ';') ('\n' :: u)
      obtain ⟨x, w, hx⟩ := List.exists_cons_of_ne_nil hne
      rw [hx] at hv
      obtain ⟨rfl, -⟩ := List.cons.inj hv
      exact ⟨w, by rw [dropEndWhile_append_of_ne hne, hx]⟩
    obtain ⟨u', hu'⟩ := hdrop
    simp only
    rw [hu', ← List.singleton_append, ← List.append_assoc]
    by_cases hb : trimEnd u' = []
    · have hall : ∀ x ∈ '\n' :: u', isBlank x = true :=
        List.forall_mem_cons.2 ⟨by decide, trimEnd_eq_nil_iff.1 hb⟩
      have htrim : trimEnd (header ++ ['\n'] ++ u') = header := by
        rw [List.append_assoc, List.singleton_append, trimEnd, dropEndWhile_append_of_all hall]
        exact trimEnd_eq_self hl
      exact ⟨' ', c.storage.clause ++ [';'], by decide, by rw [htrim]; simp⟩
    · exact ⟨'\n', trimEnd u' ++ (' ' :: c.storage.clause ++ [';']), by decide, by
        rw [trimEnd_append_of_ne hb]; simp⟩

theorem isComplete_finish_iff {c : Conversion} {header : Text}
    (hp : isPlainCreateTable header = true) (hh : header.head?.any isBlank = false)
    (hl : header.getLast?.any isBlank = false) (u : Text) :
    IsComplete (c.finish (header ++ '\n' :: u)) ↔
      (Reading.start.run (c.finish (header ++ '\n' :: u))).place = .after 0
        ∨ (Reading.start.run (c.finish (header ++ '\n' :: u))).place = .ended 0 := by
  have hne : header ≠ [] := by
    rintro rfl
    exact absurd hp (by decide)
  obtain ⟨b, w, hb, hw⟩ := exists_finish c hl u
  apply isComplete_iff
  · have hlast := getLast?_finish c (header ++ '\n' :: u)
    refine trim_eq_self ?_ (by rw [hlast]; rfl)
    obtain ⟨x, t, rfl⟩ := List.exists_cons_of_ne_nil hne
    rw [hw]
    exact hh
  · rw [hw]
    exact isPlainCreateTable_append_head hp (by simpa using hb)

/-- The output is complete exactly when the lines of the statement are that were
kept, with the output's commas between them. -/
theorem isComplete_output_iff {c : Conversion} (hs : c.storage.IsBare) {sql out : Text}
    (hout : (c.statement sql).value = .ok out) (ht : TameLayout c (layout c.direction sql)) :
    IsComplete out ↔ IsComplete (c.finish (assemble (layout c.direction sql).header
      (c.sources (layout c.direction sql)) (layout c.direction sql).closing?.isSome)) := by
  have heq : out = c.output (layout c.direction sql) := by
    rw [value_statement] at hout
    split at hout
    · split at hout
      · cases hout
      · exact (Except.ok.inj hout).symm
    · cases hout
  have hdefs := fun line (h : line ∈ _) => not_mem_definitions c.direction sql h
  have hmem : (layout c.direction sql).header ∈ contentLines (requoted c.direction (body sql)) := by
    have hplain := ht.plain
    unfold layout Layout.ofLines at hplain ⊢
    cases hlines : contentLines (requoted c.direction (body sql)) with
    | nil =>
      rw [hlines] at hplain
      exact absurd hplain (by decide)
    | cons h ls => exact List.mem_cons_self
  obtain ⟨hh, hl, hbreak⟩ := ends_of_mem_contentLines hmem
  generalize layout c.direction sql = l at *
  rw [heq, output, ← map_snd_kept]
  by_cases hne : c.kept l = []
  · rw [sources, hne]
    rfl
  · have halike := readAlike_assemble hbreak hdefs ht hne l.closing?.isSome
    have hshape : ∀ defs : List Text, defs ≠ [] → ∃ u,
        assemble l.header defs l.closing?.isSome = l.header ++ '\n' :: u := by
      intro defs hd
      rw [assemble_eq hd]
      exact ⟨"  ".toList ++ join ",\n  ".toList defs ++ _, by simp; rfl⟩
    obtain ⟨u, hu⟩ := hshape (c.sources l) (by simpa [sources] using hne)
    obtain ⟨u', hu'⟩ := hshape ((c.kept l).map Prod.snd) (by simpa using hne)
    have hplace := place_finish hs halike.cut
    have hplace' := place_finish hs halike.cut'
    rw [halike.run, ← hplace] at hplace'
    rw [hu] at hplace' ⊢
    rw [hu'] at hplace' ⊢
    rw [isComplete_finish_iff ht.plain hh hl, isComplete_finish_iff ht.plain hh hl, hplace']

/-- Of a table with an attribute, a marker and a key clause both are complete. -/
theorem isComplete_output_key :
    let sql := "CREATE TABLE t (\n  id INT UNSIGNED AUTO_INCREMENT,\n  PRIMARY KEY (id)\n) ENGINE=x;".toList
    let c : Conversion := { direction := .mysqlToSqlite }
    let out := "CREATE TABLE t (\n  id INTEGER PRIMARY KEY AUTOINCREMENT\n);".toList
    let l := layout .mysqlToSqlite sql
    c.storage.IsBare ∧ (c.statement sql).value = .ok out ∧ TameLayout c l ∧ IsComplete out
      ∧ IsComplete (c.finish (assemble l.header (c.sources l) l.closing?.isSome)) := by
  intro sql c out l
  have hs : c.storage.IsBare := ⟨by decide, by decide⟩
  have hout : (c.statement sql).value = .ok out := by decide +kernel
  have ht : TameLayout c l := by decide +kernel
  have hcomplete : IsComplete out := by decide +kernel
  exact ⟨hs, hout, ht, hcomplete, (isComplete_output_iff hs hout ht).1 hcomplete⟩

/-- A complete statement whose parenthesis opens on a line of its own, and what
becomes of it. -/
theorem not_isComplete_output_parenthesis :
    let sql := "CREATE TABLE t\n(\n  id INT\n);".toList
    let c : Conversion := { direction := .mysqlToSqlite }
    let out := "CREATE TABLE t\n  (,\n  id INTEGER\n);".toList
    IsComplete sql ∧ (c.statement sql).value = .ok out ∧ ¬ IsComplete out := by
  intro sql c out
  exact ⟨by decide +kernel, by decide +kernel, by decide +kernel⟩

end SchemaDialects.Conversion
