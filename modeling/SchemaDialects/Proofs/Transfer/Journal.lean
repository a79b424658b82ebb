import SchemaDialects.Proofs.Rendering.Agreement
import SchemaDialects.Proofs.Rendering.KeyPlace
import SchemaDialects.Proofs.Transfer.Losses

/-!
# What a journal tells of a transfer

Whatever a column loses on its way is in the journal. A type that is not known or
not held gets one warning. A marker is either rendered for its column or gets one
warning: two stages drop markers, the conversion all but the first, the renderer
those that SQLite has no place for, and no marker is dropped by both.
-/

namespace SchemaDialects

/-! ## Warnings about a column -/

namespace Event

/-- The column that an event of a transfer names. -/
def column? : Event → Option Text
  | typeUnmapped column _ | typeLossy column _ _ | autoIncrementDropped column
  | extraDropped column _ | markerUnrendered column => some column
  | _ => none

/-- Told of a type that is not known, or not held. -/
def isAboutType : Event → Bool
  | typeUnmapped .. | typeLossy .. => true
  | _ => false

/-- Told of a marker that is lost. -/
def isAboutMarker : Event → Bool
  | autoIncrementDropped .. | markerUnrendered .. => true
  | _ => false

/-- The warnings of one kind that name the column `name`. -/
def warnings (kind : Event → Bool) (name : Text) (events : List Event) : List Event :=
  events.filter fun e => e.level == .warn && kind e && e.column? == some name

variable {kind : Event → Bool} {name : Text}

theorem warnings_append (events events' : List Event) :
    warnings kind name (events ++ events') = warnings kind name events ++ warnings kind name events' :=
  List.filter_append events events'

theorem warnings_cons_of_neg {e : Event} (h : e.column? = none) (events : List Event) :
    warnings kind name (e :: events) = warnings kind name events :=
  List.filter_cons_of_neg (by simp [h])

theorem warnings_of_ne {events : List Event} (h : ∀ e ∈ events, e.column? ≠ some name) :
    warnings kind name events = [] :=
  List.filter_eq_nil_iff.2 fun e he => by simp [h e he]

end Event

open Event (warnings isAboutType isAboutMarker warnings_append warnings_of_ne)

/-! ## The conversion -/

namespace Column

section
variable {m : TypeMap} {d : Direction} {kind : Event → Bool}

theorem cases_of_mem_typeEvents {c : Column} {e : Event} (h : e ∈ c.typeEvents m d) :
    e = .typeUnmapped c.name c.declaredType ∨ ∃ t, e = .typeLossy c.name c.declaredType t := by
  unfold typeEvents at h
  split at h
  · exact Or.inl (List.mem_singleton.1 h)
  · split at h
    · exact Or.inr ⟨_, List.mem_singleton.1 h⟩
    · cases h

theorem cases_of_mem_extraEvents {c : Column} {seen : Bool} {e : Event}
    (h : e ∈ c.extraEvents d seen) :
    e = .autoIncrementDropped c.name ∨ e = .extraDropped c.name c.extra := by
  unfold extraEvents at h
  split at h
  · split at h
    · exact Or.inl (List.mem_singleton.1 h)
    · cases h
  · split at h
    · cases h
    · exact Or.inr (List.mem_singleton.1 h)

theorem column?_of_mem_events {c : Column} {seen : Bool} {e : Event}
    (h : e ∈ (c.convert m d seen).events) : e.column? = some c.name := by
  rcases List.mem_append.1 h with h | h
  · rcases cases_of_mem_typeEvents h with rfl | ⟨t, rfl⟩ <;> rfl
  · rcases cases_of_mem_extraEvents h with rfl | rfl <;> rfl

theorem exists_of_mem_convertFrom {seen : Bool} {columns : List Column} {e : Event}
    (h : e ∈ (convertFrom m d seen columns).flatMap ColumnOutcome.events) :
    ∃ c ∈ columns, e.column? = some c.name := by
  induction columns generalizing seen with
  | nil => cases h
  | cons c columns ih =>
    rw [convertFrom, List.flatMap_cons] at h
    rcases List.mem_append.1 h with h | h
    · exact ⟨c, List.mem_cons_self, column?_of_mem_events h⟩
    · obtain ⟨x, hx, he⟩ := ih h
      exact ⟨x, List.mem_cons_of_mem _ hx, he⟩

theorem name_ne_of_nodup {before after : List Column} {c : Column}
    (hn : ((before ++ c :: after).map Column.name).Nodup) :
    (∀ x ∈ before, x.name ≠ c.name) ∧ ∀ x ∈ after, x.name ≠ c.name := by
  rw [List.map_append, List.map_cons, List.nodup_append, List.nodup_cons] at hn
  obtain ⟨-, ⟨hc, -⟩, hdisjoint⟩ := hn
  refine ⟨fun x hx => ?_, fun x hx he => hc (he ▸ List.mem_map_of_mem hx)⟩
  exact hdisjoint x.name (List.mem_map_of_mem hx) c.name List.mem_cons_self

theorem warnings_convertAllEvents {before after : List Column} {c : Column}
    (hn : ((before ++ c :: after).map Column.name).Nodup) :
    warnings kind c.name (convertAllEvents m d (before ++ c :: after))
      = warnings kind c.name
          (c.convert m d (before.any fun x => d.source.isMarked x.extra)).events := by
  obtain ⟨hbefore, hafter⟩ := name_ne_of_nodup hn
  have hnone : ∀ {seen : Bool} {columns : List Column}, (∀ x ∈ columns, x.name ≠ c.name) →
      warnings kind c.name ((convertFrom m d seen columns).flatMap ColumnOutcome.events) = [] := by
    intro seen columns h
    refine warnings_of_ne fun e he => ?_
    obtain ⟨x, hx, hxe⟩ := exists_of_mem_convertFrom he
    rw [hxe, ne_eq, Option.some_inj]
    exact h x hx
  rw [convertAllEvents, outcomes, convertFrom_append, convertFrom, List.flatMap_append,
    List.flatMap_cons, warnings_append, warnings_append, hnone hbefore, hnone hafter, List.nil_append,
    List.append_nil, Bool.false_or]

variable (m d) (c : Column) (seen : Bool)

theorem warnings_type_convert :
    warnings isAboutType c.name (c.convert m d seen).events = c.typeEvents m d := by
  have htype : warnings isAboutType c.name (c.typeEvents m d) = c.typeEvents m d := by
    refine List.filter_eq_self.2 fun e he => ?_
    rcases cases_of_mem_typeEvents he with rfl | ⟨t, rfl⟩ <;>
      simp [Event.level, isAboutType, Event.column?]
  have hextra : warnings isAboutType c.name (c.extraEvents d seen) = [] := by
    refine List.filter_eq_nil_iff.2 fun e he => ?_
    rcases cases_of_mem_extraEvents he with rfl | rfl <;> simp [isAboutType]
  rw [convert, warnings_append, htype, hextra, List.append_nil]

theorem warnings_marker_convert :
    warnings isAboutMarker c.name (c.convert m d seen).events
      = if d.source.isMarked c.extra && seen then [.autoIncrementDropped c.name] else [] := by
  have htype : warnings isAboutMarker c.name (c.typeEvents m d) = [] := by
    refine List.filter_eq_nil_iff.2 fun e he => ?_
    rcases cases_of_mem_typeEvents he with rfl | ⟨t, rfl⟩ <;> simp [isAboutMarker]
  rw [convert, warnings_append, htype, List.nil_append, extraEvents]
  cases d.source.isMarked c.extra with
  | true =>
    cases seen with
    | true => simp [warnings, Event.level, isAboutMarker, Event.column?]
    | false => simp [warnings]
  | false =>
    by_cases hextra : c.extra = []
    · simp [warnings, hextra]
    · simp [warnings, hextra, Event.level]

end

end Column

/-! ## The rendering -/

namespace Renderer

theorem exists_of_mem_inlineKeyEvents {r : Renderer} {columns : List Column} {e : Event}
    (h : e ∈ r.inlineKeyEvents columns) : ∃ c ∈ columns, e = .markerUnrendered c.name := by
  cases r with
  | mysql storage => cases h
  | sqlite =>
    rw [inlineKeyEvents] at h
    split at h
    · cases h
    · obtain ⟨c, hc, rfl⟩ := List.mem_map.1 h
      exact ⟨c, (List.mem_filter.1 hc).1, rfl⟩

theorem warnings_type_inlineKeyEvents (r : Renderer) (columns : List Column) (name : Text) :
    warnings isAboutType name (r.inlineKeyEvents columns) = [] := by
  refine List.filter_eq_nil_iff.2 fun e he => ?_
  obtain ⟨c, -, rfl⟩ := exists_of_mem_inlineKeyEvents he
  simp [isAboutType]

/-- SQLite tells of the marker of a column where no column declares the key. -/
theorem warnings_marker_inlineKeyEvents {pre post : List Column} {c : Column}
    (hn : ((pre ++ c :: post).map Column.name).Nodup) :
    warnings isAboutMarker c.name (sqlite.inlineKeyEvents (pre ++ c :: post))
      = if Dialect.sqlite.isMarked c.extra = true ∧ sqlite.inlineKey? (pre ++ c :: post) = none
        then [.markerUnrendered c.name] else [] := by
  obtain ⟨hpre, hpost⟩ := Column.name_ne_of_nodup hn
  have hnone : ∀ {columns : List Column}, (∀ x ∈ columns, x.name ≠ c.name) →
      warnings isAboutMarker c.name
        ((columns.filter fun x => Dialect.sqlite.isMarked x.extra).map fun x =>
          .markerUnrendered x.name) = [] := by
    intro columns h
    refine warnings_of_ne fun e he => ?_
    obtain ⟨x, hx, rfl⟩ := List.mem_map.1 he
    rw [Event.column?, ne_eq, Option.some_inj]
    exact h x (List.mem_filter.1 hx).1
  rw [inlineKeyEvents]
  cases sqlite.inlineKey? (pre ++ c :: post) with
  | some i => simp [warnings]
  | none =>
    rw [Option.isSome_none, if_neg Bool.false_ne_true, List.filter_append, List.map_append,
      warnings_append, hnone hpre, List.nil_append]
    by_cases hm : Dialect.sqlite.isMarked c.extra = true
    · have hcons : (c :: post).filter (fun x => Dialect.sqlite.isMarked x.extra)
          = c :: post.filter fun x => Dialect.sqlite.isMarked x.extra :=
        List.filter_cons_of_pos (by simpa using hm)
      rw [hcons, List.map_cons, if_pos ⟨hm, rfl⟩, ← List.singleton_append, warnings_append,
        hnone hpost]
      simp [warnings, Event.level, isAboutMarker, Event.column?]
    · have hcons : (c :: post).filter (fun x => Dialect.sqlite.isMarked x.extra)
          = post.filter fun x => Dialect.sqlite.isMarked x.extra :=
        List.filter_cons_of_neg (by simpa using hm)
      rw [hcons, hnone hpost, if_neg fun h => hm h.1]

/-- Where one column at most is marked, SQLite declares the key on that column
or on none. -/
theorem inlineKey?_of_marked {pre post : List Column} {c : Column}
    (hcount : (pre ++ c :: post).countP (fun x => Dialect.sqlite.isMarked x.extra) ≤ 1)
    (hc : Dialect.sqlite.isMarked c.extra = true) :
    sqlite.inlineKey? (pre ++ c :: post) = none
      ∨ sqlite.inlineKey? (pre ++ c :: post) = some pre.length := by
  have hget : (pre ++ c :: post)[pre.length]? = some c := by simp
  have hsingle := filter_eq_singleton_of_countP_le hcount (by simp) hc
  cases hi : sqlite.inlineKey? (pre ++ c :: post) with
  | none => exact Or.inl rfl
  | some i =>
    obtain ⟨k, hk, -, hm⟩ := inlineKey?_eq_some_iff.1 hi
    exact Or.inr (congrArg some (((filter_eq_singleton_iff hget).1 hsingle).2 i k hk hm))

theorem isMarked_of_rendersMarker {r : Renderer} {pre post : List Column} {c : Column}
    (h : r.RendersMarker (pre ++ c :: post) pre.length) : r.dialect.isMarked c.extra = true := by
  obtain ⟨x, hx, hm, -⟩ := rendersMarker_iff.1 h
  rw [List.getElem?_append_right (Nat.le_refl _), Nat.sub_self, List.getElem?_cons_zero,
    Option.some_inj] at hx
  exact hx ▸ hm

/-- Where one column at most is marked, its marker is rendered or told of. -/
theorem warnings_marker_rendered (r : Renderer) {pre post : List Column} {c : Column}
    (hn : ((pre ++ c :: post).map Column.name).Nodup)
    (hcount : (pre ++ c :: post).countP (fun x => r.dialect.isMarked x.extra) ≤ 1) :
    (r.RendersMarker (pre ++ c :: post) pre.length
        ∧ warnings isAboutMarker c.name (r.inlineKeyEvents (pre ++ c :: post)) = [])
      ∨ (¬ r.RendersMarker (pre ++ c :: post) pre.length
        ∧ warnings isAboutMarker c.name (r.inlineKeyEvents (pre ++ c :: post))
          = if r.dialect.isMarked c.extra then [.markerUnrendered c.name] else []) := by
  have hget : (pre ++ c :: post)[pre.length]? = some c := by simp
  by_cases hc : r.dialect.isMarked c.extra = true
  · cases r with
    | mysql storage => exact Or.inl ⟨rendersMarker_iff.2 ⟨c, hget, hc, Or.inl rfl⟩, rfl⟩
    | sqlite =>
      rw [warnings_marker_inlineKeyEvents hn, if_pos hc]
      rcases inlineKey?_of_marked hcount hc with hi | hi
      · refine Or.inr ⟨fun h => ?_, if_pos ⟨hc, hi⟩⟩
        obtain ⟨-, -, -, h | h⟩ := rendersMarker_iff.1 h
        · cases h
        · rw [hi] at h
          cases h
      · exact Or.inl ⟨rendersMarker_iff.2 ⟨c, hget, hc, Or.inr hi⟩, if_neg (by simp [hi])⟩
  · refine Or.inr ⟨fun h => hc (isMarked_of_rendersMarker h), ?_⟩
    rw [if_neg hc]
    cases r with
    | mysql storage => rfl
    | sqlite => rw [warnings_marker_inlineKeyEvents hn, if_neg fun h => hc h.1]

end Renderer

/-! ## The transfer -/

/-- The target renders one statement with `r`, and writes to the journal what that
leaves unrendered. What it does with the statement is its own matter. -/
structure Target.RendersWith {τ : Type} (target : Target τ) (r : Renderer) : Prop where
  dialect : target.dialect = r.dialect
  journal : ∀ table columns, (target.create table columns).1 = r.inlineKeyEvents columns

theorem Target.rendersWith_rendering {τ : Type} (r : Renderer) (failure? : Option τ) :
    (Target.rendering r failure?).RendersWith r :=
  ⟨rfl, fun _ _ => rfl⟩

theorem Direction.target_of_between? {a b : Dialect} {d : Direction} (h : between? a b = some d) :
    d.target = b := by
  cases a <;> cases b <;> cases h <;> rfl

namespace Transfer

section
variable {m : TypeMap} {d : Direction} {kind : Event → Bool} {name : Text}

theorem warnings_toTarget {ε τ : Type} (table : Text) (columns : List Column) (target : Target τ) :
    warnings kind name (toTarget (ε := ε) m d table columns target).events
      = warnings kind name (Column.convertAllEvents m d columns)
        ++ warnings kind name (target.create table (Column.convertAll m d columns)).1 := by
  simp only [toTarget]
  split
  · next h => rw [warnings_append, h]
  · next h =>
    rw [warnings_append, warnings_append, Event.warnings_cons_of_neg rfl, h]
    exact List.append_nil _

end

variable {ε τ : Type} {m : TypeMap} {source : Source ε} {target : Target τ} {r : Renderer}
  {d : Direction} {table : Text}

section
variable {before after : List Column} {c : Column}
  (hd : Direction.between? source.dialect target.dialect = some d)
  (hc : source.columns table = .ok (before ++ c :: after))
  (hn : ((before ++ c :: after).map Column.name).Nodup) (hr : target.RendersWith r)
include hd hc hn hr

/-- Of a transfer that renders its statement once, what the journal says about the
column `c`: what is said where its type and its marker are converted, and what is
said where its marker is rendered. -/
theorem warnings_run {kind : Event → Bool} :
    warnings kind c.name (run m table source target).events
      = warnings kind c.name
          (c.convert m d (before.any fun x => d.source.isMarked x.extra)).events
        ++ warnings kind c.name
          (r.inlineKeyEvents (Column.convertAll m d (before ++ c :: after))) := by
  have hne : before ++ c :: after ≠ [] := by simp
  rw [run_of_columns hd hc hne, Event.warnings_cons_of_neg rfl, warnings_toTarget, hr.journal,
    Column.warnings_convertAllEvents hn]

theorem warnings_type_run :
    warnings isAboutType c.name (run m table source target).events = c.typeEvents m d := by
  rw [warnings_run hd hc hn hr, Column.warnings_type_convert, Renderer.warnings_type_inlineKeyEvents,
    List.append_nil]

/-- The marker of the column `c` is rendered, or lost in one of the two stages. -/
theorem warnings_marker_run (hm : d.source.isMarked c.extra = true) :
    (r.RendersMarker (Column.convertAll m d (before ++ c :: after)) before.length
        ∧ warnings isAboutMarker c.name (run m table source target).events = [])
      ∨ (¬ r.RendersMarker (Column.convertAll m d (before ++ c :: after)) before.length
        ∧ (warnings isAboutMarker c.name (run m table source target).events
              = [.autoIncrementDropped c.name]
            ∨ warnings isAboutMarker c.name (run m table source target).events
              = [.markerUnrendered c.name])) := by
  have hdialect : r.dialect = d.target :=
    hr.dialect.symm.trans (Direction.target_of_between? hd).symm
  have hcount : (Column.convertAll m d (before ++ c :: after)).countP
      (fun x => r.dialect.isMarked x.extra) ≤ 1 :=
    hdialect ▸ Column.count_marked_convertAll_le m d _
  have hnames : ((Column.convertAll m d (before ++ c :: after)).map Column.name).Nodup :=
    (map_name_convertAll m d _).symm ▸ hn
  rw [warnings_run hd hc hn hr, Column.warnings_marker_convert, hm]
  obtain ⟨after', hsplit⟩ := Column.convertAll_append_cons m d before after c
  rw [hsplit] at hcount hnames ⊢
  have hrendered := Renderer.warnings_marker_rendered r hnames hcount
  rw [Column.length_convertAll, hdialect, Column.isMarked_target_convert, hm] at hrendered
  cases hseen : before.any fun x => d.source.isMarked x.extra with
  | false =>
    rw [hseen] at hrendered
    rcases hrendered with ⟨h, hnone⟩ | ⟨h, htold⟩
    · exact Or.inl ⟨h, hnone⟩
    · exact Or.inr ⟨h, Or.inr htold⟩
  | true =>
    -- The conversion has told of it, and has left the renderer no marker.
    rw [hseen] at hrendered
    rcases hrendered with ⟨h, -⟩ | ⟨h, hnone⟩
    · rw [← Column.length_convertAll m d before] at h
      have hmarked := Renderer.isMarked_of_rendersMarker h
      rw [hdialect, Column.isMarked_target_convert] at hmarked
      simp at hmarked
    · exact Or.inr ⟨h, Or.inl (congrArg _ hnone)⟩

end

/-- The target is given the converted columns of a table whose columns have names of
their own, and renders them once. Then for every column that the table has, the journal
has one warning about its type where that is not known or not held, and none where
it is held; and a marked column is rendered with the target's marker, or else there
is one warning that it is lost, and not both. The journal is the same if the target
fails afterwards. -/
theorem journal_tells_losses {columns : List Column}
    (hd : Direction.between? source.dialect target.dialect = some d)
    (hc : source.columns table = .ok columns) (hne : columns ≠ [])
    (hn : (columns.map Column.name).Nodup) (hr : target.RendersWith r) :
    let converted := Column.convertAll m d columns
    let result := run m table source target
    result.creations = [(table, converted)]
      ∧ ∀ before c after, columns = before ++ c :: after →
        (m.ofDeclared? d c.declaredType = none →
          warnings isAboutType c.name result.events = [.typeUnmapped c.name c.declaredType])
        ∧ (∀ t, c.LosesType m d t →
          warnings isAboutType c.name result.events = [.typeLossy c.name c.declaredType t])
        ∧ ((∃ mapping, m.ofDeclared? d c.declaredType = some mapping ∧ mapping.lossy = false) →
          warnings isAboutType c.name result.events = [])
        ∧ (d.source.Marks c.extra →
          (r.RendersMarker converted before.length
              ∧ warnings isAboutMarker c.name result.events = [])
            ∨ (¬ r.RendersMarker converted before.length
              ∧ (warnings isAboutMarker c.name result.events = [.autoIncrementDropped c.name]
                ∨ warnings isAboutMarker c.name result.events = [.markerUnrendered c.name]))) := by
  intro converted result
  refine ⟨?_, ?_⟩
  · exact (congrArg Transfer.creations (run_of_columns hd hc hne)).trans creations_toTarget
  · rintro before c after rfl
    have htype := warnings_type_run (m := m) hd hc hn hr
    refine ⟨fun h => ?_, fun t h => ?_, fun ⟨mapping, h, hl⟩ => ?_, fun h => ?_⟩
    · refine htype.trans ?_
      unfold Column.typeEvents
      simp only [h]
    · exact htype.trans (typeEvents_of_losesType h)
    · refine htype.trans ?_
      unfold Column.typeEvents
      simp only [h, hl, Bool.false_eq_true, if_false]
    · exact warnings_marker_run hd hc hn hr (isMarked_iff.2 h)

/-- Of a table whose key has a marked column and another one, and a second marked
column, of a type that is not known. The first marker finds no place in SQLite, and the
second is not kept. -/
theorem journal_tells_losses_of_shared_key :
    let number := (Column.ofType "number".toList "DECIMAL(10,2)".toList).primaryKey.withExtra
      "auto_increment".toList
    let part := (Column.ofType "part".toList "INT".toList).primaryKey
    let shape := (Column.ofType "shape".toList "GEOMETRY".toList).withExtra "AUTO_INCREMENT".toList
    let columns := [number, part, shape]
    let source : Source Text := ⟨.mysql, fun _ => .ok columns⟩
    let target : Target Text := Target.rendering .sqlite none
    let m : TypeMap := {}
    let result := run m "items".toList source target
    Direction.between? source.dialect target.dialect = some .mysqlToSqlite
      ∧ source.columns "items".toList = .ok columns ∧ columns ≠ []
      ∧ (columns.map Column.name).Nodup ∧ target.RendersWith .sqlite
      ∧ result.outcome = .ok ()
      ∧ warnings isAboutType "number".toList result.events
        = [.typeLossy "number".toList "DECIMAL(10,2)".toList "REAL".toList]
      ∧ warnings isAboutMarker "number".toList result.events = [.markerUnrendered "number".toList]
      ∧ warnings isAboutType "part".toList result.events = []
      ∧ warnings isAboutType "shape".toList result.events
        = [.typeUnmapped "shape".toList "GEOMETRY".toList]
      ∧ warnings isAboutMarker "shape".toList result.events
        = [.autoIncrementDropped "shape".toList] := by
  intro number part shape columns source target m result
  have hd : Direction.between? source.dialect target.dialect = some .mysqlToSqlite := rfl
  have hc : source.columns "items".toList = .ok columns := rfl
  have hne : columns ≠ [] := List.cons_ne_nil _ _
  have hn : (columns.map Column.name).Nodup := by decide
  have hr : target.RendersWith .sqlite := Target.rendersWith_rendering _ _
  obtain ⟨-, hcolumns⟩ := journal_tells_losses (m := m) hd hc hne hn hr
  have hnumber := hcolumns [] number [part, shape] rfl
  have hpart := hcolumns [number] part [shape] rfl
  have hshape := hcolumns [number, part] shape [] rfl
  have hlossy : number.LosesType m .mysqlToSqlite "REAL".toList := ⟨⟨_, true⟩, rfl, rfl, rfl⟩
  exact ⟨hd, hc, hne, hn, hr, rfl, hnumber.2.1 _ hlossy, by decide, hpart.2.2.1 ⟨⟨_, false⟩, rfl, rfl⟩,
    hshape.1 rfl, by decide⟩

end Transfer

end SchemaDialects
