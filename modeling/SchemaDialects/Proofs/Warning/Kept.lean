import Mathlib.Data.List.Induction
import Mathlib.Data.List.Infix
import SchemaDialects.Conversion.Session

/-!
# What a log keeps

A warning is compared with those in the log only, and nothing enters a full log.
Since resemblance carries over from warning to warning, the log holds all the
same what dropping every warning that resembles an earlier one leaves, as far as
the limit reaches.
-/

namespace SchemaDialects

namespace Warning

/-! ## Resemblance -/

/-- What a warning is about, wherever it applies. -/
inductive Subject where
  | feature (name : Text)
  | loss (source target : Text) (table : Option Text)
  | unmapped (typeName : Text) (table : Option Text)

/-- A skipped statement is no subject that could come up again. -/
def subject? : Warning → Option Subject
  | unsupportedFeature feature _ => some (.feature feature)
  | lossyConversion source target table _ => some (.loss source target table)
  | unmappedType typeName table _ => some (.unmapped typeName table)
  | skippedStatement _ _ => none

theorem resembles_iff {v w : Warning} :
    v.resembles w = true ↔ ∃ s, v.subject? = some s ∧ w.subject? = some s := by
  cases v <;> cases w <;> simp [resembles, subject?]
  all_goals grind

theorem resembles_symm {v w : Warning} (h : v.resembles w = true) : w.resembles v = true := by
  obtain ⟨s, hv, hw⟩ := resembles_iff.1 h
  exact resembles_iff.2 ⟨s, hw, hv⟩

theorem resembles_trans {u v w : Warning} (h : u.resembles v = true) (h' : v.resembles w = true) :
    u.resembles w = true := by
  obtain ⟨s, hu, hv⟩ := resembles_iff.1 h
  obtain ⟨t, hv', hw⟩ := resembles_iff.1 h'
  obtain rfl : s = t := Option.some.inj (hv.symm.trans hv')
  exact resembles_iff.2 ⟨s, hu, hw⟩

/-! ## The first of their kind -/

/-- The warnings that resemble none before them, where `earlier` came before all. -/
def firstsAfter (earlier : List Warning) : List Warning → List Warning
  | [] => []
  | w :: ws =>
    if earlier.any (·.resembles w) then firstsAfter (earlier ++ [w]) ws
    else w :: firstsAfter (earlier ++ [w]) ws

def firsts (ws : List Warning) : List Warning := firstsAfter [] ws

/-- No warning resembles one before or after it. -/
def AreDistinct (ws : List Warning) : Prop :=
  ws.Pairwise fun v w => v.resembles w = false ∧ w.resembles v = false

theorem firstsAfter_append (earlier ws vs : List Warning) :
    firstsAfter earlier (ws ++ vs) = firstsAfter earlier ws ++ firstsAfter (earlier ++ ws) vs := by
  induction ws generalizing earlier with
  | nil => simp [firstsAfter]
  | cons w ws ih =>
    simp only [List.cons_append, firstsAfter, ih, List.append_assoc, List.nil_append]
    split
    · rfl
    · rfl

theorem firsts_append (ws vs : List Warning) : firsts (ws ++ vs) = firsts ws ++ firstsAfter ws vs :=
  firstsAfter_append [] ws vs

theorem firsts_concat (ws : List Warning) (w : Warning) :
    firsts (ws ++ [w]) = firsts ws ++ if ws.any (·.resembles w) then [] else [w] := by
  rw [firsts_append, firstsAfter, firstsAfter]

theorem firstsAfter_sublist (earlier ws : List Warning) : (firstsAfter earlier ws).Sublist ws := by
  induction ws generalizing earlier with
  | nil => exact List.Sublist.refl []
  | cons w ws ih =>
    rw [firstsAfter]
    split
    · exact (ih _).cons w
    · exact (ih _).cons_cons w

/-- What resembles a warning that was dropped resembles the one that it was
dropped for. -/
theorem any_firsts (ws : List Warning) (w : Warning) :
    (firsts ws).any (·.resembles w) = ws.any (·.resembles w) := by
  induction ws using List.reverseRecOn with
  | nil => rfl
  | append_singleton ws x ih =>
    rw [firsts_concat, List.any_append, List.any_append, ih]
    by_cases hx : ws.any (·.resembles x) = true
    · rw [if_pos hx]
      by_cases hw : x.resembles w = true
      · obtain ⟨v, hv, hvx⟩ := List.any_eq_true.1 hx
        have hany : ws.any (·.resembles w) = true :=
          List.any_eq_true.2 ⟨v, hv, resembles_trans hvx hw⟩
        simp [hany]
      · simp [hw]
    · rw [if_neg hx]

theorem areDistinct_firsts (ws : List Warning) : AreDistinct (firsts ws) := by
  induction ws using List.reverseRecOn with
  | nil => exact List.Pairwise.nil
  | append_singleton ws x ih =>
    rw [firsts_concat]
    split
    · rwa [List.append_nil]
    · next hx =>
      refine List.pairwise_append.2 ⟨ih, List.pairwise_singleton _ _, fun v hv w hw => ?_⟩
      obtain rfl := List.mem_singleton.1 hw
      have hv' : v.resembles w = false := by
        rw [Bool.eq_false_iff]
        exact fun h => hx (List.any_eq_true.2 ⟨v, (firstsAfter_sublist [] ws).subset hv, h⟩)
      refine ⟨hv', ?_⟩
      rw [Bool.eq_false_iff] at hv' ⊢
      exact fun h => hv' (resembles_symm h)

theorem mem_or_resembles_of_mem {ws : List Warning} {w : Warning} (h : w ∈ ws) :
    w ∈ firsts ws ∨ ∃ v ∈ firsts ws, v.resembles w = true := by
  by_cases hw : (firsts ws).any (·.resembles w) = true
  · exact Or.inr (List.any_eq_true.1 hw)
  · left
    obtain ⟨before, after, rfl⟩ := List.append_of_mem h
    have hbefore : ¬ before.any (·.resembles w) = true := by
      rw [any_firsts, List.any_append] at hw
      intro hb
      simp [hb] at hw
    rw [← List.singleton_append, ← List.append_assoc, firsts_append, firsts_concat, if_neg hbefore]
    simp

end Warning

open Warning (firsts AreDistinct firsts_append firsts_concat any_firsts)

/-! ## Additions -/

namespace WarningLog

@[simp] theorem limit_foldl_add (log : WarningLog) (ws : List Warning) :
    (ws.foldl add log).limit = log.limit := by
  induction ws generalizing log with
  | nil => rfl
  | cons w ws ih => rw [List.foldl_cons, ih, limit_add]

theorem kept_add (log : WarningLog) (w : Warning) :
    (log.add w).kept = log.kept ++ if log.accepts w then [w] else [] := by
  unfold add
  split
  · rfl
  · exact (List.append_nil _).symm

theorem exists_kept_foldl_add (log : WarningLog) (ws : List Warning) :
    ∃ added, (ws.foldl add log).kept = log.kept ++ added ∧ ∀ w ∈ added, w ∈ ws := by
  induction ws generalizing log with
  | nil => exact ⟨[], (List.append_nil _).symm, nofun⟩
  | cons w ws ih =>
    obtain ⟨added, hkept, hadded⟩ := ih (log.add w)
    rw [List.foldl_cons, hkept, kept_add, List.append_assoc]
    refine ⟨_, rfl, fun v hv => ?_⟩
    rw [List.mem_append] at hv
    cases hv with
    | inl hv =>
      split at hv
      · rw [List.mem_singleton.1 hv]
        exact List.mem_cons_self
      · cases hv
    | inr hv => exact List.mem_cons_of_mem w (hadded v hv)

theorem isFull_foldl_add {log : WarningLog} (h : log.isFull = true) (ws : List Warning) :
    (ws.foldl add log).isFull = true := by
  obtain ⟨added, hkept, -⟩ := exists_kept_foldl_add log ws
  rw [isFull, decide_eq_true_eq] at h ⊢
  rw [hkept, limit_foldl_add, List.length_append]
  omega

/-- A log that takes a warning in, or has taken one about the same, keeps one about it. -/
theorem exists_mem_add {log : WarningLog} {w : Warning} {x : Warning.Subject}
    (hx : w.subject? = some x) :
    log.isFull = true ∨ ∃ v ∈ (log.add w).kept, v.subject? = some x := by
  rw [kept_add]
  by_cases hw : log.accepts w = true
  · rw [if_pos hw]
    exact .inr ⟨w, by simp, hx⟩
  · rw [if_neg hw, List.append_nil]
    rw [accepts, Bool.and_eq_true, decide_eq_true_eq, not_and_or, Nat.not_lt] at hw
    refine hw.imp (fun h => by simpa [isFull] using h) fun h => ?_
    obtain ⟨v, hv, hvw⟩ := List.any_eq_true.1 (by simpa using h)
    obtain ⟨y, hvy, hwy⟩ := Warning.resembles_iff.1 hvw
    exact ⟨v, hv, by rw [hvy, ← hwy, hx]⟩

/-- Of whatever is added something about the same is kept, unless the log is full. -/
theorem exists_mem_foldl_add {log : WarningLog} {ws : List Warning} {w : Warning} (h : w ∈ ws)
    {x : Warning.Subject} (hx : w.subject? = some x) :
    (ws.foldl add log).isFull = true ∨ ∃ v ∈ (ws.foldl add log).kept, v.subject? = some x := by
  induction ws generalizing log with
  | nil => cases h
  | cons u ws ih =>
    cases List.mem_cons.1 h with
    | inr h => exact ih h
    | inl h =>
      subst h
      cases exists_mem_add hx with
      | inl hfull => exact .inl (isFull_foldl_add hfull (w :: ws))
      | inr hkept =>
        obtain ⟨v, hv, hvx⟩ := hkept
        obtain ⟨added, hall, -⟩ := exists_kept_foldl_add (log.add w) ws
        refine .inr ⟨v, ?_, hvx⟩
        rw [List.foldl_cons, hall]
        exact List.mem_append_left added hv

theorem accepts_iff {log : WarningLog} {ws : List Warning}
    (h : log.kept = (firsts ws).take log.limit) (w : Warning) :
    log.accepts w = true
      ↔ (firsts ws).length < log.limit ∧ ws.any (·.resembles w) = false := by
  unfold accepts
  rw [Bool.and_eq_true, decide_eq_true_eq, Bool.not_eq_true', h, List.length_take]
  by_cases hlt : (firsts ws).length < log.limit
  · rw [List.take_of_length_le (Nat.le_of_lt hlt), any_firsts, Nat.min_eq_right (Nat.le_of_lt hlt)]
  · exact iff_of_false (fun h => by omega) fun h => hlt h.1

theorem kept_add_of_kept {log : WarningLog} {ws : List Warning}
    (h : log.kept = (firsts ws).take log.limit) (w : Warning) :
    (log.add w).kept = (firsts (ws ++ [w])).take log.limit := by
  rw [kept_add, firsts_concat, List.take_append, ← h]
  by_cases hlt : (firsts ws).length < log.limit
  · by_cases hw : ws.any (·.resembles w) = true
    · have ha : ¬ log.accepts w = true := by
        rw [accepts_iff h, hw]
        exact fun ha => Bool.noConfusion ha.2
      rw [if_neg ha, if_pos hw, List.take_nil]
    · have ha : log.accepts w = true := (accepts_iff h w).2 ⟨hlt, by simpa using hw⟩
      rw [if_pos ha, if_neg hw, List.take_of_length_le]
      simp only [List.length_singleton]
      omega
  · have ha : ¬ log.accepts w = true := fun ha => hlt ((accepts_iff h w).1 ha).1
    have hfull : log.limit - (firsts ws).length = 0 := by omega
    rw [if_neg ha, hfull, List.take_zero]

theorem kept_foldl_add (limit : Nat) (ws : List Warning) :
    (ws.foldl add (empty limit)).kept = (firsts ws).take limit := by
  induction ws using List.reverseRecOn with
  | nil => exact List.take_nil.symm
  | append_singleton ws w ih =>
    have hlimit : (ws.foldl add (empty limit)).limit = limit := limit_foldl_add _ _
    have hkept : (ws.foldl add (empty limit)).kept
        = (firsts ws).take (ws.foldl add (empty limit)).limit := by rw [ih, hlimit]
    rw [List.foldl_append, List.foldl_cons, List.foldl_nil, kept_add_of_kept hkept, hlimit]

theorem kept_foldl_add_prefix (limit : Nat) (ws vs : List Warning) :
    (ws.foldl add (empty limit)).kept <+: ((ws ++ vs).foldl add (empty limit)).kept := by
  rw [kept_foldl_add, kept_foldl_add, firsts_append]
  exact List.IsPrefix.take (List.prefix_append _ _) limit

theorem areDistinct_take_firsts (limit : Nat) (ws : List Warning) :
    AreDistinct ((firsts ws).take limit) :=
  (Warning.areDistinct_firsts ws).sublist (List.take_sublist _ _)

/-! ## A log in use -/

inductive Request where
  | add (w : Warning)
  /-- Takes out what is kept and leaves the log empty. -/
  | take

/-- A log, the lists that were taken out of it, and what it wrote to the journal. -/
structure Use where
  log : WarningLog
  taken : List (List Warning)
  events : List Event

def Use.request (u : Use) : Request → Use
  | .add w => ⟨(u.log.absorb [.warning w]).1, u.taken, u.events ++ (u.log.absorb [.warning w]).2⟩
  | .take => ⟨u.log.clear, u.taken ++ [u.log.kept], u.events⟩

def use (limit : Nat) (requests : List Request) : Use :=
  requests.foldl Use.request ⟨empty limit, [], []⟩

/-- The warnings that were added since the log was emptied last. -/
def pending (requests : List Request) : List Warning :=
  requests.foldl (fun ws r => match r with | .add w => ws ++ [w] | .take => []) []

section
variable (limit : Nat) (requests : List Request)

theorem use_concat (r : Request) : use limit (requests ++ [r]) = (use limit requests).request r := by
  rw [use, List.foldl_append]
  rfl

theorem log_use : (use limit requests).log = (pending requests).foldl add (empty limit) := by
  induction requests using List.reverseRecOn with
  | nil => rfl
  | append_singleton requests r ih =>
    rw [use_concat, pending, List.foldl_append]
    cases r with
    | add w =>
      show (use limit requests).log.add w = (pending requests ++ [w]).foldl add (empty limit)
      rw [ih, List.foldl_append]
      rfl
    | take =>
      show (use limit requests).log.clear = empty limit
      rw [ih, clear, limit_foldl_add]
      rfl

/-- Whatever was taken out or is kept was written to the journal once, in order. -/
theorem events_use : (use limit requests).events
    = ((use limit requests).taken.flatten ++ (use limit requests).log.kept).map .warned := by
  induction requests using List.reverseRecOn with
  | nil => rfl
  | append_singleton requests r ih =>
    rw [use_concat]
    generalize use limit requests = u at ih
    cases r with
    | add w =>
      show u.events ++ (if u.log.accepts w then [.warned w] else [])
        = (u.taken.flatten ++ (u.log.add w).kept).map .warned
      rw [ih, kept_add]
      split
      · simp
      · simp
    | take =>
      show u.events = ((u.taken ++ [u.log.kept]).flatten ++ []).map .warned
      rw [ih]
      simp

end

end WarningLog

/-! ## The log of a session -/

namespace Session

/-- What a session is given to convert. -/
inductive Input where
  | statement (sql : Text)
  | script (text : Text)

def after (s : Session) : Input → Session
  | .statement sql => (s.statement sql).session
  | .script text => (s.script text).session

/-- The warnings that an input gives, whatever becomes of it. -/
def warnings (c : Conversion) : Input → List Warning
  | .statement sql => Notice.warnings (c.statement sql).notices
  | .script text => Notice.warnings (c.script text).notices

theorem log_after (s : Session) (input : Input) :
    s.after input = { s with log := (warnings s.conversion input).foldl WarningLog.add s.log } := by
  cases input with
  | statement sql => exact congrArg (Session.mk _) (WarningLog.absorb_fst _ _)
  | script text => exact congrArg (Session.mk _) (WarningLog.absorb_fst _ _)

theorem foldl_after (s : Session) (inputs : List Input) :
    inputs.foldl after s
      = { s with log := (inputs.flatMap (warnings s.conversion)).foldl WarningLog.add s.log } := by
  induction inputs generalizing s with
  | nil => rfl
  | cons input inputs ih => rw [List.foldl_cons, ih, log_after, List.flatMap_cons, List.foldl_append]

theorem log_foldl_after (c : Conversion) (inputs : List Input) :
    (inputs.foldl after ⟨c, default⟩).log
      = (inputs.flatMap (warnings c)).foldl WarningLog.add (WarningLog.empty 100) :=
  congrArg Session.log (foldl_after ⟨c, default⟩ inputs)

end Session

/-- At every moment a log keeps the first of the warnings added since it was emptied
last: no two that resemble one another, and no more than the limit. Each is in
the journal once. What a log that is not full does not keep resembles something
that it keeps. So the log of a session, which has room for a hundred warnings,
only grows, whatever the session converts and with what result. -/
theorem WarningLog.keeps_firsts :
    (∀ (limit : Nat) (requests : List Request),
      let u := use limit requests
      u.log.kept = (firsts (pending requests)).take limit
      ∧ u.log.kept.length ≤ limit ∧ AreDistinct u.log.kept
      ∧ u.events = (u.taken.flatten ++ u.log.kept).map .warned
      ∧ (let t := u.request .take
        t.taken = u.taken ++ [u.log.kept] ∧ t.log.kept = [] ∧ t.events = u.events)
      ∧ (u.log.isFull = false → ∀ w ∈ pending requests,
        w ∈ u.log.kept ∨ ∃ v ∈ u.log.kept, v.resembles w = true))
    ∧ ∀ (c : Conversion) (inputs more : List Session.Input),
      let earlier := (inputs.foldl Session.after ⟨c, default⟩).log.kept
      let later := ((inputs ++ more).foldl Session.after ⟨c, default⟩).log.kept
      earlier <+: later ∧ AreDistinct later ∧ later.length ≤ 100 := by
  refine ⟨fun limit requests => ?_, fun c inputs more => ?_⟩
  · intro u
    have hlog : u.log = _ := log_use limit requests
    have hkept : u.log.kept = (firsts (pending requests)).take limit := by
      rw [hlog, kept_foldl_add]
    refine ⟨hkept, ?_, ?_, events_use limit requests, ⟨rfl, rfl, rfl⟩, fun hfull w hw => ?_⟩
    · rw [hkept]
      exact List.length_take_le _ _
    · rw [hkept]
      exact areDistinct_take_firsts limit _
    · have hlimit : u.log.limit = limit := by rw [hlog, limit_foldl_add]; rfl
      have hlt : u.log.kept.length < limit := by
        rw [isFull, decide_eq_false_iff_not, hlimit] at hfull
        omega
      have hall : u.log.kept = firsts (pending requests) := by
        rw [hkept, List.length_take] at hlt
        rw [hkept, List.take_of_length_le (by omega)]
      rw [hall]
      exact Warning.mem_or_resembles_of_mem hw
  · intro earlier later
    have hearlier : earlier = _ := congrArg kept (Session.log_foldl_after c inputs)
    have hlater : later = _ := congrArg kept (Session.log_foldl_after c (inputs ++ more))
    have hfirsts : later = (firsts ((inputs ++ more).flatMap (Session.warnings c))).take 100 := by
      rw [hlater, kept_foldl_add]
    refine ⟨?_, ?_, ?_⟩
    · rw [hearlier, hlater, List.flatMap_append]
      exact kept_foldl_add_prefix 100 _ _
    · rw [hfirsts]
      exact areDistinct_take_firsts 100 _
    · rw [hfirsts]
      exact List.length_take_le _ _

end SchemaDialects
