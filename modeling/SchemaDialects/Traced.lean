import SchemaDialects.Event

/-!
# Traced results

A conversion gives a result or stops with an error, and on the way there it
gives notices: warnings and events. The notices given before an error stay.
-/

namespace SchemaDialects

inductive Notice where
  | warning (w : Warning)
  | event (e : Event)
  deriving DecidableEq

instance decidableEqExcept {ε α : Type} [DecidableEq ε] [DecidableEq α] :
    DecidableEq (Except ε α)
  | .ok a, .ok b => decidable_of_iff (a = b) ⟨congrArg _, Except.ok.inj⟩
  | .error a, .error b => decidable_of_iff (a = b) ⟨congrArg _, Except.error.inj⟩
  | .ok _, .error _ => isFalse nofun
  | .error _, .ok _ => isFalse nofun

structure Traced (ε α : Type) where
  notices : List Notice
  value : Except ε α

namespace Traced

variable {ε α β : Type}

protected def pure (a : α) : Traced ε α := ⟨[], .ok a⟩

protected def bind (x : Traced ε α) (f : α → Traced ε β) : Traced ε β :=
  match x.value with
  | .ok a => ⟨x.notices ++ (f a).notices, (f a).value⟩
  | .error e => ⟨x.notices, .error e⟩

instance : Monad (Traced ε) where
  pure := Traced.pure
  bind := Traced.bind

instance : LawfulMonad (Traced ε) := LawfulMonad.mk' (Traced ε)
  (by
    rintro α ⟨n, v⟩
    cases v <;> simp [Functor.map, Traced.bind, Traced.pure])
  (by intro α β a f; simp [Bind.bind, Pure.pure, Traced.bind, Traced.pure])
  (by
    rintro α β γ ⟨n, v⟩ f g
    cases v with
    | error e => rfl
    | ok a =>
      simp only [Bind.bind, Traced.bind]
      cases (f a).value <;> simp)

def fail (e : ε) : Traced ε α := ⟨[], .error e⟩

def warn (ws : List Warning) : Traced ε Unit := ⟨ws.map .warning, .ok ()⟩

def note (e : Event) : Traced ε Unit := ⟨[.event e], .ok ()⟩

@[simp] theorem notices_pure (a : α) : (pure a : Traced ε α).notices = [] := rfl

@[simp] theorem value_pure (a : α) : (pure a : Traced ε α).value = .ok a := rfl

theorem value_bind (x : Traced ε α) (f : α → Traced ε β) :
    (x >>= f).value = x.value.bind fun a => (f a).value := by
  obtain ⟨n, v⟩ := x
  cases v <;> rfl

theorem bind_of_ok {x : Traced ε α} {a : α} (h : x.value = .ok a) (f : α → Traced ε β) :
    x >>= f = ⟨x.notices ++ (f a).notices, (f a).value⟩ := by
  obtain ⟨n, v⟩ := x
  simp only at h
  subst h
  rfl

theorem bind_of_error {x : Traced ε α} {e : ε} (h : x.value = .error e)
    (f : α → Traced ε β) : x >>= f = ⟨x.notices, .error e⟩ := by
  obtain ⟨n, v⟩ := x
  simp only at h
  subst h
  rfl

end Traced

/-- The warnings among some notices. -/
def Notice.warnings (notices : List Notice) : List Warning :=
  notices.filterMap fun
    | .warning w => some w
    | .event _ => none

end SchemaDialects
