import SchemaDialects.Traced

/-!
# The warning log

Keeps the warnings of a run in the order in which they came. A warning that
resembles one in the log is dropped, and so is every warning once the log is
full. A warning that is kept becomes an event of the journal.
-/

namespace SchemaDialects

structure WarningLog where
  limit : Nat
  kept : List Warning
  deriving DecidableEq

namespace WarningLog

def empty (limit : Nat) : WarningLog := ⟨limit, []⟩

instance : Inhabited WarningLog := ⟨empty 100⟩

/-- Whether the log keeps `w` when it is added. -/
def accepts (log : WarningLog) (w : Warning) : Bool :=
  log.kept.length < log.limit && !log.kept.any (·.resembles w)

def add (log : WarningLog) (w : Warning) : WarningLog :=
  if log.accepts w then { log with kept := log.kept ++ [w] } else log

def clear (log : WarningLog) : WarningLog := { log with kept := [] }

def isFull (log : WarningLog) : Bool := log.limit ≤ log.kept.length

/-- The log after some notices, and the events for the journal. -/
def absorb (log : WarningLog) : List Notice → WarningLog × List Event
  | [] => (log, [])
  | .event e :: ns =>
    let r := log.absorb ns
    (r.1, e :: r.2)
  | .warning w :: ns =>
    let r := (log.add w).absorb ns
    (r.1, if log.accepts w then .warned w :: r.2 else r.2)

theorem kept_add_of_accepts {log : WarningLog} {w : Warning} (h : log.accepts w = true) :
    (log.add w).kept = log.kept ++ [w] := by
  simp [add, h]

theorem add_of_not_accepts {log : WarningLog} {w : Warning} (h : log.accepts w = false) :
    log.add w = log := by
  simp [add, h]

@[simp] theorem limit_add (log : WarningLog) (w : Warning) : (log.add w).limit = log.limit := by
  unfold add; split <;> rfl

theorem absorb_fst (log : WarningLog) (ns : List Notice) :
    (log.absorb ns).1 = (Notice.warnings ns).foldl add log := by
  induction ns generalizing log with
  | nil => rfl
  | cons n ns ih => cases n <;> simp [absorb, ih, Notice.warnings]

theorem absorb_append (log : WarningLog) (ms ns : List Notice) :
    log.absorb (ms ++ ns)
      = (((log.absorb ms).1.absorb ns).1, (log.absorb ms).2 ++ ((log.absorb ms).1.absorb ns).2) := by
  induction ms generalizing log with
  | nil => rfl
  | cons m ms ih => cases m <;> simp [absorb, ih]; split <;> rfl

end WarningLog

end SchemaDialects
