import Vetting.Run.Ledger

/-! The runs of a session and the operations on their collections. An operation may be refused as a
misuse; what it wrote before stays. -/

namespace Vetting

abbrev RunId := Nat

/-- The collections of all runs so far, the first run's first. They outlive their runs, as nodes and
constraints do. -/
structure Runs where
  ledgers : List Ledger
deriving DecidableEq

namespace Runs

def none : Runs := ⟨[]⟩

def ledger (rs : Runs) (run : RunId) : Ledger := rs.ledgers[run]?.getD .closed

def setLedger (rs : Runs) (run : RunId) (l : Ledger) : Runs := ⟨rs.ledgers.set run l⟩

def setEntries (rs : Runs) (run : RunId) (es : Entries) : Runs :=
  rs.setLedger run { rs.ledger run with entries := es }

def start (rs : Runs) : RunId × Runs := (rs.ledgers.length, ⟨rs.ledgers ++ [.empty]⟩)

def complete (rs : Runs) (run : RunId) (default : String) : List Violation × Runs :=
  ((rs.ledger run).violations default, rs.setLedger run .closed)

end Runs

namespace Runs

@[simp]
theorem ledger_setLedger_self (rs : Runs) (run : RunId) (l : Ledger)
    (h : run < rs.ledgers.length) : (rs.setLedger run l).ledger run = l := by
  simp [ledger, setLedger, h]

theorem ledger_setLedger_ne (rs : Runs) {run other : RunId} (l : Ledger) (h : other ≠ run) :
    (rs.setLedger run l).ledger other = rs.ledger other := by
  simp [ledger, setLedger, Ne.symm h]

theorem ledger_start (rs : Runs) : rs.start.2.ledger rs.start.1 = .empty := by
  simp [start, ledger]

end Runs

abbrev Registry := ExceptT Misuse (StateM Runs)

namespace Registry

def requireOpen (run : RunId) (path : Path) : Registry Unit :=
  ExceptT.mk fun rs =>
    if (rs.ledger run).completed then (.error (.runCompleted path), rs) else (.ok (), rs)

def update {α : Type} (run : RunId) (path : Path) (f : Entries → α × Entries) : Registry α :=
  ExceptT.mk fun rs =>
    if (rs.ledger run).completed then (.error (.runCompleted path), rs)
    else (.ok (f (rs.ledger run).entries).1, rs.setEntries run (f (rs.ledger run).entries).2)

def insert (run : RunId) (e : Entry) : Registry Bool := update run e.path (·.insert e)

def attach (run : RunId) (current : Entry) (owned : Bool) (messaged : Entry) : Registry Bool :=
  update run messaged.path (·.attach current owned messaged)

theorem run_bind {α β : Type} (op : Registry α) (f : α → Registry β) (rs : Runs) :
    (op >>= f).run rs =
      match op.run rs with
      | (.ok a, rs) => (f a).run rs
      | (.error m, rs) => (.error m, rs) := by
  change (ExceptT.bindCont f (op rs).1) (op rs).2 = _
  cases h : op rs with
  | mk outcome rs' => cases outcome <;> simp [ExceptT.run, h] <;> rfl

end Registry

end Vetting
