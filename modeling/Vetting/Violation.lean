import Vetting.Json.Basic
import Vetting.Path

/-! What is reported: a place and a message, and the reports that gather them. -/

namespace Vetting

structure Violation where
  path : Path
  message : String
deriving DecidableEq

namespace Violation

def write (v : Violation) : String :=
  (if v.path.isRoot then "(root)" else v.path.write) ++ ": " ++ v.message

def inspect (v : Violation) : String :=
  Text.record "ConstraintViolation"
    [("path", v.path.inspect), ("message", Text.quote v.message)]

def toJson (v : Violation) : Json :=
  .ofMembers
    [("path", .text v.path.write), ("segments", .array (v.path.segments.map .text)),
      ("message", .text v.message)]

end Violation

structure Report where
  toList : List Violation
  ne_nil : toList ≠ []

namespace Report

@[ext]
theorem ext {r s : Report} (h : r.toList = s.toList) : r = s := by
  cases r
  cases s
  simp_all

instance : DecidableEq Report := fun r s =>
  decidable_of_iff (r.toList = s.toList) ⟨Report.ext, congrArg toList⟩

def single (v : Violation) : Report := ⟨[v], by simp⟩

def ofList? : List Violation → Option Report
  | [] => none
  | v :: vs => some ⟨v :: vs, by simp⟩

def append (r s : Report) : Report :=
  ⟨r.toList ++ s.toList, by simp [r.ne_nil]⟩

instance : Append Report := ⟨append⟩

def length (r : Report) : Nat := r.toList.length

def first (r : Report) : Violation := r.toList.head r.ne_nil

def last (r : Report) : Violation := r.toList.getLast r.ne_nil

def messages (r : Report) : List String := r.toList.map (·.message)

def violationsAt (r : Report) (p : Path) : List Violation := r.toList.filter (·.path = p)

def addToGroup (v : Violation) : List (Path × List String) → List (Path × List String)
  | [] => [(v.path, [v.message])]
  | (p, messages) :: groups =>
    if p = v.path then (p, messages ++ [v.message]) :: groups
    else (p, messages) :: addToGroup v groups

def groups (r : Report) : List (Path × List String) :=
  r.toList.foldl (fun groups v => addToGroup v groups) []

def writeLine (number : Nat) (v : Violation) : String :=
  "  " ++ toString number ++ ". " ++ v.write ++ "\n"

def write (r : Report) : String :=
  "Validation failed with " ++ toString r.length ++ " violation(s):\n" ++
    String.join ((r.toList.zipIdx 1).map fun (v, n) => writeLine n v)

def toJson (r : Report) : Json := .array (r.toList.map Violation.toJson)

@[simp]
theorem toList_append (r s : Report) : (r ++ s).toList = r.toList ++ s.toList := rfl

theorem ofList?_toList (r : Report) : ofList? r.toList = some r := by
  obtain ⟨l, h⟩ := r
  cases l with
  | nil => exact absurd rfl h
  | cons v vs => rfl

end Report

end Vetting
