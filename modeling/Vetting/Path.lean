import Vetting.Text.Notation
import Vetting.Text.Quoted

/-! Where a value stands in its subject: the names that lead to it from the root, none of them
empty. -/

namespace Vetting

structure Path where
  segments : List String
  named : ∀ s ∈ segments, s ≠ ""

namespace Path

@[ext]
theorem ext {p q : Path} (h : p.segments = q.segments) : p = q := by
  cases p
  cases q
  simp_all

instance : DecidableEq Path := fun p q =>
  decidable_of_iff (p.segments = q.segments) ⟨Path.ext, congrArg segments⟩

def root : Path := ⟨[], by simp⟩

/-- Empty names are left out. -/
def ofList (names : List String) : Path :=
  ⟨names.filter (· ≠ ""), by simp⟩

def push (p : Path) (name : String) : Path :=
  if h : name = "" then p
  else ⟨p.segments ++ [name], by
    intro s hs
    rcases List.mem_append.mp hs with hs | hs
    · exact p.named s hs
    · exact List.mem_singleton.mp hs ▸ h⟩

def append (p q : Path) : Path :=
  ⟨p.segments ++ q.segments, fun s hs => (List.mem_append.mp hs).elim (p.named s) (q.named s)⟩

instance : Append Path := ⟨append⟩

def isRoot (p : Path) : Bool := p.segments.isEmpty

def length (p : Path) : Nat := p.segments.length

def last? (p : Path) : Option String := p.segments.getLast?

def parent? (p : Path) : Option Path :=
  if p.isRoot then none
  else some ⟨p.segments.dropLast, fun s hs => p.named s (List.dropLast_subset _ hs)⟩

def display (p : Path) (separator : String) : String := separator.intercalate p.segments

def write (p : Path) : String := p.display "."

def inspect (p : Path) : String :=
  Text.record "Path" [("segments", Text.list (p.segments.map Text.quote))]

@[simp]
theorem segments_root : root.segments = [] := rfl

@[simp]
theorem segments_ofList (names : List String) :
    (ofList names).segments = names.filter (· ≠ "") := rfl

@[simp]
theorem segments_push (p : Path) (name : String) :
    (p.push name).segments = p.segments ++ if name = "" then [] else [name] := by
  unfold push
  split <;> simp_all

@[simp]
theorem push_empty (p : Path) : p.push "" = p := dif_pos rfl

@[simp]
theorem segments_append (p q : Path) : (p ++ q).segments = p.segments ++ q.segments := rfl

end Path

end Vetting
