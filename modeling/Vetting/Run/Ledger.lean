import Vetting.Configuration
import Vetting.Misuse
import Vetting.Origin
import Vetting.Violation

/-! The ordered collection of what a run has found. An entry is one violation; it is pending until
it has a message. Equal entries are kept once, at the place of the first. -/

namespace Vetting

/-- A registered violation. It is the same as another of its path, message and declaring place; one
that was registered ready-made has no declaring place. -/
structure Entry where
  path : Path
  message : Option String
  origin : Option Origin
deriving DecidableEq

namespace Entry

def ofViolation (v : Violation) : Entry := ⟨v.path, some v.message, none⟩

def toViolation (default : String) (e : Entry) : Violation := ⟨e.path, e.message.getD default⟩

def speaksFor (e pending : Entry) : Bool :=
  e.message.isSome && e.path = pending.path && e.origin = pending.origin

end Entry

abbrev Entries := List Entry

namespace Entries

def insertNew (es : Entries) (e : Entry) : Bool × Entries :=
  if e ∈ es then (false, es) else (true, es ++ [e])

/-- A pending entry is not added once its declaration has been given a message. -/
def insert (es : Entries) (e : Entry) : Bool × Entries :=
  if e.message.isNone && e.origin.isSome && es.any (·.speaksFor e) then (false, es)
  else es.insertNew e

/-- Gives `messaged` the place of `current` when the constraint that asks for it owns that entry,
and merges the two into one when `messaged` stands elsewhere already. An entry that belongs to an
earlier constraint is left alone, and `messaged` comes to the end. The answer tells whether
`messaged` was added. -/
def attach (es : Entries) (current : Entry) (owned : Bool) (messaged : Entry) : Bool × Entries :=
  if owned && current ∈ es then
    if messaged ∈ es.erase current then (false, es.erase current)
    else (true, es.replace current messaged)
  else es.insertNew messaged

theorem mem_insertNew {es : Entries} {e x : Entry} :
    x ∈ (es.insertNew e).2 ↔ x ∈ es ∨ x = e := by
  unfold insertNew
  split <;> simp_all

theorem nodup_insertNew {es : Entries} (h : es.Nodup) (e : Entry) : (es.insertNew e).2.Nodup := by
  unfold insertNew
  split
  · exact h
  · rename_i he
    simp only [List.nodup_append, h, List.nodup_cons, List.not_mem_nil, not_false_eq_true,
      List.nodup_nil, List.mem_cons, or_false, true_and]
    rintro a ha b rfl rfl
    exact he ha

theorem nodup_insert {es : Entries} (h : es.Nodup) (e : Entry) : (es.insert e).2.Nodup := by
  unfold insert
  split
  · exact h
  · exact nodup_insertNew h e

theorem exists_replace {es : Entries} {current : Entry} (h : current ∈ es) :
    ∃ before after, current ∉ before ∧ es = before ++ current :: after ∧
      es.erase current = before ++ after ∧
      ∀ messaged, es.replace current messaged = before ++ messaged :: after := by
  induction es with
  | nil => simp at h
  | cons e es ih =>
    by_cases he : e = current
    · subst he
      exact ⟨[], es, by simp⟩
    · obtain ⟨before, after, hb, h1, h2, h3⟩ := ih ((List.mem_cons.mp h).resolve_left (Ne.symm he))
      refine ⟨e :: before, after, by simp [hb, Ne.symm he], by simp [h1], ?_, ?_⟩
      · rw [List.erase_cons_tail (by simpa using he), h2, List.cons_append]
      · intro messaged
        have hne : (current == e) = false := by simpa using Ne.symm he
        simp [List.replace_cons, hne, h3]

theorem nodup_attach {es : Entries} (h : es.Nodup) (current : Entry) (owned : Bool)
    (messaged : Entry) : (es.attach current owned messaged).2.Nodup := by
  unfold attach
  split
  · rename_i hc
    obtain ⟨before, after, _, h1, h2, h3⟩ :=
      exists_replace (by simpa using (Bool.and_eq_true_iff.mp hc).2)
    have hn : (before ++ after).Nodup := h2 ▸ h.erase current
    split
    · exact h2 ▸ hn
    · rename_i hm
      rw [h2] at hm
      rw [h3]
      exact (List.perm_middle.nodup_iff).mpr (List.nodup_cons.mpr ⟨hm, hn⟩)
  · exact nodup_insertNew h messaged

end Entries

structure Ledger where
  entries : Entries
  completed : Bool
deriving DecidableEq

namespace Ledger

def empty : Ledger := ⟨[], false⟩

def closed : Ledger := ⟨[], true⟩

def violations (l : Ledger) (default : String) : List Violation :=
  l.entries.map (·.toViolation default)

end Ledger

end Vetting
