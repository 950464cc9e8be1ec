import Mathlib.Data.List.Perm.Subperm
import Vetting.Block.Scope

/-! What names stand for, as a list: what is in it after names have been set and erased, and what
becomes of it when all that it names is mapped. -/

namespace Vetting

namespace Bindings

variable {α β : Type}

def values (b : Bindings α) : List α := b.map Prod.snd

theorem erase_sublist (b : Bindings α) (x : Name) : (b.erase x).values.Sublist b.values :=
  List.filter_sublist.map Prod.snd

theorem subperm_of_get? {b : Bindings α} {x : Name} {a : α} (h : b.get? x = some a) :
    (a :: (b.erase x).values).Subperm b.values := by
  -- A name may be bound twice in such a list; erasing it takes all its bindings away.
  induction b with
  | nil => simp [get?] at h
  | cons p b ih =>
    obtain ⟨y, c⟩ := p
    by_cases hx : x = y
    · subst hx
      have ha : c = a := by simpa [get?] using h
      have he : erase ((x, c) :: b) x = erase b x := by simp [erase]
      rw [he, ha]
      exact ((erase_sublist b x).cons_cons a).subperm
    · have hb : get? b x = some a := by
        have hn : (x == y) = false := by simpa using hx
        simpa [get?, List.lookup_cons, hn] using h
      have he : erase ((y, c) :: b) x = (y, c) :: erase b x := by simp [erase, Ne.symm hx]
      rw [he]
      exact (List.Perm.swap c a _).subperm.trans ((List.subperm_cons c).mpr (ih hb))

theorem mem_values_of_get? {b : Bindings α} {x : Name} {a : α} (h : b.get? x = some a) :
    a ∈ b.values := (subperm_of_get? h).subset List.mem_cons_self

theorem mem_values_erase {b : Bindings α} {x : Name} {a : α} (h : a ∈ (b.erase x).values) :
    a ∈ b.values := (erase_sublist b x).subset h

theorem forall_values_set {p : α → Prop} {b : Bindings α} (h : ∀ c ∈ b.values, p c) (x : Name)
    {a : α} (ha : p a) : ∀ c ∈ (b.set x a).values, p c :=
  List.forall_mem_cons.mpr ⟨ha, fun c hc => h c (mem_values_erase hc)⟩

theorem mem_values_of_mapM {b : Bindings α} {xs : List Name} {as : List α}
    (h : xs.mapM b.get? = some as) : ∀ a ∈ as, a ∈ b.values := by
  induction xs generalizing as with
  | nil =>
    cases h
    exact fun a ha => absurd ha List.not_mem_nil
  | cons x xs ih =>
    simp only [List.mapM_cons, Option.bind_eq_bind, Option.bind_eq_some_iff] at h
    obtain ⟨a, ha, as', has, hp⟩ := h
    cases hp
    exact List.forall_mem_cons.mpr ⟨mem_values_of_get? ha, ih has⟩

def mapValues (f : α → β) (b : Bindings α) : Bindings β := b.map fun p => (p.1, f p.2)

theorem get?_mapValues (f : α → β) (b : Bindings α) (x : Name) :
    (b.mapValues f).get? x = (b.get? x).map f := by
  induction b with
  | nil => rfl
  | cons p b ih =>
    obtain ⟨y, a⟩ := p
    simp only [get?, mapValues, List.map_cons, List.lookup_cons] at ih ⊢
    cases x == y with
    | true => rfl
    | false => exact ih

theorem erase_mapValues (f : α → β) (b : Bindings α) (x : Name) :
    (b.mapValues f).erase x = mapValues f (b.erase x) := by
  simp only [erase, mapValues, List.filter_map]
  rfl

theorem set_mapValues (f : α → β) (b : Bindings α) (x : Name) (a : α) :
    (b.mapValues f).set x (f a) = mapValues f (b.set x a) := by
  rw [set, erase_mapValues]
  rfl

theorem mapM_mapValues (f : α → β) (b : Bindings α) (xs : List Name) :
    xs.mapM (b.mapValues f).get? = (xs.mapM b.get?).map (List.map f) := by
  induction xs with
  | nil => rfl
  | cons x xs ih =>
    rw [List.mapM_cons, List.mapM_cons, ih, get?_mapValues]
    cases b.get? x with
    | none => rfl
    | some a => cases xs.mapM b.get? <;> rfl

end Bindings

end Vetting
