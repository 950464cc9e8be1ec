import Mathlib.Data.List.Induction
import Vetting.Proofs.Run.Collection
import Vetting.Violation

/-! Reports by path. Every violation of a report is in the group of its path, in the order of the
report; the groups stand in the order in which their paths first come up, and what one report adds
to another comes behind it. -/

namespace Vetting.Report

def groupsOf (vs : List Violation) : List (Path × List String) :=
  vs.foldl (fun groups v => addToGroup v groups) []

def keys (groups : List (Path × List String)) : List Path := groups.map Prod.fst

theorem groupsOf_concat (vs : List Violation) (v : Violation) :
    groupsOf (vs ++ [v]) = addToGroup v (groupsOf vs) := by
  rw [groupsOf, List.foldl_append]
  rfl

/-! One violation more. -/

theorem keys_addToGroup (v : Violation) (groups : List (Path × List String)) :
    keys (addToGroup v groups) = keys groups ++ if v.path ∈ keys groups then [] else [v.path] := by
  induction groups with
  | nil => rfl
  | cons group groups ih =>
    obtain ⟨p, messages⟩ := group
    unfold addToGroup
    by_cases hp : p = v.path
    · simp [keys, hp]
    · have hm : v.path ∈ keys ((p, messages) :: groups) ↔ v.path ∈ keys groups := by
        simp [keys, Ne.symm hp]
      rw [if_neg hp]
      simp only [hm]
      exact congrArg (p :: ·) ih

theorem lookup_addToGroup (v : Violation) (groups : List (Path × List String)) (p : Path) :
    (addToGroup v groups).lookup p =
      if v.path = p then some ((groups.lookup p).getD [] ++ [v.message]) else groups.lookup p := by
  induction groups with
  | nil =>
    by_cases hp : v.path = p
    · simp [addToGroup, hp]
    · have hb : (p == v.path) = false := beq_false_of_ne (Ne.symm hp)
      simp [addToGroup, List.lookup_cons, hb, hp]
  | cons group groups ih =>
    obtain ⟨q, messages⟩ := group
    unfold addToGroup
    by_cases hq : q = v.path
    · rw [if_pos hq]
      by_cases hp : v.path = p
      · simp [hq, hp]
      · have hb : (p == q) = false := beq_false_of_ne fun h => hp (hq ▸ h.symm)
        simp [List.lookup_cons, hb, hp]
    · rw [if_neg hq, List.lookup_cons, List.lookup_cons, ih]
      by_cases hp : p = q
      · have hv : v.path ≠ p := fun h => hq (hp ▸ h.symm)
        simp [hp, hp ▸ hv]
      · simp [beq_false_of_ne hp]

def size : List (Path × List String) → Nat
  | [] => 0
  | group :: groups => group.2.length + size groups

theorem size_addToGroup (v : Violation) (groups : List (Path × List String)) :
    size (addToGroup v groups) = size groups + 1 := by
  induction groups with
  | nil => rfl
  | cons group groups ih =>
    obtain ⟨p, messages⟩ := group
    unfold addToGroup
    by_cases hp : p = v.path
    · rw [if_pos hp]
      simp only [size, List.length_append, List.length_singleton]
      omega
    · rw [if_neg hp, size, size, ih, Nat.add_assoc]

/-! All violations of a list, by induction on what has been added last. -/

theorem keys_groupsOf (vs : List Violation) :
    keys (groupsOf vs) = (vs.map (·.path)).eraseDups := by
  induction vs using List.reverseRecOn with
  | nil => rfl
  | append_singleton vs v ih =>
    rw [groupsOf_concat, keys_addToGroup, ih, List.map_append, List.map_singleton,
      eraseDups_concat]
    simp only [List.mem_eraseDups]

theorem nodup_keys_groupsOf (vs : List Violation) : (keys (groupsOf vs)).Nodup := by
  induction vs using List.reverseRecOn with
  | nil => exact List.nodup_nil
  | append_singleton vs v ih =>
    rw [groupsOf_concat, keys_addToGroup]
    by_cases hv : v.path ∈ keys (groupsOf vs)
    · rwa [if_pos hv, List.append_nil]
    · rw [if_neg hv]
      exact List.nodup_append_comm.mp (List.nodup_cons.mpr ⟨hv, ih⟩)

theorem lookup_groupsOf (vs : List Violation) (p : Path) :
    (groupsOf vs).lookup p =
      if vs.filter (·.path = p) = [] then none
      else some ((vs.filter (·.path = p)).map (·.message)) := by
  induction vs using List.reverseRecOn with
  | nil => rfl
  | append_singleton vs v ih =>
    rw [groupsOf_concat, lookup_addToGroup, ih, List.filter_append]
    by_cases hv : v.path = p
    · by_cases he : vs.filter (·.path = p) = [] <;> simp [hv, he]
    · simp [hv]

theorem size_groupsOf (vs : List Violation) : size (groupsOf vs) = vs.length := by
  induction vs using List.reverseRecOn with
  | nil => rfl
  | append_singleton vs v ih =>
    rw [groupsOf_concat, size_addToGroup, ih, List.length_append, List.length_singleton]

/-! One list behind another. -/

theorem keys_groupsOf_append (us vs : List Violation) :
    keys (groupsOf (us ++ vs)) =
      keys (groupsOf us) ++ (keys (groupsOf vs)).filter (· ∉ keys (groupsOf us)) := by
  induction vs using List.reverseRecOn with
  | nil => simp [groupsOf, keys]
  | append_singleton vs v ih =>
    rw [← List.append_assoc, groupsOf_concat, groupsOf_concat, keys_addToGroup, keys_addToGroup, ih,
      List.filter_append, List.append_assoc]
    congr 2
    -- The first list alone decides whether the path passes the filter, both whether it is new.
    by_cases hu : v.path ∈ keys (groupsOf us)
    · by_cases hv : v.path ∈ keys (groupsOf vs) <;> simp [hu, hv]
    · by_cases hv : v.path ∈ keys (groupsOf vs) <;> simp [hu, hv]

theorem lookup_groupsOf_append (us vs : List Violation) (p : Path) :
    (groupsOf (us ++ vs)).lookup p =
      ((groupsOf us).lookup p).merge (· ++ ·) ((groupsOf vs).lookup p) := by
  rw [lookup_groupsOf, lookup_groupsOf, lookup_groupsOf, List.filter_append]
  by_cases hu : us.filter (·.path = p) = [] <;> by_cases hv : vs.filter (·.path = p) = [] <;>
    simp [hu, hv]

theorem append_assoc (r s t : Report) : r ++ s ++ t = r ++ (s ++ t) :=
  Report.ext (List.append_assoc r.toList s.toList t.toList)

theorem first_append (r s : Report) : (r ++ s).first = r.first :=
  List.head_append_of_ne_nil r.ne_nil

theorem violationsAt_append (r s : Report) (p : Path) :
    (r ++ s).violationsAt p = r.violationsAt p ++ s.violationsAt p :=
  List.filter_append r.toList s.toList

/-- The groups of a report have its paths, each once and in the order in which they first come up,
and the messages of all violations at a path are those of its group, which is missing where there
are none. Reports are put together as lists are; the groups of the whole are those of the first
report, each with what the second adds to it, and behind them those that only the second has. -/
theorem grouping_faithful (r s t : Report) (p : Path) :
    (keys r.groups = (r.toList.map (·.path)).eraseDups ∧ (keys r.groups).Nodup ∧
      r.groups.lookup p =
        (if r.violationsAt p = [] then none else some ((r.violationsAt p).map (·.message))) ∧
      size r.groups = r.length) ∧
    (r ++ s ++ t = r ++ (s ++ t) ∧ (r ++ s).first = r.first ∧
      (r ++ s).toList = r.toList ++ s.toList ∧
      (r ++ s).violationsAt p = r.violationsAt p ++ s.violationsAt p ∧
      keys (r ++ s).groups = keys r.groups ++ (keys s.groups).filter (· ∉ keys r.groups) ∧
      (r ++ s).groups.lookup p = (r.groups.lookup p).merge (· ++ ·) (s.groups.lookup p)) := by
  refine ⟨⟨keys_groupsOf r.toList, nodup_keys_groupsOf r.toList, ?_, size_groupsOf r.toList⟩,
    append_assoc r s t, first_append r s, toList_append r s, violationsAt_append r s p,
    keys_groupsOf_append r.toList s.toList, ?_⟩
  · exact lookup_groupsOf r.toList p
  · exact lookup_groupsOf_append r.toList s.toList p

end Vetting.Report
