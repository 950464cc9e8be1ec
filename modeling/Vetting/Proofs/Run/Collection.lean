import Mathlib.Data.List.Nodup
import Mathlib.Data.List.Perm.Basic
import Vetting.Run.Ledger

/-! What adding an entry and giving it a message do to a collection: which entries stay, which one
comes, and that no declaration loses its last entry. -/

namespace Vetting

theorem eraseDups_concat {α : Type} [BEq α] [LawfulBEq α] (l : List α) (a : α) :
    (l ++ [a]).eraseDups = l.eraseDups ++ if a ∈ l then [] else [a] := by
  by_cases h : a ∈ l <;> simp [List.eraseDups_append, List.removeAll, h, List.eraseDups_cons]

/-- A path and a declaring place. Ready-made violations of one path count as one declaration. -/
abbrev Declaration := Path × Option Origin

namespace Entry

def declaration (e : Entry) : Declaration := (e.path, e.origin)

theorem speaksFor_iff {e pending : Entry} :
    e.speaksFor pending = true ↔ e.message ≠ none ∧ e.declaration = pending.declaration := by
  simp [speaksFor, declaration, Option.isSome_iff_ne_none, and_assoc]

end Entry

namespace Entries

def declarations (es : Entries) : List Declaration := es.map Entry.declaration

@[simp]
theorem declarations_nil : declarations [] = [] := rfl

@[simp]
theorem declarations_cons (e : Entry) (es : Entries) :
    declarations (e :: es) = e.declaration :: declarations es := rfl

@[simp]
theorem declarations_append (es fs : Entries) :
    declarations (es ++ fs) = declarations es ++ declarations fs := List.map_append

theorem mem_declarations {es : Entries} {d : Declaration} :
    d ∈ es.declarations ↔ ∃ e ∈ es, e.declaration = d := List.mem_map

theorem mem_declarations_of_mem {es : Entries} {e : Entry} (h : e ∈ es) :
    e.declaration ∈ es.declarations := List.mem_map_of_mem h

/-- Whether adding `e` would add nothing: it is there, or its declaration has been given a message
and it has none. -/
def Covers (es : Entries) (e : Entry) : Prop :=
  e ∈ es ∨ e.message = none ∧ ∃ k ∈ es, k.message ≠ none ∧ k.declaration = e.declaration

theorem Covers.mono {es fs : Entries} {e : Entry} (h : es.Covers e) (hs : es ⊆ fs) :
    fs.Covers e := by
  rcases h with h | ⟨hn, k, hk, hm⟩
  · exact .inl (hs h)
  · exact .inr ⟨hn, k, hs hk, hm⟩

theorem Covers.mem_declarations {es : Entries} {e : Entry} (h : es.Covers e) :
    e.declaration ∈ es.declarations := by
  rcases h with h | ⟨_, k, hk, _, hd⟩
  · exact mem_declarations_of_mem h
  · exact hd ▸ mem_declarations_of_mem hk

theorem Covers.mem {es : Entries} {e : Entry} (h : es.Covers e) (hm : e.message ≠ none) :
    e ∈ es := h.resolve_right fun hn => hm hn.1

theorem insertNew_of_mem {es : Entries} {e : Entry} (h : e ∈ es) : es.insertNew e = (false, es) :=
  if_pos h

theorem insertNew_of_not_mem {es : Entries} {e : Entry} (h : e ∉ es) :
    es.insertNew e = (true, es ++ [e]) := if_neg h

theorem insert_of_message {es : Entries} {e : Entry} (h : e.message ≠ none) :
    es.insert e = es.insertNew e := by
  have hn : e.message.isNone = false := by simpa [Option.isSome_iff_ne_none] using h
  simp [insert, hn]

theorem insert_of_covers {es : Entries} {e : Entry} (ho : e.origin ≠ none ∨ e.message ≠ none)
    (h : es.Covers e) : es.insert e = (false, es) := by
  rcases h with h | ⟨hn, k, hk, hs⟩
  · unfold insert
    split
    · rfl
    · exact insertNew_of_mem h
  · have ho := ho.resolve_right (not_not_intro hn)
    refine if_pos ?_
    simp only [hn, Option.isNone_none, Option.isSome_iff_ne_none.mpr ho, Bool.true_and,
      List.any_eq_true]
    exact ⟨k, hk, Entry.speaksFor_iff.mpr hs⟩

theorem insert_of_not_covers {es : Entries} {e : Entry} (h : ¬es.Covers e) :
    es.insert e = (true, es ++ [e]) := by
  unfold insert
  split
  · rename_i hi
    simp only [Bool.and_eq_true, Option.isNone_iff_eq_none, List.any_eq_true] at hi
    obtain ⟨⟨hn, _⟩, k, hk, hs⟩ := hi
    exact absurd (.inr ⟨hn, k, hk, Entry.speaksFor_iff.mp hs⟩) h
  · exact insertNew_of_not_mem fun hm => h (.inl hm)

theorem not_mem_of_not_covers {es : Entries} {e : Entry} (h : ¬es.Covers e) : e ∉ es :=
  fun hm => h (.inl hm)

theorem insert_added {es : Entries} {e : Entry} (h : (es.insert e).1 = true) :
    e ∉ es ∧ (es.insert e).2 = es ++ [e] := by
  unfold insert at h ⊢
  split at h
  · exact absurd h (by simp)
  · rename_i hs
    rw [if_neg hs]
    by_cases hm : e ∈ es
    · simp [insertNew_of_mem hm] at h
    · exact ⟨hm, by rw [insertNew_of_not_mem hm]⟩

theorem subset_insert (es : Entries) (e : Entry) : es ⊆ (es.insert e).2 := by
  unfold insert insertNew
  split
  · exact List.Subset.refl es
  · split
    · exact List.Subset.refl es
    · exact List.subset_append_left es [e]

theorem mem_insert {es : Entries} {e x : Entry} (h : x ∈ (es.insert e).2) : x ∈ es ∨ x = e := by
  unfold insert at h
  split at h
  · exact .inl h
  · exact mem_insertNew.mp h

theorem covers_insert (es : Entries) (e : Entry) (ho : e.origin ≠ none ∨ e.message ≠ none) :
    (es.insert e).2.Covers e := by
  by_cases h : es.Covers e
  · rwa [insert_of_covers ho h]
  · rw [insert_of_not_covers h]
    exact .inl (by simp)

theorem attach_of_owned {es : Entries} {current : Entry} (hn : es.Nodup) (hc : current ∈ es)
    (messaged : Entry) :
    ∃ before after, es = before ++ current :: after ∧ current ∉ before ++ after ∧
      es.attach current true messaged =
        if messaged ∈ before ++ after then (false, before ++ after)
        else (true, before ++ messaged :: after) := by
  obtain ⟨before, after, hb, rfl, he, hr⟩ := exists_replace hc
  refine ⟨before, after, rfl, ?_, ?_⟩
  · have hm := (List.nodup_middle.mp hn)
    exact (List.nodup_cons.mp hm).1
  · simp [attach, he, hr]

theorem attach_of_not_owned {es : Entries} {current : Entry} {owned : Bool}
    (h : owned = false ∨ current ∉ es) (messaged : Entry) :
    es.attach current owned messaged = es.insertNew messaged := by
  refine if_neg ?_
  rcases h with rfl | h <;> simp_all

theorem attach_insert (es : Entries) {e : Entry} (messaged : Entry)
    (ho : e.origin ≠ none ∨ e.message ≠ none) :
    attach (es.insert e).2 e (es.insert e).1 messaged = es.insertNew messaged := by
  by_cases h : es.Covers e
  · -- The entry belongs to somebody else, and is left alone.
    rw [insert_of_covers ho h]
    exact attach_of_not_owned (.inl rfl) messaged
  · have he : e ∉ es := not_mem_of_not_covers h
    have hx : (es ++ [e]).erase e = es := by simp [List.erase_append_right _ he]
    have hr : (es ++ [e]).replace e messaged = es ++ [messaged] := by
      simp [List.replace_append_right he]
    rw [insert_of_not_covers h]
    simp [attach, hx, hr, insertNew]

theorem mem_attach_self (es : Entries) (current : Entry) (owned : Bool) (messaged : Entry) :
    messaged ∈ (es.attach current owned messaged).2 := by
  unfold attach
  split
  · rename_i hc
    split
    · assumption
    · obtain ⟨before, after, _, _, _, hr⟩ :=
        exists_replace (by simpa using (Bool.and_eq_true_iff.mp hc).2 : current ∈ es)
      simp [hr]
  · exact mem_insertNew.mpr (.inr rfl)

theorem mem_attach_of_mem {es : Entries} {current x : Entry} {owned : Bool} (messaged : Entry)
    (hx : x ∈ es) (hne : owned = true → x ≠ current) :
    x ∈ (es.attach current owned messaged).2 := by
  unfold attach
  split
  · rename_i hc
    have hne := hne (Bool.and_eq_true_iff.mp hc).1
    split
    · exact (List.mem_erase_of_ne hne).mpr hx
    · obtain ⟨before, after, _, rfl, _, hr⟩ :=
        exists_replace (by simpa using (Bool.and_eq_true_iff.mp hc).2 : current ∈ es)
      rw [hr]
      simp only [List.mem_append, List.mem_cons] at hx ⊢
      rcases hx with hx | hx | hx
      · exact .inl hx
      · exact absurd hx hne
      · exact .inr (.inr hx)
  · exact mem_insertNew.mpr (.inl hx)

theorem ne_of_attach_added {es : Entries} {current messaged x : Entry} {owned : Bool}
    (ha : (es.attach current owned messaged).1 = true) (hx : x ∈ es)
    (hne : owned = true → x ≠ current) : x ≠ messaged := by
  rintro rfl
  unfold attach at ha
  split at ha
  · rename_i hc
    have hm := (List.mem_erase_of_ne (hne (Bool.and_eq_true_iff.mp hc).1)).mpr hx
    simp [hm] at ha
  · simp [insertNew_of_mem hx] at ha

theorem mem_of_mem_attach {es : Entries} {current messaged x : Entry} {owned : Bool}
    (h : x ∈ (es.attach current owned messaged).2) : x ∈ es ∨ x = messaged := by
  unfold attach at h
  split at h
  · rename_i hc
    split at h
    · exact .inl (List.mem_of_mem_erase h)
    · obtain ⟨before, after, _, rfl, _, hr⟩ :=
        exists_replace (by simpa using (Bool.and_eq_true_iff.mp hc).2 : current ∈ es)
      rw [hr] at h
      simp only [List.mem_append, List.mem_cons] at h ⊢
      rcases h with h | h | h
      · exact .inl (.inl h)
      · exact .inr h
      · exact .inl (.inr (.inr h))
  · exact mem_insertNew.mp h

theorem not_mem_attach_current {es : Entries} {current messaged : Entry} (hn : es.Nodup)
    (hc : current ∈ es) (hne : current ≠ messaged) :
    current ∉ (es.attach current true messaged).2 := by
  obtain ⟨before, after, _, hm, ha⟩ := attach_of_owned hn hc messaged
  rw [ha]
  split
  · exact hm
  · simp only [List.mem_append, List.mem_cons, not_or] at hm ⊢
    exact ⟨hm.1, hne, hm.2⟩

theorem mem_attach_iff {es : Entries} {current messaged : Entry} {owned : Bool} (hn : es.Nodup)
    (hc : owned = true → current ∈ es) (hne : messaged ≠ current) (x : Entry) :
    x ∈ (es.attach current owned messaged).2 ↔
      x = messaged ∨ x ∈ es ∧ ¬(owned = true ∧ x = current) := by
  constructor
  · intro hx
    by_cases hm : x = messaged
    · exact .inl hm
    · refine .inr ⟨(mem_of_mem_attach hx).resolve_right hm, ?_⟩
      rintro ⟨rfl, rfl⟩
      exact not_mem_attach_current hn (hc rfl) hne.symm hx
  · rintro (rfl | ⟨hx, hne⟩)
    · exact mem_attach_self es current owned x
    · exact mem_attach_of_mem messaged hx fun ho hxc => hne ⟨ho, hxc⟩

theorem attach_added_iff {es : Entries} {current messaged : Entry} {owned : Bool} (hn : es.Nodup)
    (hc : owned = true → current ∈ es) (hne : messaged ≠ current) :
    (es.attach current owned messaged).1 = true ↔ messaged ∉ es := by
  cases owned with
  | true =>
    obtain ⟨before, after, rfl, -, ha⟩ := attach_of_owned hn (hc rfl) messaged
    have hm : messaged ∈ before ++ current :: after ↔ messaged ∈ before ++ after := by
      simp [hne]
    rw [ha, hm]
    split <;> simp_all
  | false =>
    rw [attach_of_not_owned (.inl rfl), insertNew]
    split <;> simp_all

theorem mem_declarations_attach {es : Entries} {current messaged : Entry} {d : Declaration}
    (owned : Bool) (hd : messaged.declaration = current.declaration) (h : d ∈ es.declarations) :
    d ∈ declarations (es.attach current owned messaged).2 := by
  obtain ⟨x, hx, rfl⟩ := mem_declarations.mp h
  by_cases hxc : x = current
  · subst hxc
    exact hd ▸ mem_declarations_of_mem (mem_attach_self es x owned messaged)
  · exact mem_declarations_of_mem (mem_attach_of_mem messaged hx fun _ => hxc)

end Entries

end Vetting
