import Mathlib.Algebra.FreeMonoid.Basic
import Mathlib.Data.List.Induction
import Vetting.Path

/-! Paths are the free monoid over names. Putting one path behind another is associative and has the
root as its unit, and each path is pushed together from its names in one way; so whatever gives a
name its value in a monoid, and the empty one the unit, gives every path a value in just one way. No
operation lets an empty name in, which is why paths can be taken apart again. -/

namespace Vetting

namespace Path

theorem append_injective (p : Path) : Function.Injective (p ++ ·) := by
  intro q r h
  have hs : p.segments ++ q.segments = p.segments ++ r.segments := congrArg segments h
  exact Path.ext (List.append_cancel_left hs)

theorem append_push (p q : Path) (name : String) : p ++ q.push name = (p ++ q).push name := by
  apply Path.ext
  simp

@[simp]
theorem root_append (p : Path) : root ++ p = p := Path.ext (List.nil_append _)

@[simp]
theorem append_root (p : Path) : p ++ root = p := Path.ext (List.append_nil _)

theorem append_assoc (p q r : Path) : p ++ q ++ r = p ++ (q ++ r) :=
  Path.ext (List.append_assoc p.segments q.segments r.segments)

theorem length_append (p q : Path) : (p ++ q).length = p.length + q.length :=
  List.length_append

/-! Lists of names, some of which may be empty. -/

theorem append_ofList_nil (p : Path) : p ++ ofList [] = p := Path.ext (List.append_nil _)

theorem push_append_ofList (p : Path) (name : String) (names : List String) :
    p.push name ++ ofList names = p ++ ofList (name :: names) := by
  apply Path.ext
  by_cases h : name = "" <;> simp [h]

theorem push_getD_append_ofList (p : Path) (name : Option String) (names : List String) :
    p.push (name.getD "") ++ ofList names = p ++ ofList (name.toList ++ names) := by
  cases name with
  | some name => exact push_append_ofList p name names
  | none => rw [Option.getD_none, push_empty, Option.toList_none, List.nil_append]

theorem ofList_append (names more : List String) :
    ofList (names ++ more) = ofList names ++ ofList more :=
  Path.ext (List.filter_append names more)

@[simp]
theorem ofList_segments (p : Path) : ofList p.segments = p := by
  apply Path.ext
  rw [segments_ofList, List.filter_eq_self]
  exact fun name hn => decide_eq_true (p.named name hn)

theorem foldl_push (p : Path) (names : List String) : names.foldl push p = p ++ ofList names := by
  induction names generalizing p with
  | nil => exact p.append_ofList_nil.symm
  | cons name names ih => rw [List.foldl_cons, ih, push_append_ofList]

/-! The last name of a path, and what stands before it. -/

theorem parent?_push (p : Path) {name : String} (h : name ≠ "") :
    (p.push name).parent? = some p := by
  unfold parent?
  rw [if_neg (by simp [isRoot, h])]
  refine congrArg some (Path.ext ?_)
  simp [h]

theorem last?_push (p : Path) {name : String} (h : name ≠ "") :
    (p.push name).last? = some name := by
  simp [last?, h]

@[elab_as_elim]
theorem push_induction {motive : Path → Prop} (root : motive root)
    (push : ∀ p name, name ≠ "" → motive p → motive (p.push name)) (p : Path) : motive p := by
  obtain ⟨segments, named⟩ := p
  induction segments using List.reverseRecOn with
  | nil => exact root
  | append_singleton segments name ih =>
    have hs : ∀ s ∈ segments, s ≠ "" := fun s hs => named s (List.mem_append_left _ hs)
    have hn : name ≠ "" := named name (List.mem_append_right _ (List.mem_singleton_self name))
    have hp : (⟨segments ++ [name], named⟩ : Path) = Path.push ⟨segments, hs⟩ name :=
      Path.ext (by simp [hn])
    rw [hp]
    exact push _ name hn (ih hs)

theorem push_parent_last {p : Path} (h : p ≠ root) :
    ∃ q name, p.parent? = some q ∧ p.last? = some name ∧ q.push name = p := by
  cases p using push_induction with
  | root => exact absurd rfl h
  | push q name hn => exact ⟨q, name, q.parent?_push hn, q.last?_push hn, rfl⟩

/-! Values of paths in a monoid. -/

section

variable {M : Type} [Monoid M] (f : String → M)

def value (p : Path) : M := (p.segments.map f).prod

theorem value_append (p q : Path) : (p ++ q).value f = p.value f * q.value f := by
  rw [value, segments_append, List.map_append, List.prod_append]
  rfl

theorem value_single (hf : f "" = 1) (name : String) : (root.push name).value f = f name := by
  unfold value
  by_cases h : name = "" <;> simp [h, hf]

theorem existsUnique_value (hf : f "" = 1) :
    ∃! g : Path → M, g root = 1 ∧ (∀ p q, g (p ++ q) = g p * g q) ∧
      ∀ name, g (root.push name) = f name := by
  refine ⟨value f, ⟨rfl, value_append f, value_single f hf⟩, ?_⟩
  rintro g ⟨h1, hm, hg⟩
  funext p
  induction p using push_induction with
  | root => exact h1
  | push p name hn ih =>
    have hp : p.push name = p ++ root.push name := by rw [append_push, append_root]
    rw [hp, hm, hg, ih, value_append, value_single f hf]

end

inductive Construction where
  | root
  | ofList (names : List String)
  | push (c : Construction) (name : String)
  | append (c d : Construction)
  | parent (c : Construction)

namespace Construction

def path? : Construction → Option Path
  | root => some .root
  | ofList names => some (.ofList names)
  | push c name => c.path?.map (·.push name)
  | append c d => return (← c.path?) ++ (← d.path?)
  | parent c => c.path?.bind (·.parent?)

/-- What a construction comes to on lists, which may hold any names. -/
def names? : Construction → Option (List String)
  | root => some []
  | ofList names => some (names.filter (· ≠ ""))
  | push c name => c.names?.map fun names => if name = "" then names else names ++ [name]
  | append c d => return (← c.names?) ++ (← d.names?)
  | parent c => c.names?.bind fun names => if names = [] then none else some names.dropLast

theorem empty_not_mem {c : Construction} {names : List String} (h : c.names? = some names) :
    "" ∉ names := by
  induction c generalizing names with
  | root =>
    cases h
    exact List.not_mem_nil
  | ofList names =>
    cases h
    simp
  | push c name ih =>
    obtain ⟨before, hb, rfl⟩ := Option.map_eq_some_iff.mp h
    have hn := ih hb
    by_cases he : name = ""
    · rwa [if_pos he]
    · simp [he, hn, Ne.symm he]
  | append c d ihc ihd =>
    obtain ⟨before, hb, h⟩ := Option.bind_eq_some_iff.mp h
    obtain ⟨behind, ha, h⟩ := Option.bind_eq_some_iff.mp h
    cases h
    exact fun hm => (List.mem_append.mp hm).elim (ihc hb) (ihd ha)
  | parent c ih =>
    obtain ⟨whole, hw, h⟩ := Option.bind_eq_some_iff.mp h
    split at h
    · cases h
    · cases h
      exact fun hm => ih hw (List.dropLast_subset whole hm)

theorem segments_path? (c : Construction) : c.path?.map segments = c.names? := by
  induction c with
  | root => rfl
  | ofList names => rfl
  | push c name ih =>
    rw [path?, names?, ← ih, Option.map_map, Option.map_map]
    refine congrArg (c.path?.map ·) (funext fun p => ?_)
    by_cases h : name = "" <;> simp [h]
  | append c d ihc ihd =>
    rw [path?, names?, ← ihc, ← ihd]
    cases c.path? with
    | none => rfl
    | some p => cases d.path? <;> rfl
  | parent c ih =>
    rw [path?, names?, ← ih]
    cases c.path? with
    | none => rfl
    | some p => by_cases h : p.segments = [] <;> simp [parent?, isRoot, h]

theorem exists_construction (p : Path) : ∃ c : Construction, c.path? = some p :=
  ⟨.ofList p.segments, congrArg some p.ofList_segments⟩

end Construction

/-- Constructions come to the lists of names that are not empty, and to all of these. Paths are put
behind one another and pushed together as such lists are, with the root for the empty one; each path
but the root comes apart into its parent and its last name. Values of names in a monoid extend to
paths in one way. -/
theorem free_over_names :
    (∀ (c : Construction) (p : Path), c.path? = some p →
      c.names? = some p.segments ∧ "" ∉ p.segments) ∧
    (∀ names : List String, "" ∉ names →
      ∃ (c : Construction) (p : Path), c.path? = some p ∧ p.segments = names) ∧
    (∀ p q r : Path, p ++ q ++ r = p ++ (q ++ r)) ∧
    (∀ p : Path, root ++ p = p ∧ p ++ root = p) ∧
    (∀ p q : Path, p ++ q = q.segments.foldl push p) ∧
    (∀ names : List String, ofList names = names.foldl push root) ∧
    (∀ names more : List String, ofList (names ++ more) = ofList names ++ ofList more) ∧
    (∀ p q : Path, (p ++ q).length = p.length + q.length) ∧
    (∀ p : Path, p ≠ root →
      ∃ q name, p.parent? = some q ∧ p.last? = some name ∧ q.push name = p) ∧
    (∀ (p : Path) (name : String), name ≠ "" →
      (p.push name).parent? = some p ∧ (p.push name).last? = some name) ∧
    (∀ (M : Type) [Monoid M] (f : String → M), f "" = 1 →
      ∃! g : Path → M, g root = 1 ∧ (∀ p q, g (p ++ q) = g p * g q) ∧
        ∀ name, g (root.push name) = f name) := by
  refine ⟨fun c p hc => ?_, fun names hn => ?_, append_assoc,
    fun p => ⟨p.root_append, p.append_root⟩, fun p q => ?_, fun names => ?_, ofList_append,
    length_append, fun p hp => push_parent_last hp,
    fun p name hn => ⟨p.parent?_push hn, p.last?_push hn⟩, fun M _ f hf => existsUnique_value f hf⟩
  · have hs : c.names? = some p.segments := by rw [← c.segments_path?, hc, Option.map_some]
    exact ⟨hs, Construction.empty_not_mem hs⟩
  · obtain ⟨c, hc⟩ := Construction.exists_construction ⟨names, fun s hs he => hn (he ▸ hs)⟩
    exact ⟨c, _, hc, rfl⟩
  · rw [foldl_push, ofList_segments]
  · rw [foldl_push, root_append]

def titleInLibrary : Construction :=
  .append (.parent (.ofList ["library", "", "books"])) (.push (.push .root "title") "")

theorem titleInLibrary_taken_apart :
    let title : Path := ofList ["library", "title"]
    let letters : String → FreeMonoid Char := fun name => .ofList name.toList
    (titleInLibrary.path? = some title ∧ "" ∉ title.segments) ∧
      (∃ (c : Construction) (p : Path), c.path? = some p ∧ p.segments = ["library", "title"]) ∧
      (title ≠ root ∧
        ∃ q name, title.parent? = some q ∧ title.last? = some name ∧ q.push name = title) ∧
      ("title" ≠ "" ∧ ((ofList ["library"]).push "title").parent? = some (ofList ["library"])) ∧
      letters "" = 1 ∧ ∃! g : Path → FreeMonoid Char, g root = 1 ∧
        (∀ p q, g (p ++ q) = g p * g q) ∧ ∀ name, g (root.push name) = letters name := by
  intro title letters
  obtain ⟨hbuilt, hbuild, -, -, -, -, -, -, hapart, hpushed, hvalue⟩ := free_over_names
  have hp : titleInLibrary.path? = some title := by decide
  have hr : title ≠ root := by decide
  exact ⟨⟨hp, (hbuilt titleInLibrary title hp).2⟩, hbuild ["library", "title"] (by decide),
    ⟨hr, hapart title hr⟩, ⟨by decide, (hpushed (ofList ["library"]) "title" (by decide)).1⟩,
    rfl, hvalue _ letters rfl⟩

end Path

end Vetting
