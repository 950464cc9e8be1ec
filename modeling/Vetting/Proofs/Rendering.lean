import Vetting.Proofs.Paths
import Vetting.Violation

/-! Reading back what is rendered. A report comes back from its document as it was, and a path from
its segments there. The text of a path tells it from all others as long as the separator occurs in
none of their names: the names are then what stands between the separators, and the empty text is
that of the root alone, as no name is empty. -/

namespace Vetting

namespace Path

def namesIn (separator : Char) (text : String) : List String :=
  if text = "" then [] else (text.split separator).toList.map (·.copy)

theorem display_root (separator : String) : root.display separator = "" := String.intercalate_nil

theorem display_eq_empty_iff {p : Path} {separator : String} :
    p.display separator = "" ↔ p = root := by
  refine ⟨fun h => Path.ext ?_, fun h => h ▸ display_root separator⟩
  obtain ⟨segments, named⟩ := p
  cases segments with
  | nil => rfl
  | cons name names =>
    -- The text begins with its first name.
    have hn : name ≠ "" := named name List.mem_cons_self
    have hd : separator.intercalate (name :: names) = "" := h
    by_cases hs : names = []
    · simp [hs, hn] at hd
    · simp [String.intercalate_cons_of_ne_nil hs, hn] at hd

theorem namesIn_display {p : Path} {separator : Char}
    (h : ∀ name ∈ p.segments, separator ∉ name.toList) :
    namesIn separator (p.display (.singleton separator)) = p.segments := by
  unfold namesIn
  by_cases hp : p = root
  · rw [if_pos (display_eq_empty_iff.mpr hp), hp, segments_root]
  · have hs : p.segments ≠ [] := fun hs => hp (Path.ext hs)
    rw [if_neg (mt display_eq_empty_iff.mp hp), display, String.toList_split_intercalate h,
      if_neg hs]

theorem display_inj {p q : Path} {separator : Char}
    (hp : ∀ name ∈ p.segments, separator ∉ name.toList)
    (hq : ∀ name ∈ q.segments, separator ∉ name.toList) :
    p.display (.singleton separator) = q.display (.singleton separator) ↔ p = q := by
  refine ⟨fun h => Path.ext ?_, fun h => h ▸ rfl⟩
  rw [← namesIn_display hp, h, namesIn_display hq]

end Path

theorem mapM_map_eq_some {α β : Type} {write : α → β} {read? : β → Option α}
    (h : ∀ a, read? (write a) = some a) (l : List α) : (l.map write).mapM read? = some l := by
  induction l with
  | nil => rfl
  | cons a l ih =>
    rw [List.map_cons, List.mapM_cons, h, ih]
    rfl

namespace Json

def texts? : Json → Option (List String)
  | array items => items.mapM text?
  | _ => none

theorem texts?_map_text (texts : List String) : (array (texts.map text)).texts? = some texts := by
  have h : ∀ t, text? (text t) = some t := fun _ => rfl
  exact mapM_map_eq_some h texts

end Json

namespace Violation

def ofJson? (j : Json) : Option Violation := do
  let names ← (← j.member? "segments").texts?
  let message ← (← j.member? "message").text?
  return ⟨.ofList names, message⟩

theorem segments_toJson (v : Violation) :
    v.toJson.member? "segments" = some (.array (v.path.segments.map .text)) := rfl

theorem message_toJson (v : Violation) :
    v.toJson.member? "message" = some (.text v.message) := rfl

theorem ofJson?_toJson (v : Violation) : ofJson? v.toJson = some v := by
  unfold ofJson?
  rw [segments_toJson, message_toJson]
  simp only [Option.bind_eq_bind, Option.bind_some, Json.texts?_map_text, Json.text?,
    Path.ofList_segments, Option.pure_def]

end Violation

namespace Report

def ofJson? : Json → Option Report
  | .array items => (items.mapM Violation.ofJson?).bind ofList?
  | _ => none

theorem ofJson?_toJson (r : Report) : ofJson? r.toJson = some r := by
  change ((r.toList.map Violation.toJson).mapM Violation.ofJson?).bind ofList? = some r
  rw [mapM_map_eq_some Violation.ofJson?_toJson, Option.bind_some, ofList?_toList]

end Report

/-- The segments in the document of a violation make up its path, and the whole report can be read
back from its document. The texts of two paths at a separator that is in none of their names are the
same just when the paths are, and split at it they give the names. -/
theorem Path.rendering_faithful :
    (∀ v : Violation,
      ((v.toJson.member? "segments").bind Json.texts?).map Path.ofList = some v.path) ∧
    (∀ r : Report, Report.ofJson? r.toJson = some r) ∧
    (∀ (separator : Char) (p q : Path), (∀ name ∈ p.segments, separator ∉ name.toList) →
      (∀ name ∈ q.segments, separator ∉ name.toList) →
      (p.display (.singleton separator) = q.display (.singleton separator) ↔ p = q)) ∧
    (∀ (separator : Char) (p : Path), (∀ name ∈ p.segments, separator ∉ name.toList) →
      namesIn separator (p.display (.singleton separator)) = p.segments) ∧
    (∀ (separator : String) (p : Path), p.display separator = "" ↔ p = root) := by
  refine ⟨fun v => ?_, Report.ofJson?_toJson, fun separator p q hp hq => display_inj hp hq,
    fun separator p hp => namesIn_display hp, fun separator p => display_eq_empty_iff⟩
  rw [v.segments_toJson, Option.bind_some, Json.texts?_map_text, Option.map_some,
    ofList_segments]

theorem Path.dotted_told_apart :
    let p : Path := ofList ["v1.0", "name"]
    let q : Path := ofList ["v1", "0", "name"]
    ((∀ name ∈ p.segments, '/' ∉ name.toList) ∧ ∀ name ∈ q.segments, '/' ∉ name.toList) ∧
      p.display "." = q.display "." ∧
      (p.display (.singleton '/') = q.display (.singleton '/') ↔ p = q) ∧
      namesIn '/' (p.display (.singleton '/')) = ["v1.0", "name"] := by
  intro p q
  have hp : ∀ name ∈ p.segments, '/' ∉ name.toList := by decide
  have hq : ∀ name ∈ q.segments, '/' ∉ name.toList := by decide
  obtain ⟨-, -, hinj, hnames, -⟩ := rendering_faithful
  exact ⟨⟨hp, hq⟩, by decide, hinj '/' p q hp hq, hnames '/' p hp⟩

end Vetting
