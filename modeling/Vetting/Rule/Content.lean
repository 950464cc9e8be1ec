import Vetting.Origin
import Vetting.Pattern.Basic
import Vetting.Value.Basic

/-! Rules on what a text contains. -/

namespace Vetting

inductive TextRule where
  | notBlank
  | matching (source : String) (pattern : Pattern)
  | startsWith (start : String)
  | endsWith (ending : String)
  | containing (part : String)

def Value.text? : Value → Option String
  | text s => some s
  | json j => j.text?
  | _ => none

namespace TextRule

def occurs (part : List Char) : List Char → Bool
  | [] => part.isEmpty
  | c :: cs => part.isPrefixOf (c :: cs) || occurs part cs

def accepts : TextRule → String → Bool
  | notBlank, s => s.toList.any fun c => !Unicode.isBlank c
  | matching _ pattern, s => pattern.occursIn s
  | startsWith start, s => start.toList.isPrefixOf s.toList
  | endsWith ending, s => ending.toList.isSuffixOf s.toList
  | containing part, s => occurs part.toList s.toList

def message : TextRule → String
  | notBlank => "Must not be blank"
  | matching source _ => "Must match the following pattern: " ++ source
  | startsWith start => "Must start with \"" ++ start ++ "\""
  | endsWith ending => "Must end with \"" ++ ending ++ "\""
  | containing part => "Must contain \"" ++ part ++ "\""

def name : TextRule → RuleName
  | notBlank => .notBlank
  | matching .. => .matching
  | startsWith _ => .startsWith
  | endsWith _ => .endsWith
  | containing _ => .containing

end TextRule

end Vetting
