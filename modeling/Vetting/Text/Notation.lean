/-! The shapes in which compound values are shown for inspection. -/

namespace Vetting.Text

def separated (items : List String) : String := ", ".intercalate items

def list (items : List String) : String := "[" ++ separated items ++ "]"

def braced (items : List String) : String := "\x7b" ++ separated items ++ "\x7d"

def tagged (name value : String) : String := name ++ "(" ++ value ++ ")"

def record (name : String) (fields : List (String × String)) : String :=
  name ++ " \x7b " ++ separated (fields.map fun (label, value) => label ++ ": " ++ value) ++ " \x7d"

def optional : Option String → String
  | none => "None"
  | some value => tagged "Some" value

end Vetting.Text
