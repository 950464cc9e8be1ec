import Vetting.Decimal.Layout
import Vetting.Json.Basic
import Vetting.Text.Notation
import Vetting.Text.Quoted

/-! Documents as text, and as they are shown for inspection. -/

namespace Vetting

def Number.write : Number → String
  | .integer n => toString n
  | .double x => Decimal.Layout.document.write (Decimal.ofDouble x)

namespace Json

def escapeChar (c : Char) : List Char :=
  if c = '"' || c = '\\' then ['\\', c]
  else if c < ' ' then
    let digits := Text.hexadecimal c
    ['\\', 'u'] ++ List.replicate (4 - digits.length) '0' ++ digits
  else [c]

def writeText (s : String) : String :=
  String.ofList ('"' :: (s.toList.flatMap escapeChar ++ ['"']))

mutual

def write : Json → String
  | null => "null"
  | bool b => if b then "true" else "false"
  | number n => n.write
  | text s => writeText s
  | array items => "[" ++ ",".intercalate (writeItems items) ++ "]"
  | object members => "\x7b" ++ ",".intercalate (writeMembers members) ++ "\x7d"

def writeItems : List Json → List String
  | [] => []
  | j :: js => write j :: writeItems js

def writeMembers : List (String × Json) → List String
  | [] => []
  | (k, j) :: ms => (writeText k ++ ":" ++ write j) :: writeMembers ms

end

mutual

def inspect : Json → String
  | null => "Null"
  | bool b => Text.tagged "Bool" (if b then "true" else "false")
  | number n => Text.tagged "Number" n.write
  | text s => Text.tagged "String" (Text.quote s)
  | array items => "Array " ++ Text.list (inspectItems items)
  | object members => "Object " ++ Text.braced (inspectMembers members)

def inspectItems : List Json → List String
  | [] => []
  | j :: js => inspect j :: inspectItems js

def inspectMembers : List (String × Json) → List String
  | [] => []
  | (k, j) :: ms => (Text.quote k ++ ": " ++ inspect j) :: inspectMembers ms

end

end Json

end Vetting
