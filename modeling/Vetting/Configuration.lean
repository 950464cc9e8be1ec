import Vetting.Path

/-! What a run is told besides its rules: the message of violations that have none of their own, and
the path its root stands at. -/

namespace Vetting

structure Configuration where
  defaultMessage : String
  rootPath : Path
deriving DecidableEq

namespace Configuration

def standard : Configuration := ⟨"The value is invalid.", .root⟩

def isStandard (c : Configuration) : Bool := c = standard

def inspect (c : Configuration) : String :=
  Text.record "Configuration"
    [("default_violation_message", Text.quote c.defaultMessage), ("root_path", c.rootPath.inspect)]

def inspectValidator (c : Configuration) (name subject : String) (context : Option String) :
    String :=
  Text.record name <|
    [("subject", Text.quote subject)] ++ (context.toList.map fun text => ("context", text)) ++
      [("configuration", c.inspect)]

end Configuration

end Vetting
