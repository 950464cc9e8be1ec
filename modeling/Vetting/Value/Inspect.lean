import Vetting.Json.Writer
import Vetting.Run.Node
import Vetting.Value.Basic

/-! Values, contents and nodes as they are shown for inspection. -/

namespace Vetting

namespace Value

def inspect : Value → String
  | json j => j.inspect
  | bool b => if b then "true" else "false"
  | char c => Text.quoteChar c
  | text s => Text.quote s
  | integer _ n => toString n
  | single x => Decimal.Layout.inspected.write (Decimal.ofSingle x)
  | double x => Decimal.Layout.inspected.write (Decimal.ofDouble x)
  | sequence items => Text.list (items.map Json.inspect)
  | textSet _ members => Text.braced (members.map Text.quote)
  | table members => Text.braced (members.map fun (k, j) => Text.quote k ++ ": " ++ j.inspect)
  | reference s => Text.optional (s.map Text.quote)

end Value

def Content.inspect : Content → String
  | .plain v => v.inspect
  | .optional v => Text.optional (v.map Value.inspect)

def Node.inspect (n : Node Content) : String :=
  Text.record "Validatable" [("value", n.value.inspect), ("path", n.path.inspect)]

end Vetting
