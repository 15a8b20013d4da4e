import ContractDoc.Text.LowerCase
import ContractDoc.Value.Json
import ContractDoc.Value.Yaml.Write

/-!
# Writing values in a chosen format

The support for YAML is optional; without it that format is refused.
-/

namespace ContractDoc
namespace Output

/-- Why a value cannot be written. -/
inductive Error where
  /-- There is no support for YAML. -/
  | yamlUnavailable
  | unsupportedFormat (format : String)
  deriving DecidableEq, Repr

/-- The wording of an output error. -/
def Error.message : Error → String
  | yamlUnavailable => "PyYAML is not installed. Install it with: pip install pyyaml"
  | unsupportedFormat format => s!"Unsupported format: {format}. Use 'json' or 'yaml'"

/-- The JSON text of a value. -/
def json (pretty : Bool) (value : Value) : String :=
  Json.write (if pretty then .pretty else .compact) value

/-- The YAML text of a value. -/
def yaml (yamlAvailable : Bool) (value : Value) : Except Error String :=
  if yamlAvailable then .ok (Yaml.write value) else .error .yamlUnavailable

/-- The text of a value in a format, whose name may be written in capitals. -/
def inFormat (yamlAvailable : Bool) (format : String) (pretty : Bool) (value : Value) :
    Except Error String :=
  let format := Text.lowerCase format
  if format = "json" then .ok (json pretty value)
  else if format = "yaml" ∨ format = "yml" then yaml yamlAvailable value
  else .error (.unsupportedFormat format)

end Output
end ContractDoc
