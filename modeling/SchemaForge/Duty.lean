import SchemaForge.Fault

/-! What every target language has to settle for itself. -/
namespace SchemaForge

inductive Duty where
  | numberType
  | attributeType
  | shapePath
  | extension
  | conventions
  | sections
  deriving DecidableEq, Repr

namespace Duty

/-- What is said when a language leaves a duty open. -/
def message : Duty → String
  | numberType => "get_builtin_type must be overridden"
  | attributeType => "get_generated_type must be overridden"
  | shapePath => "get_template_path must be defined in subclass"
  | extension => "get_main_file_extension must be defined in subclass"
  | conventions => "create_helper must be defined in subclass"
  | sections => "need to override method"

def neglected (d : Duty) : Fault := .undefined d.message

/-- Supporting files are no duty: unless a language names some there are none. -/
def supportFiles : List String := []

end Duty
end SchemaForge
