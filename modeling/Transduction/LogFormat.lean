import Transduction.Json.Reader
import Transduction.Json.Decode

/-!
# Log formats

The forms in which diagnostics can be written, and the choice between them in JSON.

## Main definitions

* `LogFormat`: lines of text, or one JSON object for each event.
* `LogFormat.parse?`: reads the choice from JSON text.

## Main results

* `LogFormat.lookup_name`: every form is found under its name.
-/

namespace Transduction

/-- The form in which diagnostics are written. -/
inductive LogFormat where
  /-- Lines of text. -/
  | text
  /-- One JSON object for each event. -/
  | json
  deriving DecidableEq, Repr

namespace LogFormat

/-- The form used where nothing else is said. -/
def default : LogFormat := text

def name : LogFormat → String
  | text => "text"
  | json => "json"

/-- The names of the forms. -/
def names : List (String × LogFormat) := [("text", text), ("json", json)]

/-- Every form is found under its name. -/
theorem lookup_name (format : LogFormat) : names.lookup format.name = some format := by
  cases format <;> rfl

/-- Reads the choice of a form from JSON text. -/
def parse? (text : String) : Option LogFormat := (Json.parse? text).bind (Json.choice? names)

end LogFormat

end Transduction
