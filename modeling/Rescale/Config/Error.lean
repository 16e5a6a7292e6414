import Rescale.Text.Quoted

/-!
# Configuration Errors

Why a configuration is refused.

Each constructor is one cause. The wording is in one place, `message`; rejected
texts are shown quoted, so that blanks and invisible characters show.

## Main definitions

* `ConfigError`: The causes.
* `ConfigError.message`: Their wording.
-/

namespace Rescale

/-- Why a configuration is refused. -/
inductive ConfigError where
  /-- The file is no document, or an option has the wrong type. -/
  | unparsable
  | invalidSpan (field value : String)
  | invalidSize (field value : String)
  | invalidBlackout (value : String)
  | outOfRange (field reason : String)
  | unknownOverride (key : String)
  deriving DecidableEq, Repr

namespace ConfigError

/-- The wording of an error. -/
def message : ConfigError → String
  | unparsable => "failed to parse config"
  | invalidSpan field value => "invalid duration for " ++ field ++ ": " ++ Text.quoted value
  | invalidSize field value => "invalid memory size for " ++ field ++ ": " ++ Text.quoted value
  | invalidBlackout value =>
    "invalid excluded period " ++ Text.quoted value ++ ", expected HH:MM-HH:MM"
  | outOfRange field reason => field ++ " " ++ reason
  | unknownOverride key => "unknown config override: " ++ key

end ConfigError

end Rescale
