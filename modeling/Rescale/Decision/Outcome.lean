import Rescale.Ceiling.Basic

/-!
# Outcomes

How a decision cycle can end without an error.

## Main definitions

* `BlockReason`: Why a decision is not applied although it was computed.
* `Outcome`: How a decision ends.
-/

namespace Rescale

/-- Why a decision is not applied although it was computed. -/
inductive BlockReason where
  | disabled
  | blackout
  deriving DecidableEq, Repr

namespace BlockReason

/-- The wording of a reason. -/
def text : BlockReason → String
  | disabled => "scaling.enabled is false"
  | blackout => "inside scaling.excluded_periods"

end BlockReason

/-- How a decision ends. -/
inductive Outcome where
  /-- A new decision was stored. -/
  | scaled
  /-- There is nothing to change. -/
  | noChange
  /-- A decision was computed but must not be applied. -/
  | blocked (reason : BlockReason)
  /-- A decision was computed but would exceed a ceiling. -/
  | limited (ceiling : Ceiling)
  deriving DecidableEq, Repr

namespace Outcome

/-- Whether a decision was stored. -/
def isScaled : Outcome → Bool
  | scaled => true
  | _ => false

/-- The wording of an outcome. -/
def text : Outcome → String
  | scaled => "scaled"
  | noChange => "no change"
  | blocked reason => "blocked: " ++ reason.text
  | limited ceiling => "resource limited: " ++ ceiling.text

end Outcome

end Rescale
