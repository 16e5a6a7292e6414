/-!
# Store Errors

Why a stored record cannot be read or written. A record that is not there is no
error.

## Main definitions

* `StoreError`: The causes.
* `StoreError.message`: Their wording.
-/

namespace Rescale

/-- Why the store did not answer. -/
inductive StoreError where
  | read (why : String)
  | write (why : String)
  /-- A record is there but cannot be read back. -/
  | unreadable
  deriving DecidableEq, Repr

namespace StoreError

/-- The wording of an error. -/
def message : StoreError → String
  | read why => "read error: " ++ why
  | write why => "write error: " ++ why
  | unreadable => "deserialization error"

end StoreError

end Rescale
