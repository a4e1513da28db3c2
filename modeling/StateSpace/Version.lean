/-!
# Version
-/

namespace StateSpace

/-- The version of the library. -/
def version : String := "0.1.0"

end StateSpace
