/-!
# The version of this library
-/

namespace MapArchive

/-- The version: major, minor and patch. -/
def version : String := "1.0.0"

end MapArchive
