import JavaAtlas.Catalogue.Explainers
import JavaAtlas.Catalogue.Tools

set_option autoImplicit false

/-! # The built-in operations -/

namespace JavaAtlas.Catalogue

/-- Every built-in candidate: the tools, then the explainers. -/
def candidates : List Candidate := tools ++ explainers

/-- The registry of the built-in operations. -/
def builtin : Except Failure Registry := Registry.discover candidates

end JavaAtlas.Catalogue
