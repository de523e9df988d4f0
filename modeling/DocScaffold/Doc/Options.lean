/-!
# Switches of a template
-/

namespace DocScaffold

/-- What a template shows. `gateStructExamples` puts the examples of structs under the two example
switches, which always hold for functions and enums. -/
structure Options where
  includeExamples : Bool := true
  examplesOnlyExposed : Bool := false
  safetyDetails : Bool := false
  gateStructExamples : Bool := false
  deriving DecidableEq

/-- Whether the switches admit an example for an item. -/
def Options.admitsExample (o : Options) (isExposed : Bool) : Bool :=
  o.includeExamples && (!o.examplesOnlyExposed || isExposed)

end DocScaffold
