import DocScaffold.Doc.Options
import DocScaffold.Text.Basic

/-!
# Switches by name

Each switch of a template has two spellings, one with underscores and one with capitals.
-/

namespace DocScaffold

inductive Switch
  | includeExamples
  | examplesOnlyExposed
  | safetyDetails
  | gateStructExamples
  deriving DecidableEq

namespace Switch

def all : List Switch :=
  [includeExamples, examplesOnlyExposed, safetyDetails, gateStructExamples]

/-- The spelling with underscores. -/
def key : Switch → Text
  | includeExamples => "include_examples".toList
  | examplesOnlyExposed => "examples_only_for_public_or_extern".toList
  | safetyDetails => "include_safety_details".toList
  | gateStructExamples => "gate_struct_examples".toList

/-- The spelling with capitals. -/
def camelKey : Switch → Text
  | includeExamples => "includeExamples".toList
  | examplesOnlyExposed => "examplesOnlyForPublicOrExtern".toList
  | safetyDetails => "includeSafetyDetails".toList
  | gateStructExamples => "gateStructExamples".toList

def set (s : Switch) (value : Bool) (o : Options) : Options :=
  match s with
  | includeExamples => { o with includeExamples := value }
  | examplesOnlyExposed => { o with examplesOnlyExposed := value }
  | safetyDetails => { o with safetyDetails := value }
  | gateStructExamples => { o with gateStructExamples := value }

def get (s : Switch) (o : Options) : Bool :=
  match s with
  | includeExamples => o.includeExamples
  | examplesOnlyExposed => o.examplesOnlyExposed
  | safetyDetails => o.safetyDetails
  | gateStructExamples => o.gateStructExamples

end Switch

end DocScaffold
