import DocScaffold.Generator
import DocScaffold.Log.Record

/-!
# What is logged about the work on a declaration

All of it is for finding faults.
-/

namespace DocScaffold.Log

/-- A record but for its time. -/
abbrev Note := Text → Record

def debug (logger : Text) (subject : Option Text) (message : Text) : Note := fun time =>
  ⟨time, .debug, logger, subject, message⟩

namespace Trace

/-- A search that finds nothing says where it ended. -/
def search (cursor : Nat) : Declaration.Sought → List Note
  | .found _ => []
  | .stopped line => [debug "scanner" none
      ("Line ".toList ++ Text.ofNat line ++ " closes a body or is a comment; no item".toList)]
  | .exhausted => [debug "scanner" none ("No item found after line ".toList ++ Text.ofNat cursor)]

/-- The declaration that is to be documented. -/
def found (signature : Text) : Note :=
  debug "generator" none ("Scanned signature: ".toList ++ signature)

/-- A declaration that gets no template says why. -/
def outcome (signature : Text) : Generator.Outcome → List Note
  | .template .. => []
  | .rejected kind => [debug (Record.kindPrefix ++ kind.name) none
      ("Rejected ".toList ++ kind.name ++ " declaration: ".toList ++ signature)]
  | .disabled kind => [debug "generator" (some kind.name) "No analyzer enabled"]
  | .unsupported keyword =>
    [debug "generator" (some ((keyword.map Keyword.text).getD "unknown".toList))
      ("Unsupported item: ".toList ++ signature)]

/-- The position of a switch. -/
def position (b : Bool) : Text := if b then "True" else "False"

/-- The options in use. -/
def options (o : Options) : Note :=
  debug "cli" none ("Generation options: GenerationOptions(include_examples=".toList ++
    position o.includeExamples ++ ", examples_only_for_public_or_extern=".toList ++
    position o.examplesOnlyExposed ++ ", include_safety_details=".toList ++
    position o.safetyDetails ++ ", gate_struct_examples=".toList ++
    position o.gateStructExamples ++ ")".toList)

end Trace

end DocScaffold.Log
