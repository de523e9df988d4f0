import DocScaffold.CommandLine.Flag

/-!
# Usage of a command
-/

namespace DocScaffold.CommandLine

/-- How a flag is shown; a value stands behind it in capitals. -/
def Flag.usage (f : Flag) : Text :=
  "[".toList ++ f.label ++ (if f.takesValue then " VALUE]".toList else "]".toList)

/-- What stands behind the flags. -/
def operands : Option Command → Text
  | none => "\x7b".toList ++ List.intercalate [','] (Command.all.map Command.name) ++
      "\x7d ...".toList
  | some c => if c.takesPath then "path".toList else []

def usage (speaking : Option Command) : Text :=
  let flags := match speaking with
    | none => programFlags
    | some c => c.flags
  Text.unwords (("usage: ".toList ++ speaker speaking) ::
    (flags.map Flag.usage ++ [operands speaking].filter (!·.isEmpty)))

end DocScaffold.CommandLine
