import DocScaffold.Host.Yaml.Node

/-!
# Merge keys

A merge key of a mapping stands for the entries of other mappings, which come in front of its own, so
its own prevail. Of several mappings under one key the first prevails. The key `=` is a text.
-/

namespace DocScaffold.Yaml

abbrev Entries := List (Nat × Nat)

namespace Graph

def content? (g : Graph) (place : Nat) : Option Node.Content := g[place]?.map (·.content)

def tag? (g : Graph) (place : Nat) : Option Tag := g[place]?.map (·.tag)

/-- The entries of a mapping. -/
def entries (g : Graph) (place : Nat) : Entries :=
  match g.content? place with
  | some (.mapping entries) => entries
  | _ => []

def setEntries (g : Graph) (place : Nat) (entries : Entries) : Graph :=
  g.modify place fun node => { node with content := .mapping entries }

/-- Makes the keys `=` of a mapping texts. -/
def settleKeys (g : Graph) (place : Nat) : Graph :=
  (g.entries place).foldl (fun g (key, _) =>
    g.modify key fun node => if node.tag = .value then { node with tag := .text } else node) g

def isMerge (g : Graph) (entry : Nat × Nat) : Bool := g.tag? entry.1 = some .merge

/-- Replaces the merge keys of a mapping, of which `merged` have been replaced; `none` where one
stands for something else than mappings. A mapping may be merged into itself: its merge keys are gone
by then. The first number bounds the depth of the recursion. -/
def merge (merged : Entries) : Nat → Nat → Graph → Option Graph
  | 0, _, _ => none
  | fuel + 1, place, g => do
    let g := g.settleKeys place
    let entries := g.entries place
    match entries.findIdx? g.isMerge with
    | none => return if merged.isEmpty then g else g.setEntries place (merged ++ entries)
    | some i =>
      let (_, source) ← entries[i]?
      let g := g.setEntries place (entries.eraseIdx i)
      let mergeOne (source : Nat) (g : Graph) : Option (Entries × Graph) := do
        match ← g.content? source with
        | .mapping _ =>
          let g ← merge [] fuel source g
          return (g.entries source, g)
        | _ => none
      let (more, g) ← match ← g.content? source with
        | .sequence items => items.foldlM (fun (more, g) item => do
            let (first, g) ← mergeOne item g
            return (first ++ more, g)) ([], g)
        | _ => mergeOne source g
      merge (merged ++ more) fuel place g

/-- The number of entries of all mappings. -/
def entryCount (g : Graph) : Nat :=
  g.foldl (fun n node => match node.content with
    | .mapping entries => n + entries.length
    | _ => n) 0

/-- Replaces the merge keys of a mapping. -/
def withMerged (g : Graph) (place : Nat) : Option Graph := merge [] (2 * g.entryCount + 2) place g

end Graph

end DocScaffold.Yaml
