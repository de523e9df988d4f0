import DocScaffold.Host.Yaml.Constant
import DocScaffold.Host.Yaml.Merge
import DocScaffold.Yaml.Reader

/-!
# A reader of YAML

The reader that the program is run with. Collections are built one after another, those further out
first; the first fault that is met counts. Of this reader it is proved that the keys of its mappings
differ; nothing else that is said of settings is about it.
-/

namespace DocScaffold.Yaml

namespace Document

/-- The graph, the places of the collections to build, and those that have been built. -/
structure Site where
  graph : Graph
  places : Array Nat := #[]
  built : List (Nat × Collection) := []

abbrev Builder := StateT Site (Except Error)

def contentOf (place : Nat) : Builder Node.Content := do
  match (← get).graph.content? place with
  | some content => return content
  | none => throw .malformed

/-- The code points of a scalar. A mapping with the key `=` stands for the scalar under that key. -/
def scalarAt (g : Graph) : Nat → Nat → Except Error Codes
  | 0, _ => .error .malformed
  | fuel + 1, place =>
    match g.content? place with
    | some (.scalar content) => .ok content
    | some (.mapping entries) =>
      match entries.find? fun (key, _) => g.tag? key = some .value with
      | some (_, value) => scalarAt g fuel value
      | none => .error .malformed
    | _ => .error .malformed

/-- The value of a scalar node; a timestamp has to be written as a scalar. -/
def buildScalar (tag : Tag) (place : Nat) : Builder Value := do
  let g := (← get).graph
  let content ← scalarAt g (g.size + 1) place
  match tag, ← contentOf place with
  | .timestamp, .mapping _ => throw .notText
  | _, _ => Value.ofScalar tag content

/-- The value of a node. A collection is put off. -/
def build (place : Nat) : Builder Value := do
  match (← get).graph.tag? place with
  | none => throw .malformed
  | some tag =>
    match tag with
    | .sequence | .mapping | .omap | .pairs | .set =>
      modify fun s =>
        if s.places.contains place then s else { s with places := s.places.push place }
      return .collection place
    | tag => buildScalar tag place

def buildEntry (entry : Nat × Nat) : Builder (Value × Value) := do
  let key ← build entry.1
  return (key, ← build entry.2)

/-- Builds the entries of a mapping. -/
def buildMapping (place : Nat) : Builder Mapping := do
  match ← contentOf place with
  | .mapping _ =>
    match (← get).graph.withMerged place with
    | none => throw .malformed
    | some g =>
      modify fun s => { s with graph := g }
      (g.entries place).foldlM (fun m (key, value) => do
        let key ← build key
        if !key.isKey then throw .malformed
        return Value.put key (← build value) m) []
  | _ => throw .malformed

/-- Builds the only entry of a mapping, as it is written. -/
def buildPair (place : Nat) : Builder (Value × Value) := do
  match ← contentOf place with
  | .mapping [entry] => buildEntry entry
  | _ => throw .malformed

/-- The hash of an integer as a word of 64 bits. -/
def hashWord (i : Int) : Nat :=
  let h := Int.tmod i 0x1FFFFFFFFFFFFFFF
  ((if h = -1 then -2 else h) % 0x10000000000000000).toNat

/-- The slot for a hash in a table: the first free one of a run of slots, or of the runs that are tried
behind it. -/
def slotFrom (taken : List Nat) (size : Nat) : Nat → Nat → Nat → Nat
  | 0, slot, _ => slot
  | fuel + 1, slot, hash =>
    let run := (List.range (if slot + 9 < size then 10 else 1)).map (slot + ·)
    match run.find? fun n => !taken.contains n with
    | some n => n
    | none => slotFrom taken size fuel ((slot * 5 + 1 + hash / 32) % size) (hash / 32)

/-- The members of a set in the order in which it is gone through: integers by their slots in a table of
hashes, others as they are written. -/
def listed (members : List Value) : List Value :=
  match members.mapM Value.keyInteger? with
  | none => members
  | some keys =>
    let size := if keys.length < 5 then 8 else Nat.pow 2 ((2 * keys.length).log2 + 1)
    let slots := keys.foldl (fun taken key =>
      let hash := hashWord key
      taken ++ [slotFrom taken size (size + 16) (hash % size) hash]) []
    ((members.zip slots).mergeSort fun a b => a.2 ≤ b.2).map (·.1)

/-- Builds a collection. -/
def buildCollection (place : Nat) : Builder Collection := do
  match (← get).graph.tag? place, ← contentOf place with
  | some .sequence, .sequence items => return .sequence (← items.mapM build)
  | some .mapping, _ => return .mapping (← buildMapping place)
  | some .set, _ => return .set (listed ((← buildMapping place).map (·.1)))
  | _, .sequence items => return .pairs (← items.mapM buildPair)
  | _, _ => throw .malformed

/-- Builds the collections from the one with number `i` on; building one may put off others. -/
def buildFrom (i : Nat) : Nat → Builder Unit
  | 0 => return ()
  | fuel + 1 => do
    match (← get).places[i]? with
    | none => return ()
    | some place =>
      let collection ← buildCollection place
      modify fun s => { s with built := (place, collection) :: s.built }
      buildFrom (i + 1) fuel

/-- The document of a graph with the place of its root. -/
def ofGraph (g : Graph) (root : Nat) : Except Error Document := do
  let build : Builder Value := do
    let value ← build root
    buildFrom 0 (g.size + 1)
    return value
  let (root, s) ← build.run { graph := g }
  return ⟨root, s.built⟩

/-- The document that a text holds. -/
def ofText (s : Text) : Except Error Document := do
  match Node.ofTokens? (← tokens s) with
  | some (g, root) => ofGraph g root
  | none => .error .malformed

end Document

/-- The reader of the program. -/
def Reader.ofProgram : Reader := ⟨fun s => (Document.ofText s).mapError Error.refusal⟩

end DocScaffold.Yaml
