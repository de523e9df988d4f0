import DocScaffold.Yaml.Document

/-!
# Readers of YAML

A reader makes a document of a text. Which one it is stands open: what is said of settings holds for any
reader, if need be for one that delivers mappings whose keys differ.
-/

namespace DocScaffold.Yaml

/-- Why a reader has no document for a text. -/
inductive Refusal
  /-- The text breaks the rules of YAML. -/
  | malformed (explanation : Text)
  | raised (e : Raised)

structure Reader where
  read : Text → Except Refusal Document

/-- Of the keys no two are equal. -/
def Value.KeysApart (m : Mapping) : Prop := m.Pairwise fun a b => a.1.sameKey b.1 = false

/-- Whether the keys of every mapping that is delivered differ. -/
def Reader.KeepsKeysApart (y : Reader) : Prop :=
  ∀ s d, y.read s = .ok d → ∀ v m, d.mapping? v = some m → Value.KeysApart m

end DocScaffold.Yaml
