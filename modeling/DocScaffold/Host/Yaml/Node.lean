import DocScaffold.Host.Yaml.Token

/-!
# The graph of a YAML document

Nodes are named by their places in the graph. An alias is the place of the node with its anchor, so a
collection may lie in itself.
-/

namespace DocScaffold.Yaml

/-- The tag that a scalar has by its form. -/
def Tag.ofForm (s : Text) : Tag :=
  let form := withoutFinalBreak s
  if s = ['\n'] then text
  else if isBool form then bool
  else if isFloat form then float
  else if isUnsignedInteger (unsigned form) then integer
  else if form = "<<".toList then merge
  else if isNull form then null
  else if Moment.isPlainTimestamp form then timestamp
  else if form = "=".toList then value
  else if isIndicator form then indicator
  else text

namespace Node

/-- What a node holds; other nodes are named by their places. -/
inductive Content
  | scalar (content : Codes)
  | sequence (items : List Nat)
  | mapping (entries : List (Nat × Nat))

end Node

structure Node where
  tag : Tag
  content : Node.Content

abbrev Graph := Array Node

namespace Node

/-- The tokens left, and the nodes and anchors so far. -/
structure Reading where
  tokens : List Token
  graph : Graph := #[]
  anchors : List (Text × Nat) := []

abbrev Reader := StateT Reading Option

/-- The full prefixes of tag handles. -/
abbrev Handles := List (Text × Text)

def peek : Reader (Option Token) := do return (← get).tokens.head?

def drop : Reader Unit := modify fun r => { r with tokens := r.tokens.tail }

/-- Adds a node at the end of the graph. -/
def add (tag : Tag) (content : Content) : Reader Nat := do
  let r ← get
  set { r with graph := r.graph.push ⟨tag, content⟩ }
  return r.graph.size

/-- A place where a node is left out. -/
def addEmpty : Reader Nat := add .null (.scalar [])

/-- Takes the next token if it satisfies `f`. -/
def accept (f : Token → Bool) : Reader Bool := do
  if (← peek).any f then
    drop
    return true
  else return false

def expect (f : Token → Bool) : Reader Unit := do
  if ← accept f then return () else failure

/-- Whether the next token is none of those that satisfy `f`; the end is none of them either. -/
def isNot (f : Token → Bool) : Reader Bool := do return !(← peek).any f

def isBlockEnd : Token → Bool
  | .blockEnd => true
  | _ => false

def isDash : Token → Bool
  | .dash => true
  | _ => false

def isKey : Token → Bool
  | .key => true
  | _ => false

def isValue : Token → Bool
  | .value => true
  | _ => false

def isComma : Token → Bool
  | .comma => true
  | _ => false

def isCloseSequence : Token → Bool
  | .closeSequence => true
  | _ => false

def isCloseMapping : Token → Bool
  | .closeMapping => true
  | _ => false

def isDocumentStart : Token → Bool
  | .documentStart => true
  | _ => false

def isDocumentEnd : Token → Bool
  | .documentEnd => true
  | _ => false

def takeAnchor : Reader (Option Text) := do
  match ← peek with
  | some (.anchor name) =>
    drop
    return some name
  | _ => return none

/-- The full name of the tag that comes next. -/
def takeTagName (handles : Handles) : Reader (Option Text) := do
  match ← peek with
  | some (.tag handle suffix) =>
    drop
    match handle with
    | none => return some suffix
    | some handle =>
      match handles.find? (·.1 == handle) with
      | some (_, stem) => return some (stem ++ suffix)
      | none => failure
  | _ => return none

/-- An anchor and a tag, in either order. -/
def takeProperties (handles : Handles) : Reader (Option Text × Option Text) := do
  match ← takeAnchor with
  | some anchor => return (some anchor, ← takeTagName handles)
  | none =>
    let tag ← takeTagName handles
    return (← takeAnchor, tag)

/-- The tag of a collection; the sign `!` alone leaves it as it is. -/
def collectionTag (name : Option Text) (tag : Tag) : Tag :=
  match name with
  | none | some ['!'] => tag
  | some name => .ofName name

/-- The tag of a scalar; the sign `!` alone lets its form decide, also in quotes. -/
def scalarTag (name : Option Text) (isPlain : Bool) (content : Codes) : Tag :=
  let byForm := (Codes.text? content).elim .text .ofForm
  match name with
  | none => if isPlain then byForm else .text
  | some ['!'] => byForm
  | some name => .ofName name

/-- Gives a name to a place; every name is given once. -/
def bindAnchor (anchor : Option Text) (place : Nat) : Reader Unit := do
  match anchor with
  | none => return ()
  | some name =>
    if (← get).anchors.any (·.1 == name) then failure
    else modify fun r => { r with anchors := (name, place) :: r.anchors }

/-- Adds a scalar. -/
def addScalar (anchor tag : Option Text) (isPlain : Bool) (content : Codes) : Reader Nat := do
  let place ← add (scalarTag tag isPlain content) (.scalar content)
  bindAnchor anchor place
  return place

/-- Adds a collection, whose name holds already in its content. -/
def addCollection (anchor : Option Text) (tag : Tag) (content : Reader Content) : Reader Nat := do
  let place ← add tag (.sequence [])
  bindAnchor anchor place
  let content ← content
  modify fun r => { r with graph := r.graph.setIfInBounds place ⟨tag, content⟩ }
  return place

/-- The place that a name was given to. -/
def lookUp (name : Text) : Reader Nat := do
  match (← get).anchors.find? (·.1 == name) with
  | some (_, place) => return place
  | none => failure

/-- A node of which only an anchor or a tag is written. -/
def readAbsent (anchor tag : Option Text) : Reader Nat :=
  if anchor.isNone && tag.isNone then failure else addScalar anchor tag true []

mutual

/-- Reads a node. Blocks may begin only where `inBlock` says so, and a sequence that is not indented
only as the value of a key. The first number bounds the depth of the recursion. -/
def read (handles : Handles) (inBlock unindented : Bool) : Nat → Reader Nat
  | 0 => failure
  | fuel + 1 => do
    if let some (.alias name) ← peek then
      drop
      return ← lookUp name
    let (anchor, tag) ← takeProperties handles
    match ← peek with
    | some .dash =>
      if unindented then
        addCollection anchor (collectionTag tag .sequence) (.sequence <$> readUnindented handles fuel)
      else readAbsent anchor tag
    | some (.scalar content isPlain) =>
      drop
      addScalar anchor tag isPlain content
    | some .openSequence =>
      drop
      addCollection anchor (collectionTag tag .sequence) (.sequence <$> readFlowItems handles true fuel)
    | some .openMapping =>
      drop
      addCollection anchor (collectionTag tag .mapping) (.mapping <$> readFlowEntries handles true fuel)
    | some .sequenceStart =>
      if inBlock then
        drop
        addCollection anchor (collectionTag tag .sequence) (.sequence <$> readItems handles fuel)
      else readAbsent anchor tag
    | some .mappingStart =>
      if inBlock then
        drop
        addCollection anchor (collectionTag tag .mapping) (.mapping <$> readEntries handles fuel)
      else readAbsent anchor tag
    | _ => readAbsent anchor tag

/-- The items of a block sequence up to its end. -/
def readItems (handles : Handles) : Nat → Reader (List Nat)
  | 0 => failure
  | fuel + 1 => do
    if ← accept isDash then
      let item ← if ← isNot fun t => isDash t || isBlockEnd t then read handles true false fuel
        else addEmpty
      return item :: (← readItems handles fuel)
    else
      expect isBlockEnd
      return []

/-- The items of a sequence that is not indented; it has no end of its own. -/
def readUnindented (handles : Handles) : Nat → Reader (List Nat)
  | 0 => failure
  | fuel + 1 => do
    if ← accept isDash then
      let item ← if ← isNot fun t => isDash t || isKey t || isValue t || isBlockEnd t then
          read handles true false fuel
        else addEmpty
      return item :: (← readUnindented handles fuel)
    else return []

/-- A key or a value of a block mapping, which may be left out. -/
def readPart (handles : Handles) : Nat → Reader Nat
  | 0 => failure
  | fuel + 1 => do
    if ← isNot fun t => isKey t || isValue t || isBlockEnd t then read handles true true fuel
    else addEmpty

/-- The entries of a block mapping up to its end. -/
def readEntries (handles : Handles) : Nat → Reader (List (Nat × Nat))
  | 0 => failure
  | fuel + 1 => do
    if ← accept isKey then
      let key ← readPart handles fuel
      let value ← if ← accept isValue then readPart handles fuel else addEmpty
      return (key, value) :: (← readEntries handles fuel)
    else
      expect isBlockEnd
      return []

/-- A node of a flow collection, which may be left out in front of what satisfies `f`. -/
def readFlowPart (handles : Handles) (f : Token → Bool) : Nat → Reader Nat
  | 0 => failure
  | fuel + 1 => do
    if ← isNot f then read handles false false fuel else addEmpty

/-- The items of a flow sequence up to its end. An item with a key is a mapping of one entry. -/
def readFlowItems (handles : Handles) (isFirst : Bool) : Nat → Reader (List Nat)
  | 0 => failure
  | fuel + 1 => do
    if ← accept isCloseSequence then return []
    if !isFirst then expect isComma
    if ← accept isKey then
      let ends := fun t => isComma t || isCloseSequence t
      let key ← readFlowPart handles (fun t => isValue t || ends t) fuel
      let value ← if ← accept isValue then readFlowPart handles ends fuel else addEmpty
      let item ← add .mapping (.mapping [(key, value)])
      return item :: (← readFlowItems handles false fuel)
    else if ← accept isCloseSequence then return []
    else
      let item ← read handles false false fuel
      return item :: (← readFlowItems handles false fuel)

/-- The entries of a flow mapping up to its end. -/
def readFlowEntries (handles : Handles) (isFirst : Bool) : Nat → Reader (List (Nat × Nat))
  | 0 => failure
  | fuel + 1 => do
    if ← accept isCloseMapping then return []
    if !isFirst then expect isComma
    let ends := fun t => isComma t || isCloseMapping t
    if ← accept isKey then
      let key ← readFlowPart handles (fun t => isValue t || ends t) fuel
      let value ← if ← accept isValue then readFlowPart handles ends fuel else addEmpty
      return (key, value) :: (← readFlowEntries handles false fuel)
    else if ← accept isCloseMapping then return []
    else
      let key ← read handles false false fuel
      let value ← addEmpty
      return (key, value) :: (← readFlowEntries handles false fuel)

end

/-! ## Documents -/

def defaultHandles : Handles := [("!".toList, "!".toList), ("!!".toList, Tag.standard)]

/-- The directives in front of a document. At most one states a version, which has to be 1, and each
handle is declared once. -/
def takeDirectives (hasVersion : Bool) (handles : Handles) :
    List Token → Option (Handles × List Token)
  | .directive (.version major) :: rest =>
    if hasVersion || major ≠ 1 then none else takeDirectives true handles rest
  | .directive (.tag handle stem) :: rest =>
    if handles.any (·.1 == handle) then none
    else takeDirectives hasVersion ((handle, stem) :: handles) rest
  | .directive .other :: rest => takeDirectives hasVersion handles rest
  | rest => some (handles ++ defaultHandles, rest)

def isDirective : Token → Bool
  | .directive _ => true
  | _ => false

/-- Reads the only document: the graph and the place of its root. A text without any document is an
empty node. -/
def ofTokens? (tokens : List Token) : Option (Graph × Nat) := do
  let fuel := 3 * tokens.length + 3
  let (root, r) ←
    if tokens.isEmpty then addEmpty.run { tokens }
    else if tokens.head?.any fun t => isDirective t || isDocumentStart t then do
      let (handles, rest) ← takeDirectives false [] tokens
      match rest with
      | .documentStart :: rest =>
        let isAbsent := match rest.head? with
          | none => true
          | some t => isDirective t || isDocumentStart t || isDocumentEnd t
        if isAbsent then addEmpty.run { tokens := rest }
        else (read handles true false fuel).run { tokens := rest }
      | _ => none
    else (read defaultHandles true false fuel).run { tokens }
  if (r.tokens.dropWhile isDocumentEnd).isEmpty then return (r.graph, root) else none

end Node

end DocScaffold.Yaml
