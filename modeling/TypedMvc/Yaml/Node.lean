import TypedMvc.Yaml.Token

namespace TypedMvc.Yaml

inductive Tag where
  | plain
  | quoted
  | collection
  | given (name : String)
  deriving DecidableEq, Repr

inductive Content where
  | scalar (text : String)
  | sequence (items : List Nat)
  | mapping (entries : List (Nat × Nat))
  deriving Repr

structure Node where
  tag : Tag
  content : Content
  deriving Repr

-- The nodes of a document; it is looped if a collection holds itself.
structure Graph where
  nodes : Array Node
  root : Nat
  looped : Bool
  deriving Repr

structure Reading where
  tokens : List Token
  ending : Option Fault
  handles : List (String × String)
  nodes : Array Node
  anchors : List (String × Nat)
  outer : List Nat
  looped : Bool

namespace Reading

def ofTokens (tokens : List Token) (ending : Option Fault) : Reading :=
  ⟨tokens,ending,[],#[],[],[],false⟩

def coreTag : String := "tag:yaml.org,2002:"

def standardHandles : List (String × String) := [("!","!"),("!!",coreTag)]

def depthLimit : Nat := 488

private def endingFault (r : Reading) : Except Fault α := .error (r.ending.getD .malformed)

def peek (r : Reading) : Except Fault Token :=
  match r.tokens with
  | token :: _ => .ok token
  | [] => r.endingFault

def skip (r : Reading) : Reading := { r with tokens := r.tokens.drop 1 }

def nextIs (token : Token) (r : Reading) : Except Fault Bool := r.peek.map (· == token)

private def properties (r : Reading) :
    Except Fault (Option String × Option (Option String × String) × Reading) := do
  match ← r.peek with
  | .anchor name =>
    let r := r.skip
    match ← r.peek with
    | .tag handle rest => return (some name,some (handle,rest),r.skip)
    | _ => return (some name,none,r)
  | .tag handle rest =>
    let r := r.skip
    match ← r.peek with
    | .anchor name => return (some name,some (handle,rest),r.skip)
    | _ => return (none,some (handle,rest),r)
  | _ => return (none,none,r)

private def fullTag (r : Reading) : Option (Option String × String) → Except Fault (Option String)
  | none => .ok none
  | some (none,rest) => .ok (some rest)
  | some (some handle,rest) =>
    match r.handles.lookup handle with
    | some expansion => .ok (some (expansion ++ rest))
    | none => malformed

-- The single mark leaves the kind of a node to its text, as no tag at all does.
private def scalarTag (plain : Bool) : Option String → Tag
  | none => if plain then .plain else .quoted
  | some "!" => .plain
  | some name => .given name

private def collectionTag : Option String → Tag
  | none => .collection
  | some "!" => .collection
  | some name => .given name

def add (name : Option String) (node : Node) (r : Reading) : Nat × Reading :=
  let place := r.nodes.size
  let anchors :=
    match name with
    | some name => (name,place) :: r.anchors
    | none => r.anchors
  (place,{ r with nodes := r.nodes.push node,anchors := anchors })

private def addEmpty (r : Reading) : Nat × Reading := r.add none ⟨.plain,.scalar ""⟩

-- A collection gets its place before its parts have theirs.
private def enter (name : Option String) (node : Node) (r : Reading) : Except Fault (Nat × Reading) :=
  if depthLimit ≤ r.outer.length then .error (.misused .tooDeep)
  else
    let (place,r) := r.add name node
    .ok (place,{ r with outer := place :: r.outer })

private def leave (place : Nat) (content : Content) (r : Reading) : Nat × Reading :=
  (place,
    { r with
      nodes := r.nodes.modify place fun node => { node with content := content }
      outer := r.outer.drop 1 })

-- The node that a name stands for; inside itself it loops the document.
private def aliased (name : String) (r : Reading) : Except Fault (Nat × Reading) :=
  match r.anchors.lookup name with
  | some place => .ok (place,{ r.skip with looped := r.looped || r.outer.contains place })
  | none => malformed

mutual

-- Each call spends one unit of fuel. In block context the collections of blocks are nodes too, and after
-- a key so is a sequence that is not indented further.
def node (block indentless : Bool) : Nat → Reading → Except Fault (Nat × Reading)
  | 0,_ => malformed
  | fuel + 1,r => do
    match ← r.peek with
    | .alias name => aliased name r
    | _ =>
      let (name,written,r) ← r.properties
      let tag ← r.fullTag written
      let next ← r.peek
      if (name.bind fun name => r.anchors.lookup name).isSome then malformed
      else
        let sequence (start : Reading) (items : Reading → Except Fault (List Nat × Reading)) :
            Except Fault (Nat × Reading) := do
          let (place,r) ← start.enter name ⟨collectionTag tag,.sequence []⟩
          let (items,r) ← items r
          return r.leave place (.sequence items)
        let mapping (start : Reading) (entries : Reading → Except Fault (List (Nat × Nat) × Reading)) :
            Except Fault (Nat × Reading) := do
          let (place,r) ← start.enter name ⟨collectionTag tag,.mapping []⟩
          let (entries,r) ← entries r
          return r.leave place (.mapping entries)
        match next with
        | .blockEntry => if indentless then sequence r (indentlessItems fuel) else emptyNode name tag r
        | .scalar text plain => return r.skip.add name ⟨scalarTag plain tag,.scalar text⟩
        | .flowSequenceStart => sequence r.skip (flowItems true fuel)
        | .flowMappingStart => mapping r.skip (flowEntries true fuel)
        | .blockSequenceStart =>
          if block then sequence r.skip (blockItems fuel) else emptyNode name tag r
        | .blockMappingStart =>
          if block then mapping r.skip (blockEntries fuel) else emptyNode name tag r
        | _ => emptyNode name tag r
termination_by structural fuel => fuel

def emptyNode (name tag : Option String) (r : Reading) : Except Fault (Nat × Reading) :=
  if name.isNone && tag.isNone then malformed
  else .ok (r.add name ⟨scalarTag true tag,.scalar ""⟩)

def blockItems : Nat → Reading → Except Fault (List Nat × Reading)
  | 0,_ => malformed
  | fuel + 1,r => do
    match ← r.peek with
    | .blockEntry =>
      let r := r.skip
      let next ← r.peek
      let (item,r) ←
        if next == .blockEntry || next == .blockEnd then pure r.addEmpty
        else node true false fuel r
      let (items,r) ← blockItems fuel r
      return (item :: items,r)
    | .blockEnd => return ([],r.skip)
    | _ => malformed
termination_by structural fuel => fuel

def indentlessItems : Nat → Reading → Except Fault (List Nat × Reading)
  | 0,_ => malformed
  | fuel + 1,r => do
    match ← r.peek with
    | .blockEntry =>
      let r := r.skip
      let next ← r.peek
      let (item,r) ←
        if next == .blockEntry || next == .key || next == .value || next == .blockEnd then
          pure r.addEmpty
        else node true false fuel r
      let (items,r) ← indentlessItems fuel r
      return (item :: items,r)
    | _ => return ([],r)
termination_by structural fuel => fuel

def blockPart : Nat → Reading → Except Fault (Nat × Reading)
  | 0,_ => malformed
  | fuel + 1,r => do
    let next ← r.peek
    if next == .key || next == .value || next == .blockEnd then return r.addEmpty
    else node true true fuel r
termination_by structural fuel => fuel

def blockEntries : Nat → Reading → Except Fault (List (Nat × Nat) × Reading)
  | 0,_ => malformed
  | fuel + 1,r => do
    match ← r.peek with
    | .key =>
      let (key,r) ← blockPart fuel r.skip
      let (item,r) ← if ← r.nextIs .value then blockPart fuel r.skip else pure r.addEmpty
      let (entries,r) ← blockEntries fuel r
      return ((key,item) :: entries,r)
    | .blockEnd => return ([],r.skip)
    | _ => malformed
termination_by structural fuel => fuel

def flowValue (close : Token) : Nat → Reading → Except Fault (Nat × Reading)
  | 0,_ => malformed
  | fuel + 1,r => do
    if ← r.nextIs .value then
      let r := r.skip
      let next ← r.peek
      if next == .flowEntry || next == close then return r.addEmpty else node false false fuel r
    else return r.addEmpty
termination_by structural fuel => fuel

def flowKey (close : Token) : Nat → Reading → Except Fault (Nat × Reading)
  | 0,_ => malformed
  | fuel + 1,r => do
    let next ← r.peek
    if next == .value || next == .flowEntry || next == close then return r.addEmpty
    else node false false fuel r
termination_by structural fuel => fuel

def flowItems (first : Bool) : Nat → Reading → Except Fault (List Nat × Reading)
  | 0,_ => malformed
  | fuel + 1,r => do
    if ← r.nextIs .flowSequenceEnd then return ([],r.skip)
    let r ← if first then pure r else if ← r.nextIs .flowEntry then pure r.skip else malformed
    match ← r.peek with
    | .flowSequenceEnd => return ([],r.skip)
    | .key =>
      let (place,r) ← r.skip.enter none ⟨.collection,.mapping []⟩
      let (key,r) ← flowKey .flowSequenceEnd fuel r
      let (item,r) ← flowValue .flowSequenceEnd fuel r
      let (place,r) := r.leave place (.mapping [(key,item)])
      let (items,r) ← flowItems false fuel r
      return (place :: items,r)
    | _ =>
      let (item,r) ← node false false fuel r
      let (items,r) ← flowItems false fuel r
      return (item :: items,r)
termination_by structural fuel => fuel

def flowEntries (first : Bool) : Nat → Reading → Except Fault (List (Nat × Nat) × Reading)
  | 0,_ => malformed
  | fuel + 1,r => do
    if ← r.nextIs .flowMappingEnd then return ([],r.skip)
    let r ← if first then pure r else if ← r.nextIs .flowEntry then pure r.skip else malformed
    match ← r.peek with
    | .flowMappingEnd => return ([],r.skip)
    | .key =>
      let (key,r) ← flowKey .flowMappingEnd fuel r.skip
      let (item,r) ← flowValue .flowMappingEnd fuel r
      let (entries,r) ← flowEntries false fuel r
      return ((key,item) :: entries,r)
    | _ =>
      let (key,r) ← node false false fuel r
      let (item,r) := r.addEmpty
      let (entries,r) ← flowEntries false fuel r
      return ((key,item) :: entries,r)
termination_by structural fuel => fuel

end

private def directives : Nat → Reading → Option Nat → Except Fault Reading
  | 0,r,_ => .ok r
  | fuel + 1,r,version => do
    match ← r.peek with
    | .directive (.version major) =>
      if version.isSome || major != 1 then malformed else directives fuel r.skip (some major)
    | .directive (.handle name expansion) =>
      if (r.handles.lookup name).isSome then malformed
      else directives fuel { r.skip with handles := (name,expansion) :: r.handles } version
    | .directive .other => directives fuel r.skip version
    | _ => return r

private def skipDocumentEnds : Nat → Reading → Except Fault Reading
  | 0,r => .ok r
  | fuel + 1,r => do
    match ← r.peek with
    | .documentEnd => skipDocumentEnds fuel r.skip
    | _ => return r

-- Nothing but ends of the document may follow it; what is declared for a further one is still looked at.
private def finished (root : Nat) (r : Reading) : Except Fault (Option Graph) := do
  let r ← skipDocumentEnds (r.tokens.length + 1) r
  if ← r.nextIs .streamEnd then return some ⟨r.nodes,root,r.looped⟩
  else
    let r ← directives (r.tokens.length + 1) { r with handles := [] } none
    let _ ← r.peek
    malformed

private def isDocumentEdge : Token → Bool
  | .directive _ | .documentStart | .documentEnd | .streamEnd => true
  | _ => false

-- A document with its start mark; what has been declared before the mark holds in it.
private def markedDocument (fuel : Nat) (r : Reading) : Except Fault (Option Graph) := do
  let r ← skipDocumentEnds fuel r
  if ← r.nextIs .streamEnd then return none
  let r ← directives fuel r none
  let r := { r with handles := r.handles ++ standardHandles }
  if ← r.nextIs .documentStart then
    let r := r.skip
    let (root,r) ← if isDocumentEdge (← r.peek) then pure r.addEmpty else node true false fuel r
    finished root r
  else malformed

def graph (r : Reading) : Except Fault (Option Graph) := do
  let fuel := 4 * r.tokens.length + 8
  match ← r.peek with
  | .directive _ | .documentStart | .streamEnd => markedDocument fuel r
  | _ =>
    let (root,r) ← node true false fuel { r with handles := standardHandles }
    finished root r

end Reading

def graphOf (text : List Char) (behind : Option Fault) : Except Fault (Option Graph) :=
  let read := tokens text behind
  (Reading.ofTokens read.1 read.2).graph

end TypedMvc.Yaml
