import TypedMvc.Value.Order
import TypedMvc.Yaml.Cursor
import TypedMvc.Yaml.Meaning
import TypedMvc.Yaml.Node

namespace TypedMvc.Yaml

abbrev Nodes := Array Node

namespace Node

def isMerge (node : Node) : Bool :=
  match node.tag,node.content with
  | .plain,.scalar text => kindOf text == .merge
  | .given name,_ => name == Reading.coreTag ++ "merge"
  | _,_ => false

def isEquals (node : Node) : Bool :=
  match node.tag,node.content with
  | .plain,.scalar text => kindOf text == .equals
  | .given name,_ => name == Reading.coreTag ++ "value"
  | _,_ => false

def entries (node : Node) : List (Nat × Nat) :=
  match node.content with
  | .mapping entries => entries
  | _ => []

def size (node : Node) : Nat :=
  match node.content with
  | .scalar _ => 0
  | .sequence items => items.length
  | .mapping entries => entries.length

end Node

def nodeAt (nodes : Nodes) (place : Nat) : Node := (nodes[place]?).getD ⟨.plain,.scalar ""⟩

private def withEntries (nodes : Nodes) (place : Nat) (entries : List (Nat × Nat)) : Nodes :=
  nodes.modify place fun node => { node with content := .mapping entries }

private def asText (nodes : Nodes) (place : Nat) : Nodes :=
  nodes.modify place fun node => { node with tag := .given (Reading.coreTag ++ "str") }

mutual

-- Merges a mapping from its entry at an index on, with the entries that have been merged before. A mapping
-- may merge itself; the entries are those that it has at the time.
private def mergeFrom : Nat → Nat → Nat → List (Nat × Nat) → Nodes → Except Fault Nodes
  | 0,_,_,_,_ => malformed
  | fuel + 1,place,index,merged,nodes =>
    let entries := (nodeAt nodes place).entries
    match entries[index]? with
    | none => .ok (if merged.isEmpty then nodes else withEntries nodes place (merged ++ entries))
    | some (key,item) =>
      if (nodeAt nodes key).isMerge then do
        let (more,nodes) ← source fuel item (withEntries nodes place (entries.eraseIdx index))
        mergeFrom fuel place index (merged ++ more) nodes
      else if (nodeAt nodes key).isEquals then mergeFrom fuel place (index + 1) merged (asText nodes key)
      else mergeFrom fuel place (index + 1) merged nodes
termination_by structural fuel => fuel

private def source : Nat → Nat → Nodes → Except Fault (List (Nat × Nat) × Nodes)
  | 0,_,_ => malformed
  | fuel + 1,place,nodes =>
    match (nodeAt nodes place).content with
    | .mapping _ => do
      let nodes ← mergeFrom fuel place 0 [] nodes
      return ((nodeAt nodes place).entries,nodes)
    | .sequence items => sources fuel items nodes
    | .scalar _ => malformed
termination_by structural fuel => fuel

private def sources : Nat → List Nat → Nodes → Except Fault (List (Nat × Nat) × Nodes)
  | 0,_,_ => malformed
  | _ + 1,[],nodes => .ok ([],nodes)
  | fuel + 1,place :: rest,nodes =>
    match (nodeAt nodes place).content with
    | .mapping _ => do
      let nodes ← mergeFrom fuel place 0 [] nodes
      let first := (nodeAt nodes place).entries
      let (others,nodes) ← sources fuel rest nodes
      return (others ++ first,nodes)
    | _ => malformed
termination_by structural fuel => fuel

end

-- How many steps merging in a document can take: every merge key goes away when it is used, and makes a
-- mapping at most as many times longer as the document has parts.
def mergeSteps (nodes : Nodes) : Nat :=
  let parts := nodes.foldl (fun sum node => sum + node.size + 1) 2
  let keys := nodes.foldl
    (fun count node => count + (node.entries.filter fun entry => (nodeAt nodes entry.1).isMerge).length) 2
  Nat.pow parts keys

def mergedAt (nodes : Nodes) (steps place : Nat) : Except Fault Nodes := mergeFrom steps place 0 [] nodes

inductive Shape where
  | scalar (read : String → Except Fault Value)
  | timestamp
  | list
  | map
  | set
  | pairs
  | unknown

private def byKind (kind : Kind) (text : String) : Except Fault Value :=
  match kind with
  | .null => .ok .null
  | .bool => (boolMeaning text).map .bool
  | .int => (integerMeaning text).map .int
  | .float => (floatMeaning text).map .float
  | .timestamp => timestampMeaning text
  | .str => .ok (.str text)
  | .merge | .equals | .mark => malformed

private def coreName? (name : String) : Option String :=
  if Reading.coreTag.toList.isPrefixOf name.toList then
    some (String.ofList (name.toList.drop Reading.coreTag.length))
  else none

private def namedShape (name : String) : Shape :=
  match coreName? name with
  | some "null" => .scalar fun _ => .ok .null
  | some "bool" => .scalar (byKind .bool)
  | some "int" => .scalar (byKind .int)
  | some "float" => .scalar (byKind .float)
  | some "binary" => .scalar fun text => (bytesMeaning text).map .bytes
  | some "timestamp" => .timestamp
  | some "str" => .scalar (byKind .str)
  | some "seq" => .list
  | some "map" => .map
  | some "set" => .set
  | some "omap" => .pairs
  | some "pairs" => .pairs
  | _ => .unknown

def Node.shape (node : Node) : Shape :=
  match node.tag,node.content with
  | .given name,_ => namedShape name
  | .plain,.scalar text => .scalar (byKind (kindOf text))
  | _,.scalar _ => .scalar (byKind .str)
  | _,.sequence _ => .list
  | _,.mapping _ => .map

inductive Sense where
  | scalar (v : Value)
  | list (items : List Nat)
  | map (entries : List (Value × Nat))
  | set (members : List Value)
  | pairs (pairs : List (Nat × Nat))

structure Building where
  nodes : Nodes
  senses : Array (Option Sense)
  met : Array Nat

namespace Building

def ofNodes (nodes : Nodes) : Building := ⟨nodes,Array.replicate nodes.size none,#[]⟩

def senseAt (b : Building) (place : Nat) : Option Sense := (b.senses[place]?).getD none

def settle (place : Nat) (sense : Sense) (b : Building) : Building :=
  { b with senses := b.senses.setIfInBounds place (some sense) }

private def scalarText (nodes : Nodes) : Nat → Nat → Except Fault String
  | 0,_ => .error (.misused .tooDeep)
  | fuel + 1,place =>
    match (nodeAt nodes place).content with
    | .scalar text => .ok text
    | .mapping entries =>
      match entries.find? fun entry => (nodeAt nodes entry.1).isEquals with
      | some entry => scalarText nodes fuel entry.2
      | none => malformed
    | .sequence _ => malformed

private def textAt (b : Building) (place : Nat) : Except Fault String :=
  scalarText b.nodes (b.nodes.size + 1) place

private def momentAt (b : Building) (place : Nat) : Except Fault Value := do
  let text ← b.textAt place
  match (nodeAt b.nodes place).content with
  | .scalar _ => timestampMeaning text
  | _ => .error (.misused .notJoinable)

def meet (b : Building) (place : Nat) : Except Fault Building := do
  match b.senseAt place with
  | some _ => return b
  | none =>
    match (nodeAt b.nodes place).shape with
    | .scalar read => return b.settle place (.scalar (← read (← b.textAt place)))
    | .timestamp => return b.settle place (.scalar (← b.momentAt place))
    | .unknown => malformed
    | _ =>
      let waiting := b.settle place (.list [])
      return { waiting with met := waiting.met.push place }

private def meetEntries :
    List (Nat × Nat) → List (Value × Nat) → Building → Except Fault (List (Value × Nat) × Building)
  | [],known,b => .ok (known,b)
  | (key,item) :: rest,known,b => do
    let b ← b.meet key
    match b.senseAt key with
    | some (.scalar key) =>
      let b ← b.meet item
      meetEntries rest (Value.insert known key item) b
    | _ => malformed

private def mergedEntries (steps place : Nat) (b : Building) :
    Except Fault (List (Value × Nat) × Building) := do
  let nodes ← mergedAt b.nodes steps place
  meetEntries (nodeAt nodes place).entries [] { b with nodes }

private def meetPairs : List Nat → Building → Except Fault (List (Nat × Nat) × Building)
  | [],b => .ok ([],b)
  | place :: rest,b => do
    match (nodeAt b.nodes place).content with
    | .mapping [(key,item)] =>
      let b ← (← b.meet key).meet item
      let (others,b) ← meetPairs rest b
      return ((key,item) :: others,b)
    | _ => malformed

private def whole? : Value → Option Nat
  | .bool b => some (if b then 1 else 0)
  | .int i => if 0 ≤ i then some i.natAbs else none
  | _ => none

private def room (count : Nat) : Nat := if count ≤ 4 then 8 else Binary64.twoTo ((2 * count).log2 + 1)

-- The members of a set. Whole numbers go to the places of their remainders if no two of them fall
-- together; all other members stay as they come.
def members (keys : List Value) : List Value :=
  let places := keys.filterMap fun key => (whole? key).map fun n => (n % room keys.length,key)
  let sorted := places.mergeSort fun a b => a.1 ≤ b.1
  if places.length == keys.length && (places.map (·.1)).Nodup then sorted.map (·.2) else keys

def fill (steps place : Nat) (b : Building) : Except Fault Building := do
  let node := nodeAt b.nodes place
  match node.shape,node.content with
  | .list,.sequence items =>
    let b ← items.foldlM meet b
    return b.settle place (.list items)
  | .map,.mapping _ =>
    let (entries,b) ← mergedEntries steps place b
    return b.settle place (.map entries)
  | .set,.mapping _ =>
    let (entries,b) ← mergedEntries steps place b
    return b.settle place (.set (members (entries.map (·.1))))
  | .pairs,.sequence items =>
    let (pairs,b) ← meetPairs items b
    return b.settle place (.pairs pairs)
  | _,_ => malformed

-- Every node is met once, so the number of nodes is fuel enough.
private def fillFrom (steps : Nat) : Nat → Nat → Building → Except Fault Building
  | 0,_,b => .ok b
  | fuel + 1,index,b =>
    match b.met[index]? with
    | some place => do fillFrom steps fuel (index + 1) (← b.fill steps place)
    | none => .ok b

abbrev Memory := Array (Option Value)

private def valueAt (b : Building) : Nat → Nat → StateM Memory Value
  | 0,_ => pure .null
  | fuel + 1,place => do
    match ((← get)[place]?).getD none with
    | some v => return v
    | none =>
      let v ←
        match b.senseAt place with
        | some (.scalar v) => pure v
        | some (.list items) => do return .list (← items.mapM (valueAt b fuel))
        | some (.map entries) => do
          return .map (← entries.mapM fun entry => do return (entry.1,← valueAt b fuel entry.2))
        | some (.set members) => pure (.set members)
        | some (.pairs pairs) => do
          return .list (← pairs.mapM fun pair => do
            return .tuple [← valueAt b fuel pair.1,← valueAt b fuel pair.2])
        | none => pure .null
      modify fun memory => memory.setIfInBounds place (some v)
      return v

private def numberedIn (outer : List Nat) (number : Nat) (brackets : Brackets) (inner : List Nat → Value) :
    Value :=
  if outer.contains number then .again number brackets else .numbered number (inner (number :: outer))

-- The value at a place of a looped document. The numbers of tuples come after those of all nodes.
private def numberedAt (b : Building) : Nat → List Nat → Nat → Value
  | 0,_,_ => .null
  | fuel + 1,outer,place =>
    match b.senseAt place with
    | some (.scalar v) => v
    | some (.list items) =>
      numberedIn outer place .square fun outer => .list (items.map (numberedAt b fuel outer))
    | some (.map entries) =>
      numberedIn outer place .curly fun outer =>
        .map (entries.map fun entry => (entry.1,numberedAt b fuel outer entry.2))
    | some (.set members) => .set members
    | some (.pairs pairs) =>
      numberedIn outer place .square fun outer =>
        .list (pairs.zipIdx.map fun entry =>
          numberedIn outer (b.nodes.size * (entry.2 + 1) + place) .round fun outer =>
            .tuple [numberedAt b fuel outer entry.1.1,numberedAt b fuel outer entry.1.2])
    | none => .null

end Building

def Graph.value (graph : Graph) : Except Fault Value := do
  let size := graph.nodes.size
  let met ← (Building.ofNodes graph.nodes).meet graph.root
  let b ← Building.fillFrom (mergeSteps graph.nodes) (size + 1) 0 met
  if graph.looped then return Building.numberedAt b (size + 1) [] graph.root
  else return ((Building.valueAt b (size + 1) graph.root).run (Array.replicate size none)).1

def read (source : Source) : Except Fault Value := do
  match ← graphOf source.text source.behind with
  | some graph => graph.value
  | none => return .null

end TypedMvc.Yaml
