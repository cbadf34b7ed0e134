import TypedMvc.Failure
import TypedMvc.Value.Order

namespace TypedMvc

structure Controller where
  name : Value
  ns : Value
  area : Value
  generatedName : Value
  deriving Repr, Inhabited

namespace Controller

def suffix : String := "Controller"

def className (name : String) : String := name ++ suffix

def areaClassName (area : String) : String := area ++ "AreaClass"

def areaMark : String := "Area_"

-- A new controller: no area is the root area, and a controller with a namespace of its own has the
-- generated name of its class there unless another one is given.
def make (name ns area generatedName : Value) : Controller :=
  { name
    ns
    area := if area.isNull then .str "" else area
    generatedName :=
      if ns.truthy && generatedName.isNull && name.truthy then .str (ns.text ++ "." ++ className name.text)
      else generatedName }

def ofTexts (name : String) (ns : Option String) (area : String) (generatedName : Option String) :
    Controller :=
  let optional : Option String → Value
    | some s => .str s
    | none => .null
  ⟨.str name,optional ns,.str area,optional generatedName⟩

def isViewOnly (c : Controller) : Bool := !c.ns.truthy

def isRootArea (c : Controller) : Bool := !c.area.truthy

def areaKey (c : Controller) : Value := c.area.orElse (.str "")

def requireName (c : Controller) : Except Failure Value :=
  if c.name.truthy then .ok c.name else .error (.unnamedController c.area c.ns)

def viewOnlyClassName (c : Controller) : Except Failure String := do
  let name ← c.requireName
  let simple := className (← name.shown)
  if c.area.truthy then return (← c.area.shown) ++ areaMark ++ simple else return simple

def generatedClassName (c : Controller) : Except Failure String :=
  if c.isViewOnly then c.viewOnlyClassName
  else do
    let name ← c.requireName
    return className (← name.shown)

def generatedNamespace (root : Value) (c : Controller) : Except Failure Value :=
  if c.ns.truthy then
    match root,c.ns with
    | .str outer,.str inner => .ok (.str (outer ++ "." ++ inner))
    | _,_ => .error (.misuse .notJoinable)
  else .ok root

def resolve (root : Value) (c : Controller) : Except Failure String := do
  let ns ← c.generatedNamespace root
  let name ← c.generatedClassName
  return ns.text ++ "." ++ name

def existingOrResolved (root : Value) (c : Controller) : Except Failure Value :=
  if c.generatedName.truthy then .ok c.generatedName else (c.resolve root).map .str

def sortKey (c : Controller) : Except Failure (Value × Value) := do
  let name ← c.requireName
  return (c.areaKey,name)

def keyBefore? (a b : Value × Value) : Option Bool :=
  if Value.same a.1 b.1 then
    if Value.same a.2 b.2 then some false else Value.before? a.2 b.2
  else Value.before? a.1 b.1

end Controller

def unorderableFault : Failure := .misuse .unorderable

-- Elements with a key each, sorted by the keys; all keys are taken before any two are compared.
def sortedByKey {α κ : Type} (key : α → Except Failure κ) (before? : κ → κ → Option Bool) (l : List α) :
    Except Failure (List α) := do
  let keyed ← l.mapM fun a => (key a).map fun k => (k,a)
  match sortedBy? (fun (p q : κ × α) => before? p.1 q.1) keyed with
  | some sorted => return sorted.map (·.2)
  | none => .error unorderableFault

-- Elements in groups by key: a group stands where its key first appears and keeps the order of the list.
def groupByKey {α : Type} (key : α → Value) : List α → Except Failure (List (Value × List α))
  | l =>
    if l.all fun a => (key a).hashable then .ok (l.foldl place [])
    else .error (.misuse .unhashable)
where
  place (groups : List (Value × List α)) (a : α) : List (Value × List α) :=
    if groups.any fun group => Value.same group.1 (key a) then
      groups.map fun group => if Value.same group.1 (key a) then (group.1,group.2 ++ [a]) else group
    else groups ++ [(key a,[a])]

def sortedAreas {α : Type} (groups : List (Value × α)) : Except Failure (List Value) :=
  match sortedBy? Value.before? ((groups.map (·.1)).filter Value.truthy) with
  | some areas => .ok areas
  | none => .error unorderableFault

def firstOfNames {α : Type} (controller : α → Controller) :
    List α → List (Value × α) → Except Failure (List (Value × α))
  | [],seen => .ok seen
  | a :: rest,seen => do
    let name ← (controller a).requireName
    if name.hashable then
      if seen.any fun known => Value.same known.1 name then firstOfNames controller rest seen
      else firstOfNames controller rest (seen ++ [(name,a)])
    else .error (.misuse .unhashable)

def uniqueByName {α : Type} (controller : α → Controller) (l : List α) : Except Failure (List α) := do
  let firsts ← firstOfNames controller l []
  match sortedBy? (fun (p q : Value × α) => Value.before? p.1 q.1) firsts with
  | some sorted => return sorted.map (·.2)
  | none => .error unorderableFault

end TypedMvc
