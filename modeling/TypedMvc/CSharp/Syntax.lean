import TypedMvc.Failure
import TypedMvc.Value.Order

namespace TypedMvc.CSharp

def escape : List Char → List Char
  | [] => []
  | c :: rest => if c = '"' ∨ c = '\\' then '\\' :: c :: escape rest else c :: escape rest

def quote (cs : List Char) : List Char := '"' :: (escape cs ++ ['"'])

def stringLiteral (s : String) : String := String.ofList (quote s.toList)

-- A backslash is taken together with the next character, and the first quote that is not taken so is the closing one: the
-- content up to it, and what follows.
def readContent : List Char → Option (List Char × List Char)
  | [] => none
  | '"' :: rest => some ([],rest)
  | '\\' :: c :: rest => (readContent rest).map fun read => (c :: read.1,read.2)
  | ['\\'] => none
  | c :: rest => (readContent rest).map fun read => (c :: read.1,read.2)

def readLiteral : List Char → Option (List Char × List Char)
  | '"' :: rest => readContent rest
  | _ => none

theorem readContent_escape (cs rest : List Char) :
    readContent (escape cs ++ '"' :: rest) = some (cs,rest) := by
  induction cs with
  | nil => rfl
  | cons c cs ih =>
    by_cases special : c = '"' ∨ c = '\\'
    · rcases special with rfl | rfl <;> simp [escape,readContent,ih]
    · have plain : c ≠ '"' ∧ c ≠ '\\' := by simpa using special
      simp [escape,readContent,ih,plain.1,plain.2]

inductive Modifier where
  | publicAccess
  | internalAccess
  | static
  | readOnly
  | partialClass
  deriving DecidableEq, Repr

namespace Modifier

def all : List Modifier := [.publicAccess,.internalAccess,.static,.readOnly,.partialClass]

def word : Modifier → String
  | .publicAccess => "public"
  | .internalAccess => "internal"
  | .static => "static"
  | .readOnly => "readonly"
  | .partialClass => "partial"

def ofWord? (w : String) : Option Modifier := all.find? fun m => m.word == w

def ordered (wanted : List Modifier) : List Modifier := all.filter wanted.contains

end Modifier

structure Parameter where
  name : String
  type : String
  default : Option String
  deriving DecidableEq, Repr

structure Field where
  name : Value
  type : Value
  modifiers : List Modifier
  initializer : Option String
  deriving Repr

structure Property where
  name : Value
  type : Value
  modifiers : List Modifier
  readOnly : Bool
  deriving Repr

structure Constructor where
  parameters : List Parameter
  modifiers : List Modifier
  baseArguments : Option (List String)
  body : List String
  deriving DecidableEq, Repr

inductive Member where
  | field (f : Field)
  | property (p : Property)
  | constructor (c : Constructor)
  deriving Repr

namespace Member

def fieldOf (name type : Value) (modifiers : List Modifier) (initializer : Option String) : Member :=
  .field ⟨name,type,Modifier.ordered modifiers,initializer⟩

def propertyOf (name type : Value) (modifiers : List Modifier) (readOnly : Bool) : Member :=
  .property ⟨name,type,Modifier.ordered modifiers,readOnly⟩

def constructorOf (parameters : List Parameter) (modifiers : List Modifier)
    (baseArguments : Option (List String)) (body : List String) : Member :=
  .constructor ⟨parameters,Modifier.ordered modifiers,baseArguments,body⟩

def name? : Member → Option Value
  | field f => if f.name.isNull then none else some f.name
  | property p => if p.name.isNull then none else some p.name
  | constructor _ => none

end Member

structure ClassDef where
  identifier : String
  ns : String
  modifiers : List Modifier
  baseTypes : List String
  attributes : List String
  members : List Member
  deriving Repr

namespace ClassDef

def make (identifier ns : String) (modifiers : List Modifier) (baseTypes attributes : List String)
    (members : List Member) : Except Failure ClassDef :=
  if identifier = "" then .error .emptyIdentifier
  else .ok ⟨identifier,ns,Modifier.ordered modifiers,baseTypes,attributes,members⟩

def fields (c : ClassDef) : List Field :=
  c.members.filterMap fun | .field f => some f | _ => none

def properties (c : ClassDef) : List Property :=
  c.members.filterMap fun | .property p => some p | _ => none

def constructors (c : ClassDef) : List Constructor :=
  c.members.filterMap fun | .constructor k => some k | _ => none

def hasModifiers (c : ClassDef) (modifiers : List Modifier) : Bool :=
  modifiers.all c.modifiers.contains

end ClassDef

namespace Constructor

def isPublic (c : Constructor) : Bool := c.modifiers.contains .publicAccess

def arity (c : Constructor) : Nat := c.parameters.length

end Constructor

-- The first member whose name occurred before, among the names seen and the members passed.
def checkMembersFrom (identifier ns : String) : List Value → List Member → Except Failure Unit
  | _,[] => .ok ()
  | seen,member :: rest =>
    match member.name? with
    | none => checkMembersFrom identifier ns seen rest
    | some name =>
      if !name.hashable then .error (.misuse .unhashable)
      else if seen.any fun known => Value.same known name then
        .error (.duplicateMember name identifier ns)
      else checkMembersFrom identifier ns (name :: seen) rest

def checkMembers (identifier ns : String) (members : List Member) : Except Failure Unit :=
  checkMembersFrom identifier ns [] members

def checkClassesFrom : List (String × String) → List ClassDef → Except Failure Unit
  | _,[] => .ok ()
  | seen,c :: rest =>
    if seen.contains (c.ns,c.identifier) then .error (.duplicateClass c.identifier c.ns)
    else checkClassesFrom ((c.ns,c.identifier) :: seen) rest

def checkClasses (classes : List ClassDef) : Except Failure Unit := checkClassesFrom [] classes

def wanted (identifier : String) (ns : Option String) (c : ClassDef) : Bool :=
  c.identifier == identifier && (match ns with | some n => c.ns == n | none => true)

def findClass? (classes : List ClassDef) (identifier : String) (ns : Option String) : Option ClassDef :=
  classes.find? (wanted identifier ns)

-- Elements by the namespaces of their classes, which stand in order of first appearance.
def byNamespaceOf {α : Type} (classOf : α → ClassDef) (l : List α) : List (String × List α) :=
  l.foldl place []
where
  place (groups : List (String × List α)) (a : α) : List (String × List α) :=
    if groups.any fun group => group.1 == (classOf a).ns then
      groups.map fun group => if group.1 == (classOf a).ns then (group.1,group.2 ++ [a]) else group
    else groups ++ [((classOf a).ns,[a])]

def byNamespace (classes : List ClassDef) : List (String × List ClassDef) := byNamespaceOf id classes

end TypedMvc.CSharp
