import TypedMvc.CSharp.Printer
import TypedMvc.CSharp.Syntax
import TypedMvc.Run
import TypedMvc.Settings

namespace TypedMvc.Synthesis

open CSharp

def generatedCodeMarks : List String :=
  ["GeneratedCode(\"" ++ "R4Mvc" ++ "\", \"" ++ "1.0" ++ "\")","DebuggerNonUserCode"]

-- Only texts can be quoted. Bytes and dates can have parts replaced as well, but not by texts.
def literalOf (v : Value) : Except Failure String :=
  match v with
  | .str s => .ok (stringLiteral s)
  | .bytes _ | .date _ | .moment _ => .error (.misuse .notJoinable)
  | _ => .error (.misuse .notText)

def textField (name : String) (v : Value) : Except Failure Member :=
  (literalOf v).map fun literal =>
    .fieldOf (.str name) (.str "string") [.publicAccess,.readOnly] (some literal)

def instanceField (name type : Value) (isStatic : Bool) : Member :=
  .fieldOf name type ([.publicAccess,.readOnly] ++ if isStatic then [.static] else [])
    (some ("new " ++ type.text ++ "()"))

def markedClass (identifier ns : String) (modifiers : List Modifier) (baseTypes : List String)
    (members : List Member) : Except Failure ClassDef := do
  checkMembers identifier ns members
  ClassDef.make identifier ns modifiers baseTypes generatedCodeMarks members

def placeholderClass (root identifier : String) (c : Controller) : Except Failure ClassDef := do
  let name ← textField "Name" c.name
  let area ← if c.area.truthy then (textField "Area" c.area).map ([·]) else .ok []
  markedClass identifier root [.publicAccess,.partialClass] []
    (.constructorOf [] [.publicAccess] none [] :: name :: area)

def sameKey (a b : Value × Value) : Bool := Value.same a.1 b.1 && Value.same a.2 b.2

-- The candidates that are left, with the keys of those that have a class: each of them gets a name, but only the first one
-- of an area and a name gets a class.
def placeholdersFrom (root : String) :
    List (Value × Value) → List (Controller × Nat) → Run (List ClassDef)
  | _,[] => pure []
  | seen,(c,position) :: rest => do
    let generatedName ← Run.settled (c.resolve (.str root))
    Run.name position generatedName
    let key := (c.area,c.name)
    if !(c.area.hashable && c.name.hashable) then Run.fail (.misuse .unhashable)
    else if seen.any (sameKey key) then do
      Run.note (.duplicateSkipped c.area c.name)
      placeholdersFrom root seen rest
    else do
      let identifier ← Run.settled c.viewOnlyClassName
      let made ← Run.settled (placeholderClass root identifier c)
      Run.note (.viewOnlyClass identifier generatedName)
      let others ← placeholdersFrom root (key :: seen) rest
      return made :: others

def candidates (controllers : List (Controller × Nat)) : Except Failure (List (Controller × Nat)) :=
  sortedByKey (fun p => p.1.sortKey) Controller.keyBefore? (controllers.filter fun p => p.1.isViewOnly)

def placeholders (root : String) (controllers : List (Controller × Nat)) : Run (List ClassDef) := do
  let sorted ← Run.settled (candidates controllers)
  placeholdersFrom root [] sorted

-- Controllers by area; a position says where a generated name is written.
abbrev Grouping := List (Value × List (Controller × Nat))

def byArea (controllers : List (Controller × Nat)) : Except Failure Grouping :=
  groupByKey (fun p => p.1.areaKey) controllers

def groupOf (key : Value) (groups : Grouping) : List (Controller × Nat) :=
  ((groups.find? fun group => Value.same group.1 key).map (·.2)).getD []

def instanceFieldOf (root : String) (isStatic : Bool) (p : Controller × Nat) : Run Member := do
  if p.1.generatedName.truthy then return instanceField p.1.name p.1.generatedName isStatic
  else do
    let resolved ← Run.settled (p.1.resolve (.str root))
    Run.name p.2 resolved
    return instanceField p.1.name (.str resolved) isStatic

def instanceFields (root : String) (isStatic : Bool) : List (Controller × Nat) → Run (List Member)
  | [] => pure []
  | p :: rest => do
    let field ← instanceFieldOf root isStatic p
    let fields ← instanceFields root isStatic rest
    return field :: fields

def areaClass (root : String) (area : Value) (controllers : List (Controller × Nat)) : Run ClassDef := do
  let chosen ← Run.settled (uniqueByName (·.1) controllers)
  let name ← Run.settled (textField "Name" area)
  let fields ← instanceFields root false chosen
  let identifier := Controller.areaClassName area.text
  let made ← Run.settled (markedClass identifier root [.publicAccess,.partialClass] [] (name :: fields))
  Run.note (.areaClass identifier chosen.length)
  return made

def areaClassesFrom (root : String) (groups : Grouping) : List Value → Run (List ClassDef)
  | [] => pure []
  | area :: rest => do
    let made ← areaClass root area (groupOf area groups)
    let others ← areaClassesFrom root groups rest
    return made :: others

def areaClasses (root : String) (groups : Grouping) : Run (List ClassDef) := do
  let areas ← Run.settled (sortedAreas groups)
  areaClassesFrom root groups areas

def areaField (root : String) (area : Value) : Member :=
  instanceField area (.str (root ++ "." ++ Controller.areaClassName area.text)) true

def helpersClass (target : Target) (groups : Grouping) : Run ClassDef := do
  let areas ← Run.settled (sortedAreas groups)
  let chosen ← Run.settled (uniqueByName (·.1) (groupOf (.str "") groups))
  let fields ← instanceFields target.root true chosen
  Run.settled (markedClass target.helpers "" [.publicAccess,.static,.partialClass] []
    (areas.map (areaField target.root) ++ fields))

def wrapperParameters : List Parameter :=
  [⟨"area","string",none⟩,⟨"controller","string",none⟩,⟨"action","string",none⟩,
    ⟨"protocol","string",some "null"⟩]

def wrapperProperties : List Member :=
  [("string","Controller"),("string","Action"),("string","Protocol"),
    ("RouteValueDictionary","RouteValueDictionary")].map fun entry =>
      .propertyOf (.str entry.2) (.str entry.1) [.publicAccess] false

def wrapperClass (root identifier baseType : String) (baseArguments : Option (List String)) : ClassDef :=
  let body := "this.InitMVCT4Result(" ++ ", ".intercalate (wrapperParameters.map (·.name)) ++ ");"
  ⟨identifier,root,[.internalAccess,.partialClass],[baseType,"IR4MvcActionResult"],generatedCodeMarks,
    .constructorOf wrapperParameters [.publicAccess] baseArguments [body] :: wrapperProperties⟩

def actionResultClass (root : String) : ClassDef :=
  wrapperClass root "R4Mvc_Microsoft_AspNetCore_Mvc_ActionResult" "ActionResult" none

def jsonResultClass (root : String) : ClassDef :=
  wrapperClass root "R4Mvc_Microsoft_AspNetCore_Mvc_JsonResult" "JsonResult" (some ["null"])

def wrappers (root : String) : List ClassDef := [actionResultClass root,jsonResultClass root]

end TypedMvc.Synthesis

namespace TypedMvc.Generation

open CSharp Synthesis

def placeholderClasses (target : Target) (controllers : List Controller) : Run (List ClassDef) :=
  placeholders target.root controllers.zipIdx

def areaClasses (target : Target) (controllers : List Controller) : Run (List ClassDef) := do
  let groups ← Run.settled (byArea controllers.zipIdx)
  Synthesis.areaClasses target.root groups

def helpersClass (target : Target) (controllers : List Controller) : Run ClassDef := do
  let groups ← Run.settled (byArea controllers.zipIdx)
  Synthesis.helpersClass target groups

-- A stage followed by another one on the controllers as the first one left them.
def sequenced (controllers : List Controller) (first : List Controller → Run α)
    (next : α → List Controller → Run β) : Run β :=
  let done := first controllers
  done >>= fun a => next a (written done.trace controllers)

def generate (target : Target) (controllers : List Controller) : Run (List ClassDef) := do
  Run.note (.generationStarted target.root controllers.length)
  sequenced controllers (placeholderClasses target) fun viewOnly controllers =>
    sequenced controllers (areaClasses target) fun areas controllers => do
      let helpers ← helpersClass target controllers
      let classes := viewOnly ++ areas ++ helpers :: wrappers target.root
      Run.settled (checkClasses classes)
      Run.note (.generationComplete classes.length)
      return classes

def source (target : Target) (layout : Except Failure Layout) (controllers : List Controller) :
    Run String := do
  let classes ← generate target controllers
  let layout ← Run.settled layout
  Run.settled (printFile layout classes)

end TypedMvc.Generation
