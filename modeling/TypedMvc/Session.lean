import TypedMvc.Generation

namespace TypedMvc

open CSharp

def Controller.ofArguments (arguments : List (Value × Value)) : Except Failure Controller :=
  let known := ["name","namespace","area","fully_qualified_generated_name"]
  let get (name : String) : Option Value := Value.lookup (.str name) arguments
  match get "name" with
  | some name =>
    if arguments.all fun argument => known.contains argument.1.text then
      .ok (.make name ((get "namespace").getD .null) ((get "area").getD (.str ""))
        ((get "fully_qualified_generated_name").getD .null))
    else .error (.misuse .badArguments)
  | none => .error (.misuse .badArguments)

-- Puts a value into a field as it is. Fields that follow from others cannot be set, and what is no field
-- of a controller changes nothing.
def Controller.assign (c : Controller) (field : String) (v : Value) : Except Failure Controller :=
  match field with
  | "name" => .ok { c with name := v }
  | "namespace" => .ok { c with ns := v }
  | "area" => .ok { c with area := v }
  | "fully_qualified_generated_name" => .ok { c with generatedName := v }
  | "is_view_only" | "is_root_area" => .error (.misuse .readOnlyField)
  | _ => .ok c

structure Service where
  settings : Settings
  target : Target

def Service.ofSettings (s : Settings) : Except Failure Service :=
  s.validate.map fun target => ⟨s,target⟩

def Service.layout (s : Service) : Except Failure Layout := Layout.ofSettings s.settings

namespace Session

inductive Step where
  | add (arguments : List (Value × Value))
  | assign (index : Int) (field : String) (v : Value)
  | remove (index : Int)
  | reverse
  | settings (arguments : List (Value × Value))
  | resolve (index : Int)
  | viewOnly
  | areas
  | helper
  | generate
  | render
  | source
  deriving Repr

inductive Answer where
  | nothing
  | text (s : String)
  | classes (l : List ClassDef)
  | fields (l : List ClassDef)
  | helper (c : ClassDef)

structure State where
  controllers : List Controller
  service : Service
  remembered : Option (List ClassDef)

def position? (length : Nat) (index : Int) : Option Nat :=
  if 0 ≤ index then (if index < length then some index.toNat else none)
  else if -(length : Int) ≤ index then some (length + index).toNat
  else none

def atIndex (s : State) (index : Int) : Except Failure (Nat × Controller) :=
  match position? s.controllers.length index with
  | some position =>
    match s.controllers[position]? with
    | some c => .ok (position,c)
    | none => .error (.misuse .noSuchPosition)
  | none => .error (.misuse .noSuchPosition)

-- A change of the state that is not made at all if it fails.
def change (s : State) (next : Except Failure State) : Run Answer × State :=
  match next with
  | .ok s => (Run.value .nothing,s)
  | .error failure => (Run.fail failure,s)

-- A call on the controllers: what it wrote stays, also if it fails.
def call (s : State) (run : Run α) (answer : α → Answer) : Run Answer × State :=
  (run >>= fun a => pure (answer a),{ s with controllers := written run.trace s.controllers })

def resolveAt (s : State) (index : Int) : Run String := do
  let (position,c) ← Run.settled (atIndex s index)
  let name ← Run.settled (c.resolve (.str s.service.target.root))
  Run.name position name
  return name

def rendered (s : State) : Run String := do
  let layout ← Run.settled s.service.layout
  match s.remembered with
  | some classes => Run.settled (printFile layout classes)
  | none => Run.fail (.misuse .nothingRemembered)

def step (s : State) : Step → Run Answer × State
  | .add arguments =>
    change s ((Controller.ofArguments arguments).map fun c => { s with controllers := s.controllers ++ [c] })
  | .assign index field v =>
    change s do
      let (position,c) ← atIndex s index
      let c ← c.assign field v
      return { s with controllers := s.controllers.set position c }
  | .remove index =>
    change s do
      let (position,_) ← atIndex s index
      return { s with controllers := s.controllers.eraseIdx position }
  | .reverse => change s (.ok { s with controllers := s.controllers.reverse })
  | .settings arguments =>
    change s do
      let settings ← Settings.ofArguments arguments
      let service ← Service.ofSettings settings
      return { s with service }
  | .resolve index => call s (resolveAt s index) .text
  | .viewOnly => call s (Generation.placeholderClasses s.service.target s.controllers) .classes
  | .areas => call s (Generation.areaClasses s.service.target s.controllers) .fields
  | .helper => call s (Generation.helpersClass s.service.target s.controllers) .helper
  | .generate =>
    let run := Generation.generate s.service.target s.controllers
    let result := call s run .classes
    match run.outcome with
    | .ok classes => (result.1,{ result.2 with remembered := some classes })
    | .error _ => result
  | .render => call s (rendered s) .text
  | .source => call s (Generation.source s.service.target s.service.layout s.controllers) .text

def run (s : State) : List Step → List (Run Answer × State)
  | [] => []
  | first :: rest => step s first :: run (step s first).2 rest

end Session
end TypedMvc
