import TypedMvc.Controller
import TypedMvc.Failure
import TypedMvc.Text.Case

namespace TypedMvc

inductive Level where
  | debug
  | info
  | warning
  | error
  | critical
  deriving DecidableEq, Repr

namespace Level

def word : Level → String
  | debug => "DEBUG"
  | info => "INFO"
  | warning => "WARNING"
  | error => "ERROR"
  | critical => "CRITICAL"

def rank : Level → Nat
  | debug => 10
  | info => 20
  | warning => 30
  | error => 40
  | critical => 50

def all : List Level := [debug,info,warning,error,critical]

end Level

inductive Notice where
  | generationStarted (root : String) (count : Int)
  | viewOnlyClass (identifier generatedName : String)
  | duplicateSkipped (area name : Value)
  | areaClass (identifier : String) (count : Int)
  | generationComplete (count : Int)
  | settingsMissing (path : String)
  | settingsUnreadable (path : String) (cause : ReadFault)
  | settingsLoaded (path : String)
  | settingsSaved (path : String)
  | controllersLoaded (count : Int) (path : String)
  | sourceWritten (path : String)
  deriving Repr

namespace Notice

def level : Notice → Level
  | viewOnlyClass .. | duplicateSkipped .. | areaClass .. => .debug
  | settingsMissing .. => .warning
  | settingsUnreadable .. => .error
  | _ => .info

def counted (count : Int) : String := " (" ++ Text.integerText count ++ " controllers)"

def message : Notice → String
  | generationStarted root count => "Starting generation into '" ++ root ++ "'" ++ counted count
  | viewOnlyClass identifier generatedName => "View-only controller " ++ identifier ++ " -> " ++ generatedName
  | duplicateSkipped area name =>
    "Skipped duplicate view-only controller '" ++ name.text ++ "' in " ++
      (if area.truthy then "area '" ++ area.text ++ "'" else "root area")
  | areaClass identifier count => "Area class " ++ identifier ++ counted count
  | generationComplete count => "Generation complete: " ++ Text.integerText count ++ " classes"
  | settingsMissing path => "Settings file " ++ path ++ " not found, using defaults"
  | settingsUnreadable path cause => "Failed to load settings from " ++ path ++ ": " ++ cause.message
  | settingsLoaded path => "Loaded settings from " ++ path
  | settingsSaved path => "Settings saved to " ++ path
  | controllersLoaded count path =>
    "Loaded " ++ Text.integerText count ++ " controllers from " ++ path
  | sourceWritten path => "Wrote generated code to " ++ path

def rootName : String := "r4gen"

def qualified (name : String) : String :=
  if name = rootName ∨ (rootName ++ ".").toList.isPrefixOf name.toList then name
  else rootName ++ "." ++ name

def origin : Notice → String
  | generationStarted .. | generationComplete .. => "r4gen.codegen.service"
  | viewOnlyClass .. | duplicateSkipped .. => "r4gen.codegen.generators.view_only"
  | areaClass .. => "r4gen.codegen.generators.areas"
  | settingsMissing .. | settingsUnreadable .. | settingsLoaded .. | settingsSaved .. => "r4gen.utils.config"
  | controllersLoaded .. => "r4gen.codegen.metadata"
  | sourceWritten .. => "r4gen.cli"

end Notice

inductive Event where
  | named (position : Nat) (name : String)
  | noted (notice : Notice)
  deriving Repr

-- What a run did before it ended stays done, also if it failed: the names that it wrote and the notices that it gave.
structure Run (α : Type) where
  outcome : Except Failure α
  trace : List Event

namespace Run

def settled (outcome : Except Failure α) : Run α := ⟨outcome,[]⟩

def value (a : α) : Run α := settled (.ok a)

def fail (failure : Failure) : Run α := settled (.error failure)

def event (e : Event) : Run Unit := ⟨.ok (),[e]⟩

def note (notice : Notice) : Run Unit := event (.noted notice)

def name (position : Nat) (generatedName : String) : Run Unit := event (.named position generatedName)

-- A failure ends the run: what was to follow leaves no trace.
def andThen (r : Run α) (next : α → Run β) : Run β :=
  match r.outcome with
  | .ok a => ⟨(next a).outcome,r.trace ++ (next a).trace⟩
  | .error failure => ⟨.error failure,r.trace⟩

instance : Monad Run where
  pure := value
  bind := andThen

@[simp] theorem pure_outcome (a : α) : (pure a : Run α).outcome = .ok a := rfl

@[simp] theorem pure_trace (a : α) : (pure a : Run α).trace = [] := rfl

theorem bind_of_ok {r : Run α} {a : α} (next : α → Run β) (ended : r.outcome = .ok a) :
    r >>= next = ⟨(next a).outcome,r.trace ++ (next a).trace⟩ := by
  show andThen r next = _
  simp [andThen,ended]

theorem bind_of_error {r : Run α} {failure : Failure} (next : α → Run β)
    (ended : r.outcome = .error failure) : r >>= next = ⟨.error failure,r.trace⟩ := by
  show andThen r next = _
  simp [andThen,ended]

def notices (r : Run α) : List Notice :=
  r.trace.filterMap fun | .noted notice => some notice | .named .. => none

end Run

def Event.applied (controllers : List Controller) : Event → List Controller
  | .named position name => controllers.modify position fun c => { c with generatedName := .str name }
  | .noted _ => controllers

def written (trace : List Event) (controllers : List Controller) : List Controller :=
  trace.foldl Event.applied controllers

@[simp] theorem written_nil (controllers : List Controller) : written [] controllers = controllers := rfl

@[simp] theorem written_cons (e : Event) (rest : List Event) (controllers : List Controller) :
    written (e :: rest) controllers = written rest (e.applied controllers) := rfl

theorem written_append (first second : List Event) (controllers : List Controller) :
    written (first ++ second) controllers = written second (written first controllers) := by
  simp [written,List.foldl_append]

@[simp] theorem length_written (trace : List Event) (controllers : List Controller) :
    (written trace controllers).length = controllers.length := by
  induction trace generalizing controllers with
  | nil => rfl
  | cons e rest ih => cases e <;> simp [ih,Event.applied]

end TypedMvc
