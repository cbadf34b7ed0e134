import TypedMvc.Generation
import TypedMvc.Journal
import TypedMvc.Storage
import TypedMvc.Text.Basic
import TypedMvc.Text.Quoted

namespace TypedMvc.CommandLine

inductive Flag where
  | help
  | controllers
  | config
  | output
  | logLevel
  deriving DecidableEq, Repr

def spellings : List (String × Flag) :=
  [("-h",.help),("--help",.help),("--controllers",.controllers),("-c",.controllers),
    ("--config",.config),("--output",.output),("-o",.output),("--log-level",.logLevel)]

def Flag.name (f : Flag) : String :=
  "/".intercalate ((spellings.filter fun entry => entry.2 == f).map (·.1))

-- An option may be spelled by its letter, and what stands behind it in the same argument is attached to it:
-- a value, or more letters.
inductive Argument where
  | value (text : String)
  | option (flag : Flag) (short : Bool) (attached : Option (List Char))
  | unknown (text : String)
  | divider
  deriving DecidableEq, Repr

-- What the options say; the one for the controllers may be given and still have no value.
structure Choice where
  complete : Bool
  controllers : Option String
  config : Option String
  output : Option String
  logLevel : Option String
  deriving DecidableEq, Repr

inductive Reading where
  | chosen (choice : Choice)
  | help
  | refused (message : String)
  deriving Repr

private def isDigit (c : Char) : Bool := (Text.digitValue? c).isSome

-- Negative numbers are values and no options; a line feed may follow the last digit.
private def isNegativeNumber : List Char → Bool
  | '-' :: rest =>
    let whole := rest.takeWhile isDigit
    match rest.dropWhile isDigit with
    | [] => !whole.isEmpty
    | ['\n'] => !whole.isEmpty
    | '.' :: fraction =>
      fraction.any isDigit && [[],['\n']].contains (fraction.dropWhile isDigit)
    | _ => false
  | _ => false

private def splitEquals (cs : List Char) : List Char × Option (List Char) :=
  match cs.span (· != '=') with
  | (before,_ :: after) => (before,some after)
  | (before,[]) => (before,none)

private def spelled (cs : List Char) : Option Flag := spellings.lookup (String.ofList cs)

private def isShort (spelling : List Char) : Bool := spelling.length == 2

private def candidates (cs : List Char) : List (String × Argument) :=
  match cs with
  | '-' :: '-' :: _ =>
    let parts := splitEquals cs
    (spellings.filter fun entry => parts.1.isPrefixOf entry.1.toList).map fun entry =>
      (entry.1,.option entry.2 false parts.2)
  | _ =>
    (spellings.filter fun entry => entry.1.toList == cs.take 2).map fun entry =>
      (entry.1,.option entry.2 true (some (cs.drop 2)))

private def notExact (cs : List Char) : Except String Argument :=
  match candidates cs with
  | [found] => .ok found.2
  | first :: more =>
    .error ("ambiguous option: " ++ String.ofList cs ++ " could match " ++
      ", ".intercalate ((first :: more).map (·.1)))
  | [] =>
    if isNegativeNumber cs || cs.contains ' ' then .ok (.value (String.ofList cs))
    else .ok (.unknown (String.ofList cs))

def classify (argument : String) : Except String Argument :=
  match argument.toList with
  | '-' :: c :: rest =>
    let cs := '-' :: c :: rest
    match spelled cs,splitEquals cs with
    | some flag,_ => .ok (.option flag (isShort cs) none)
    | none,(before,some after) =>
      match spelled before with
      | some flag => .ok (.option flag (isShort before) (some after))
      | none => notExact cs
    | none,_ => notExact cs
  | _ => .ok (.value argument)

def classifyAll : List String → Except String (List Argument)
  | [] => .ok []
  | "--" :: rest => .ok (.divider :: rest.map .value)
  | argument :: rest => do
    let first ← classify argument
    let others ← classifyAll rest
    return first :: others

private def needsValue (flag : Flag) : String := "argument " ++ flag.name ++ ": expected one argument"

private def takesNone (flag : Flag) (value : List Char) : String :=
  "argument " ++ flag.name ++ ": ignored explicit argument " ++ Text.quoted (String.ofList value)

-- Letters behind the one for help: each must be that of an option, although help is all that is given.
private def helpWith (valueFollows : Bool) : List Char → Reading
  | [] => .help
  | letter :: rest =>
    match spelled ['-',letter] with
    | none => .refused (takesNone .help (letter :: rest))
    | some .help => helpWith valueFollows rest
    | some flag => if rest.isEmpty && !valueFollows then .refused (needsValue flag) else .help

def Choice.set (choice : Choice) (flag : Flag) (value : Option String) : Choice :=
  match flag with
  | .help => choice
  | .controllers => { choice with complete := true,controllers := value }
  | .config => { choice with config := value }
  | .output => { choice with output := value }
  | .logLevel => { choice with logLevel := value }

private def dividerText : String := "--"

private def finish (choice : Choice) (extras : List String) : Reading :=
  if !choice.complete then
    .refused ("the following arguments are required: " ++ Flag.controllers.name)
  else if extras.isEmpty then .chosen choice
  else .refused ("unrecognized arguments: " ++ " ".intercalate extras)

private def attachedValue (attached : List Char) : Option String :=
  let text := String.ofList attached
  if text == dividerText then none else some text

-- Works the arguments off from left to right; the values that no option takes are left over.
def readFrom (choice : Choice) (extras : List String) : List Argument → Reading
  | [] => finish choice extras
  | .value text :: rest => readFrom choice (extras ++ [text]) rest
  | .unknown text :: rest => readFrom choice (extras ++ [text]) rest
  | .divider :: rest => readFrom choice (extras ++ [dividerText]) rest
  | .option .help _ none :: _ => .help
  | .option .help short (some attached) :: rest =>
    if short && !attached.isEmpty then
      helpWith (match rest with | .value _ :: _ => true | _ => false) attached
    else .refused (takesNone .help attached)
  | .option flag _ (some attached) :: rest =>
    readFrom (choice.set flag (attachedValue attached)) extras rest
  | .option flag _ none :: .value text :: rest => readFrom (choice.set flag (some text)) extras rest
  | .option flag _ none :: _ => .refused (needsValue flag)

def read (arguments : List String) : Reading :=
  match classifyAll arguments with
  | .error message => .refused message
  | .ok arguments => readFrom ⟨false,none,none,none,none⟩ [] arguments

def toolName : String := "r4gen"

def usage : String :=
  "usage: r4gen [-h] --controllers CONTROLLERS [--config CONFIG]\n" ++
    "             [--output OUTPUT] [--log-level LOG_LEVEL]\n"

def helpText : String :=
  usage ++ "\nGenerate strongly-typed MVC helper classes from controller metadata\n\noptions:\n" ++
    "  -h, --help            show this help message and exit\n" ++
    "  --controllers CONTROLLERS, -c CONTROLLERS\n" ++
    "                        JSON or YAML file with controller metadata\n" ++
    "  --config CONFIG       Settings file (defaults to ./r4mvc.json)\n" ++
    "  --output OUTPUT, -o OUTPUT\n" ++
    "                        Write generated code to this file instead of stdout\n" ++
    "  --log-level LOG_LEVEL\n" ++
    "                        Logging level (DEBUG, INFO, WARNING, ERROR)\n"

def refusal (message : String) : String := usage ++ toolName ++ ": error: " ++ message ++ "\n"

end TypedMvc.CommandLine

namespace TypedMvc.Tool

def version : String := "0.1.0"

inductive Exit where
  | finished (code : Nat)
  | stopped (code : Nat)
  deriving DecidableEq, Repr

structure Outcome where
  exit : Exit
  stdout : String
  stderr : String
  folder : Folder

structure Surroundings where
  folder : Folder
  namespaceOverride : String
  time : String

def loadControllers (folder : Folder) (file : Option String) : Run (List Controller) :=
  match file with
  | some file => Record.load folder file
  | none => Run.fail (.misuse .notJoinable)

def sourceOf (s : Surroundings) (choice : CommandLine.Choice) : Run String := do
  let settings ← Settings.load s.folder s.namespaceOverride choice.config
  let controllers ← loadControllers s.folder choice.controllers
  let target ← Run.settled settings.validate
  Generation.source target (CSharp.Layout.ofSettings settings) controllers

def writeSource (folder : Folder) (file source : String) : Run Folder := do
  let path := Path.ofText file
  match folder.makeDirectory path.parent with
  | .error fault => Run.fail (.file fault)
  | .ok made =>
    match made.write path (Text.encodeUtf8 source) with
    | .error fault => Run.fail (.file fault)
    | .ok written => do
      Run.note (.sourceWritten path.text)
      return written

def outputFile (choice : CommandLine.Choice) : Option String := choice.output.filter (· != "")

def produce (s : Surroundings) (choice : CommandLine.Choice) : Run (String × Folder) := do
  let source ← sourceOf s choice
  match outputFile choice with
  | some file => do
    let folder ← writeSource s.folder file source
    return ("",folder)
  | none => return (source,s.folder)

def defaultWord : String := "WARNING"

def thresholdOf (choice : CommandLine.Choice) : Except Failure Journal.Threshold :=
  Journal.threshold ((choice.logLevel.filter (· != "")).getD defaultWord)

def errorLine (report : Report) : String := "Error: " ++ report.text ++ "\n"

-- Runs the tool for a choice; only a failure that has a report ends in a status.
def execute (s : Surroundings) (choice : CommandLine.Choice) : Except Failure Outcome := do
  let threshold ← thresholdOf choice
  let run := produce s choice
  let shown := Journal.shown threshold s.time (run.notices.map Journal.lineOf)
  match run.outcome with
  | .ok (stdout,folder) => return ⟨.finished 0,stdout,shown,folder⟩
  | .error failure =>
    match failure.report with
    | some report =>
      if report.hasLongNumber then .error .longNumber
      else return ⟨.finished 1,"",shown ++ errorLine report,s.folder⟩
    | none => .error failure

def run (s : Surroundings) (arguments : List String) : Except Failure Outcome :=
  match CommandLine.read arguments with
  | .help => .ok ⟨.stopped 0,CommandLine.helpText,"",s.folder⟩
  | .refused message => .ok ⟨.stopped 2,"",CommandLine.refusal message,s.folder⟩
  | .chosen choice => execute s choice

end TypedMvc.Tool
