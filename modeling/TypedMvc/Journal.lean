import TypedMvc.Folder
import TypedMvc.Run
import TypedMvc.Text.Basic

namespace TypedMvc.Journal

-- The least level that is shown, by its number. Without a number of its own a journal shows warnings.
structure Threshold where
  number : Nat
  deriving DecidableEq, Repr

namespace Threshold

def ofLevel (level : Level) : Threshold := ⟨level.rank⟩

def unset : Threshold := ⟨0⟩

def effective (t : Threshold) : Nat := if t.number = 0 then Level.warning.rank else t.number

def shows (t : Threshold) (level : Level) : Bool := t.effective ≤ level.rank

end Threshold

def defaultWord : String := "INFO"

def levelVariable : String := "R4GEN_LOG_LEVEL"

def thresholdOf? (word : String) : Option Threshold :=
  match word with
  | "DEBUG" => some (.ofLevel .debug)
  | "INFO" => some (.ofLevel .info)
  | "WARN" | "WARNING" => some (.ofLevel .warning)
  | "ERROR" => some (.ofLevel .error)
  | "CRITICAL" | "FATAL" => some (.ofLevel .critical)
  | "NOTSET" => some .unset
  | _ => none

def plainLayout : String := "%(levelname)s:%(name)s:%(message)s"

-- The threshold of a word in any case. Two words name other things than levels and are refused.
def threshold (word : String) : Except Failure Threshold :=
  let capital := Text.capitals word
  match thresholdOf? capital with
  | some t => .ok t
  | none =>
    if capital = "BASIC_FORMAT" then .error (.unknownLevel plainLayout)
    else if capital = "_STYLES" then .error (.misuse .noSuchLogLevel)
    else .ok (.ofLevel .info)

structure Line where
  origin : String
  level : Level
  message : String
  deriving DecidableEq, Repr

def lineOf (notice : Notice) : Line := ⟨notice.origin,notice.level,notice.message⟩

def lineText (time : String) (line : Line) : String :=
  time ++ " - " ++ line.origin ++ " - " ++ line.level.word ++ " - " ++ line.message ++ "\n"

def shown (t : Threshold) (time : String) (lines : List Line) : String :=
  String.join ((lines.filter fun line => t.shows line.level).map (lineText time))

inductive Outlet where
  | console
  | file
  deriving DecidableEq, Repr

inductive Sink where
  | own (outlet : Outlet)
  | foreign (name : String)
  deriving DecidableEq, Repr

structure Handler where
  sink : Sink
  threshold : Threshold
  deriving DecidableEq, Repr

structure Logger where
  threshold : Threshold
  handlers : List Handler
  propagates : Bool
  deriving DecidableEq, Repr

def wordOf (given environment : Option String) : String := given.getD (environment.getD defaultWord)

namespace Logger

def fresh : Logger := ⟨.unset,[],true⟩

def detached (l : Logger) (h : Handler) : Logger := { l with handlers := l.handlers.erase h }

def cleared (l : Logger) : Logger := l.handlers.foldl detached l

def attached (l : Logger) (outlet : Outlet) : Logger :=
  { l with handlers := l.handlers ++ [⟨.own outlet,l.threshold⟩] }

def outlets (l : Logger) : List Outlet :=
  l.handlers.filterMap fun h =>
    match h.sink with
    | .own outlet => some outlet
    | .foreign _ => none

-- Sets a logger up, whatever it has been before. A refused word leaves it alone, and a file that cannot be
-- opened leaves it with the console only and passing lines on as before. A file that does not exist is made.
def setUp (l : Logger) (folder : Folder) (given environment file : Option String) :
    Except Failure Unit × Logger × Folder :=
  match Journal.threshold (wordOf given environment) with
  | .error failure => (.error failure,l,folder)
  | .ok t =>
    let shown := ({ l with threshold := t } : Logger).cleared.attached .console
    match file.filter (· != "") with
    | none => (.ok (),{ shown with propagates := false },folder)
    | some file =>
      match folder.append (Path.ofText file).collapsed [] with
      | .error fault => (.error (.file fault),shown,folder)
      | .ok folder => (.ok (),{ shown.attached .file with propagates := false },folder)

end Logger

structure Setup where
  threshold : Threshold
  outlets : List Outlet
  deriving Repr

def setup (folder : Folder) (given environment file : Option String) : Except Failure (Setup × Folder) :=
  match Logger.fresh.setUp folder given environment file with
  | (.ok (),l,folder) => .ok (⟨l.threshold,l.outlets⟩,folder)
  | (.error failure,_,_) => .error failure

def record (s : Setup) (folder : Folder) (file : Option String) (time : String) (lines : List Line) :
    String × Folder :=
  let text := shown s.threshold time lines
  if s.outlets.contains .file then
    match folder.append (Path.ofText (file.getD "")).collapsed (Text.encodeUtf8 text) with
    | .ok folder => (text,folder)
    | .error _ => (text,folder)
  else (text,folder)

end TypedMvc.Journal
