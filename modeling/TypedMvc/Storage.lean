import TypedMvc.Failure
import TypedMvc.Folder
import TypedMvc.Json.Reader
import TypedMvc.Json.Writer
import TypedMvc.Run
import TypedMvc.Settings
import TypedMvc.Yaml.Cursor
import TypedMvc.Yaml.Document
import TypedMvc.Yaml.Writer

namespace TypedMvc.Document

-- A document that cannot be read, or one at which the parser breaks off with a fault of its own: its tags ask for the
-- impossible, or it is nested too deep.
inductive Problem where
  | unreadable (cause : ReadFault)
  | misused (fault : Fault)
  deriving Repr

def yamlProblem : Yaml.Fault → Problem
  | .encoding fault => .unreadable (.encoding fault)
  | .malformed => .unreadable .yaml
  | .noValue message => .unreadable (.unreadable message)
  | .misused fault => .misused fault

def jsonProblem (text : List Char) (fault : Json.Fault) : Problem :=
  match fault.problem with
  | .tooDeep => .misused .tooDeep
  | _ => .unreadable (.json (fault.message text))

def readYaml (content : List UInt8) : Except Problem Value :=
  (Yaml.read (Yaml.Source.ofBytes content)).mapError yamlProblem

def readJson (content : List UInt8) : Except Problem Value :=
  match Text.decodeUtf8 content with
  | .error fault => .error (.unreadable (.encoding fault))
  | .ok text =>
    let text := Text.universalNewlines text.toList
    (Json.read text).mapError (jsonProblem text)

def read (folder : Folder) (path : Path) : Except Problem Value :=
  match folder.read path with
  | .error fault => .error (.unreadable (.file fault))
  | .ok content => if path.isYaml then readYaml content else readJson content

end TypedMvc.Document

namespace TypedMvc.Settings

def pathOf (folder : Folder) (file : Option String) : Path :=
  match file with
  | some text => if text = "" then ⟨folder.location,[defaultFile]⟩ else .ofText text
  | none => ⟨folder.location,[defaultFile]⟩

def blamed (path : Path) : Failure → Failure
  | .setting fault _ => .setting fault (some path.text)
  | failure => failure

def overridden (environment : String) (s : Settings) : Run Settings :=
  Run.settled (s.override environment)

-- The settings of a file that has been read; null stands for a mapping without entries.
def ofDocument (path : Path) (environment : String) (data : Value) : Run Settings := do
  let mapping := if data.isNull then .map [] else data.opened
  match mapping with
  | .map _ => do
    let s ← Run.settled ((ofValue mapping).mapError (blamed path))
    Run.note (.settingsLoaded path.text)
    overridden environment s
  | _ => Run.fail (.settingsShape path.text)

-- A missing file gives the defaults. The environment goes before the file, but only after what the file gives is accepted.
def load (folder : Folder) (environment : String) (file : Option String) : Run Settings := do
  let path := pathOf folder file
  match folder.exists? path with
  | .error fault => Run.fail (.file fault)
  | .ok false => do
    Run.note (.settingsMissing path.text)
    overridden environment default
  | .ok true =>
    match Document.read folder path with
    | .error (.unreadable cause) => do
      Run.note (.settingsUnreadable path.text cause)
      Run.fail (.settingsUnreadable cause path.text)
    | .error (.misused fault) => Run.fail (.misuse fault)
    | .ok data => ofDocument path environment data

def saved (yaml : Bool) (s : Settings) : String :=
  if yaml then Yaml.document s.toValue else Json.document s.toValue

def save (folder : Folder) (s : Settings) (file : String) : Run Folder := do
  let path := Path.ofText file
  match folder.write path (Text.encodeUtf8 (saved path.isYaml s)) with
  | .error fault => Run.fail (.file fault)
  | .ok folder => do
    Run.note (.settingsSaved path.text)
    return folder

end TypedMvc.Settings

namespace TypedMvc.Record

def controller (record : Value) : Except Failure Controller :=
  match record.opened with
  | .map entries =>
    let field (name : String) : Value := (Value.lookup (.str name) entries).getD .null
    if (field "name").truthy then do
      let name ← (field "name").shown
      let ns := (field "namespace").orElse .null
      let _ ← ns.shown
      return .make (.str name) ns ((field "area").orElse (.str "")) .null
    else .error (.unnamedRecord (field "area") (field "namespace"))
  | other => .error (.recordKind other.kind)

def controllers (records : Value) : Except Failure (List Controller) :=
  match Settings.parts? records with
  | some parts => parts.mapM controller
  | none => .error (.misuse .notIterable)

def listOf? (data : Value) : Option (List Value) :=
  let list :=
    match data.opened with
    | .map entries => (Value.lookup (.str "controllers") entries).getD (.list [])
    | _ => data
  match list.opened with
  | .list records => some records
  | _ => none

def load (folder : Folder) (file : String) : Run (List Controller) := do
  let path := Path.ofText file
  match Document.read folder path with
  | .error (.unreadable cause) => Run.fail (.metadataUnreadable cause path.text)
  | .error (.misused fault) => Run.fail (.misuse fault)
  | .ok data =>
    match listOf? data with
    | none => Run.fail (.metadataShape path.text)
    | some records => do
      let controllers ← Run.settled (records.mapM controller)
      Run.note (.controllersLoaded controllers.length path.text)
      return controllers

end TypedMvc.Record
