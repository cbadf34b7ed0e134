import Std.Time.Format
import TypedMvc.Tool

namespace TypedMvc.Program

private def lookAt (name : String) : IO (Option Entry) := do
  try
    let content ← IO.FS.readBinFile name
    return some (.file content.toList)
  catch fault =>
    match fault with
    | .noFileOrDirectory .. => return none
    | .inappropriateType .. => return some .directory
    | other => throw other

private def observePart (path : Path) (folder : Folder) (shorter : Nat) : IO Folder := do
  let part : Path := { path with parts := path.parts.take (shorter + 1) }
  match folder.locate part with
  | .error _ => return folder
  | .ok place =>
    match ← lookAt part.text with
    | some entry => return folder.put place entry
    | none => return folder

def observe (folder : Folder) (path : Path) : IO Folder :=
  (List.range path.parts.length).foldlM (observePart path) folder

def pathsOf (folder : Folder) (choice : CommandLine.Choice) : List Path :=
  [Settings.pathOf folder choice.config,Path.ofText (choice.controllers.getD "")] ++
    ((Tool.outputFile choice).map Path.ofText).toList

def folderFor (location : String) (arguments : List String) : IO Folder :=
  let empty : Folder := ⟨location,[]⟩
  match CommandLine.read arguments with
  | .chosen choice => (pathsOf empty choice).foldlM observe empty
  | _ => return empty

private def fileName (place : Place) : String := "/".intercalate place

def bringUpToDate (before after : Folder) : IO Unit := do
  for (place,entry) in after.entries do
    if before.entry? place != some entry then
      match entry with
      | .directory => IO.FS.createDirAll (fileName place)
      | .file content => IO.FS.writeBinFile (fileName place) ⟨content.toArray⟩

-- What is said about a failure that has no report.
def complaint (failure : Failure) : String :=
  let cause :=
    match failure with
    | .file fault => fault.message
    | other => other.plainMessage.getD "the input holds a value that cannot be used where it stands"
  CommandLine.toolName ++ ": " ++ cause ++ "\n"

def exitStatus : Tool.Exit → UInt32
  | .finished code => code.toUInt32
  | .stopped code => code.toUInt32

def run (arguments : List String) : IO UInt32 := do
  let folder ← folderFor ((← IO.currentDir).toString ++ "/") arguments
  let namespaceOverride := (← IO.getEnv Settings.namespaceVariable).getD ""
  let time := (← Std.Time.PlainDateTime.now).format "yyyy-MM-dd HH:mm:ss,SSS"
  match Tool.run ⟨folder,namespaceOverride,time⟩ arguments with
  | .error failure =>
    (← IO.getStderr).putStr (complaint failure)
    return 1
  | .ok outcome =>
    bringUpToDate folder outcome.folder
    (← IO.getStdout).putStr outcome.stdout
    (← IO.getStderr).putStr outcome.stderr
    return exitStatus outcome.exit

end TypedMvc.Program

def main (arguments : List String) : IO UInt32 := TypedMvc.Program.run arguments
