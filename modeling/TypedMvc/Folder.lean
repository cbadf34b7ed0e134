import TypedMvc.Failure

namespace TypedMvc

structure Path where
  root : String
  parts : List String
  deriving DecidableEq, Repr

namespace Path

def splitSlashes : List Char → List (List Char)
  | [] => [[]]
  | '/' :: rest => [] :: splitSlashes rest
  | c :: rest =>
    match splitSlashes rest with
    | [] => [[c]]
    | first :: more => (c :: first) :: more

-- Two slashes at the start are a root of their own, but more of them are one.
def rootOf : List Char → String
  | ['/','/'] => "//"
  | '/' :: '/' :: c :: _ => if c == '/' then "/" else "//"
  | '/' :: _ => "/"
  | _ => ""

def ofText (text : String) : Path :=
  let cs := text.toList
  ⟨rootOf cs,((splitSlashes cs).filter fun part => !part.isEmpty && part != ['.']).map String.ofList⟩

def text (p : Path) : String :=
  if p.parts.isEmpty then (if p.root = "" then "." else p.root)
  else p.root ++ "/".intercalate p.parts

def collapse (rooted : Bool) : List String → List String → List String
  | done,[] => done.reverse
  | [],".." :: rest => if rooted then collapse rooted [] rest else collapse rooted [".."] rest
  | last :: done,".." :: rest =>
    if last == ".." then collapse rooted (".." :: last :: done) rest else collapse rooted done rest
  | done,part :: rest => collapse rooted (part :: done) rest

def collapsed (p : Path) : Path := { p with parts := collapse (p.root != "") [] p.parts }

def name (p : Path) : String := p.parts.getLastD ""

def parent (p : Path) : Path := { p with parts := p.parts.dropLast }

-- What follows the last point and the point itself, if something is on both sides of it.
def suffixOf (name : List Char) : List Char :=
  let extension := (name.reverse.takeWhile (· != '.')).reverse
  let before := name.length - extension.length
  if extension.isEmpty || before ≤ 1 then [] else '.' :: extension

def suffix (p : Path) : String := String.ofList (suffixOf p.name.toList)

def isYaml (p : Path) : Bool :=
  let lower := p.suffix.map Char.toLower
  lower == ".yaml" || lower == ".yml"

theorem isYaml_iff (p : Path) : p.isYaml = true ↔
    (suffixOf p.name.toList).map Char.toLower = ".yaml".toList ∨
      (suffixOf p.name.toList).map Char.toLower = ".yml".toList := by
  simp only [isYaml,suffix,Bool.or_eq_true,beq_iff_eq,← String.toList_inj,String.toList_map,String.toList_ofList]

end Path

inductive Entry where
  | file (content : List UInt8)
  | directory
  deriving DecidableEq, Repr

abbrev Place := List String

structure Folder where
  location : String
  entries : List (Place × Entry)
  deriving Repr

namespace Folder

def up : String := ".."

def isAbove (place : Place) : Bool := place.all (· == up) || place == ["/"]

def ascend (place : Place) : Place :=
  if place == ["/"] then place else if place.all (· == up) then place ++ [up] else place.dropLast

def entry? (folder : Folder) (place : Place) : Option Entry := folder.entries.lookup place

def isBelow (place other : Place) : Bool := place.isPrefixOf other && place.length < other.length

-- What is at a place. A place with something below it is a directory.
def at? (folder : Folder) (place : Place) : Option Entry :=
  if isAbove place then some .directory
  else
    match folder.entry? place with
    | some entry => some entry
    | none => if folder.entries.any fun known => isBelow place known.1 then some .directory else none

def nameLimit : Nat := 255

def pathLimit : Nat := 4096

-- Walks on from a place that exists; the last name need not exist.
def walk (folder : Folder) (path : Path) : Place → List String → Except FileFault Place
  | place,[] => .ok place
  | place,name :: rest =>
    match folder.at? place with
    | some (.file _) => .error (.notDirectory path.text)
    | none => .error (.missing path.text)
    | some .directory =>
      if nameLimit < name.utf8ByteSize then .error (.nameTooLong path.text)
      else walk folder path (if name == up then ascend place else place ++ [name]) rest

def locate (folder : Folder) (path : Path) : Except FileFault Place :=
  let text := path.text
  if text.toList.contains (Char.ofNat 0) then .error .nullCharacter
  else if pathLimit ≤ text.utf8ByteSize then .error (.nameTooLong text)
  else
    let start : Place := if path.root == "" || path.root == folder.location then [] else ["/"]
    folder.walk path start path.parts

-- Whether a path leads to something. A name that is too long is no answer but a fault.
def exists? (folder : Folder) (path : Path) : Except FileFault Bool :=
  match folder.locate path with
  | .ok place => .ok (folder.at? place).isSome
  | .error (.nameTooLong text) => .error (.nameTooLong text)
  | .error _ => .ok false

def read (folder : Folder) (path : Path) : Except FileFault (List UInt8) := do
  match folder.at? (← folder.locate path) with
  | some (.file content) => return content
  | some .directory => .error (.isDirectory path.text)
  | none => .error (.missing path.text)

def put (folder : Folder) (place : Place) (entry : Entry) : Folder :=
  if folder.entries.any fun known => known.1 == place then
    { folder with
      entries := folder.entries.map fun known => if known.1 == place then (place,entry) else known }
  else { folder with entries := folder.entries ++ [(place,entry)] }

def write (folder : Folder) (path : Path) (content : List UInt8) : Except FileFault Folder := do
  let place ← folder.locate path
  match folder.at? place with
  | some .directory => .error (.isDirectory path.text)
  | _ => return folder.put place (.file content)

def append (folder : Folder) (path : Path) (content : List UInt8) : Except FileFault Folder := do
  let place ← folder.locate path
  match folder.at? place with
  | some .directory => .error (.isDirectory path.text)
  | some (.file before) => return folder.put place (.file (before ++ content))
  | none => return folder.put place (.file content)

def makeOne (folder : Folder) (path : Path) : Except FileFault (Option Folder) :=
  match folder.locate path with
  | .error (.missing _) => .ok none
  | .error fault => .error fault
  | .ok place =>
    match folder.at? place with
    | some .directory => .ok (some folder)
    | some (.file _) => .error (.alreadyExists path.text)
    | none => .ok (some (folder.put place .directory))

def makeFrom (folder : Folder) : Nat → Path → Except FileFault Folder
  | 0,path => .error (.missing path.text)
  | fuel + 1,path => do
    match ← folder.makeOne path with
    | some made => return made
    | none =>
      let above ← folder.makeFrom fuel path.parent
      match ← above.makeOne path with
      | some made => return made
      | none => .error (.missing path.text)

def makeDirectory (folder : Folder) (path : Path) : Except FileFault Folder :=
  folder.makeFrom (path.parts.length + 1) path

end Folder
end TypedMvc
