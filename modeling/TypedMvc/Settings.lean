import TypedMvc.Failure
import TypedMvc.Text.Number
import TypedMvc.Value.Order

namespace TypedMvc.Identifier

def startsWord (c : Char) : Bool := c.isAlpha || c == '_'

def continuesWord (c : Char) : Bool := c.isAlphanum || c == '_'

def isWord : List Char → Bool
  | [] => false
  | c :: rest => startsWord c && rest.all continuesWord

def segments : List Char → List (List Char)
  | [] => [[]]
  | '.' :: rest => [] :: segments rest
  | c :: rest =>
    match segments rest with
    | [] => [[c]]
    | first :: more => (c :: first) :: more

def isDotted (cs : List Char) : Bool := (segments cs).all isWord

-- Validation lets one line feed pass at the end, as patterns do that are anchored before a final line feed.
def withoutFinalNewline : List Char → List Char
  | [] => []
  | ['\n'] => []
  | c :: rest => c :: withoutFinalNewline rest

def acceptsWord (s : String) : Bool := isWord (withoutFinalNewline s.toList)

def acceptsDotted (s : String) : Bool := isDotted (withoutFinalNewline s.toList)

inductive Word : List Char → Prop where
  | intro {c : Char} {rest : List Char} :
    startsWord c = true → (∀ d ∈ rest, continuesWord d = true) → Word (c :: rest)

inductive Dotted : List Char → Prop where
  | single {word : List Char} : Word word → Dotted word
  | dot {word rest : List Char} : Word word → Dotted rest → Dotted (word ++ '.' :: rest)

theorem isWord_iff {cs : List Char} : isWord cs = true ↔ Word cs := by
  constructor
  · intro accepted
    cases cs with
    | nil => simp [isWord] at accepted
    | cons c rest =>
      simp only [isWord,Bool.and_eq_true,List.all_eq_true] at accepted
      exact .intro accepted.1 accepted.2
  · rintro ⟨first,others⟩
    simp only [isWord,Bool.and_eq_true,List.all_eq_true]
    exact ⟨first,others⟩

end TypedMvc.Identifier

namespace TypedMvc

structure Settings where
  generatedNamespace : Value
  helpersPrefix : Value
  referencedNamespaces : List Value
  indentSize : Value
  deriving Repr

structure Target where
  root : String
  helpers : String
  deriving DecidableEq, Repr

namespace Settings

def defaultReferences : List String :=
  ["System.CodeDom.Compiler","System.Diagnostics","Microsoft.AspNetCore.Mvc",
    "Microsoft.AspNetCore.Routing"]

def default : Settings :=
  ⟨.str "R4Mvc",.str "MVC",defaultReferences.map .str,.int 4⟩

def ofTexts (root helpers : String) (references : List String) (indent : Int) : Settings :=
  ⟨.str root,.str helpers,references.map .str,.int indent⟩

def defaultFile : String := "r4mvc.json"

def namespaceVariable : String := "R4GEN_NAMESPACE"

def invalid (fault : SettingFault) : Except Failure α := .error (.setting fault none)

def misused (fault : Fault) : Except Failure α := .error (.misuse fault)

def checkNamespace (v : Value) : Except Failure String :=
  match v with
  | .str s =>
    if s = "" then invalid (.generatedNamespace v)
    else if Identifier.acceptsDotted s then .ok s
    else invalid (.generatedNamespace v)
  | _ => if v.truthy then misused .notJoinable else invalid (.generatedNamespace v)

def checkHelpers (v : Value) : Except Failure String :=
  match v with
  | .str s => if Identifier.acceptsWord s then .ok s else invalid (.helpersPrefix v)
  | _ => if v.truthy then misused .notJoinable else invalid (.helpersPrefix v)

def checkReferences : List Value → Except Failure Unit
  | [] => .ok ()
  | .str s :: rest =>
    if Identifier.acceptsDotted s then checkReferences rest else invalid (.referencedNamespace (.str s))
  | _ :: _ => misused .notJoinable

def checkIndent (v : Value) : Except Failure Unit :=
  match v with
  | .int i => if i < 0 then invalid .negativeIndent else .ok ()
  | .bool _ => .ok ()
  | .float x => if x.quantity.before (.finite 0 1) then invalid .negativeIndent else .ok ()
  | _ => misused .notNumeric

def validate (s : Settings) : Except Failure Target := do
  let root ← checkNamespace s.generatedNamespace
  let helpers ← checkHelpers s.helpersPrefix
  checkReferences s.referencedNamespaces
  checkIndent s.indentSize
  return ⟨root,helpers⟩

def parts? : Value → Option (List Value)
  | .str s => some (s.toList.map fun c => .str (String.singleton c))
  | .list items => some items
  | .tuple items => some items
  | .set items => some items
  | .map entries => some (entries.map (·.1))
  | .bytes content => some (content.map fun byte => .int byte.toNat)
  | _ => none

def assign (s : Settings) (name : String) (v : Value) : Except Failure Settings :=
  match name with
  | "generated_namespace" => .ok { s with generatedNamespace := v }
  | "helpers_prefix" => .ok { s with helpersPrefix := v }
  | "indent_size" => .ok { s with indentSize := v }
  | "referenced_namespaces" =>
    match parts? v with
    | some parts => .ok { s with referencedNamespaces := parts }
    | none => misused .notIterable
  | _ => misused .badArguments

def ofArguments (arguments : List (Value × Value)) : Except Failure Settings :=
  arguments.foldlM (fun s argument => assign s argument.1.text argument.2) default

def knownKeys : List String :=
  ["generated_namespace","helpers_prefix","referenced_namespaces","indent_size"]

def toInteger (v : Value) : Except Failure Int :=
  match v with
  | .int i => .ok i
  | .bool b => .ok (if b then 1 else 0)
  | .float x =>
    match x with
    | .infinite _ => misused .infinite
    | _ =>
      match x.truncate? with
      | some i => .ok i
      | none => invalid (.indentKind v)
  | .str s =>
    match Text.integer s.toList with
    | .ok i => .ok i
    | .error _ => invalid (.indentKind v)
  | .bytes content =>
    match Text.integer (content.map fun byte => Char.ofNat byte.toNat) with
    | .ok i => if content.all (· < 128) then .ok i else invalid (.indentKind v)
    | .error _ => invalid (.indentKind v)
  | _ => do
    let _ ← v.shown
    invalid (.indentKind v)

-- One text stands for a list of one, and what does not count as present for an empty list.
def toReferences (v : Value) : Except Failure (List String) :=
  if v.truthy then
    match v with
    | .str s => .ok [s]
    | _ =>
      match parts? v.opened with
      | some parts => parts.mapM Value.shown
      | none => misused .notIterable
  else .ok []

def entryOr (entries : List (Value × Value)) (key : String) (fallback : β)
    (convert : Value → Except Failure β) : Except Failure β :=
  match Value.lookup (.str key) entries with
  | some v => convert v
  | none => .ok fallback

def convert (entries : List (Value × Value)) : Except Failure Settings := do
  let root ← entryOr entries "generated_namespace" "R4Mvc" Value.shown
  let helpers ← entryOr entries "helpers_prefix" "MVC" Value.shown
  let references ← entryOr entries "referenced_namespaces" defaultReferences toReferences
  let indent ← entryOr entries "indent_size" 4 toInteger
  return ofTexts root helpers references indent

def containsText (needle : List Char) : List Char → Bool
  | [] => needle.isEmpty
  | c :: rest => needle.isPrefixOf (c :: rest) || containsText needle rest

-- Whether a value that is no mapping still holds one of the keys, as an element or as a part of a text.
def holdsKey? : Value → Option Bool
  | .list items => some (items.any fun item => knownKeys.any fun key => Value.same item (.str key))
  | .tuple items => some (items.any fun item => knownKeys.any fun key => Value.same item (.str key))
  | .set items => some (items.any fun item => knownKeys.any fun key => Value.same item (.str key))
  | .str s => some (knownKeys.any fun key => containsText key.toList s.toList)
  | _ => none

-- Settings from a mapping, starting from the defaults; a value without any of the keys gives the
-- defaults, and one that holds a key without being a mapping is misused.
def ofValue (data : Value) : Except Failure Settings := do
  let s ←
    match data with
    | .map entries => convert entries
    | _ =>
      match holdsKey? data with
      | some false => .ok default
      | some true => misused .badArguments
      | none => misused .notIterable
  let _ ← s.validate
  return s

def toValue (s : Settings) : Value :=
  .map [(.str "generated_namespace",s.generatedNamespace),(.str "helpers_prefix",s.helpersPrefix),
    (.str "referenced_namespaces",.list s.referencedNamespaces),(.str "indent_size",s.indentSize)]

-- The namespace of the environment, unless it is blank, replaces that of the settings, which are
-- validated again.
def override (s : Settings) (environment : String) : Except Failure Settings :=
  match Text.trim environment.toList with
  | [] => .ok s
  | root => do
    let replaced := { s with generatedNamespace := .str (String.ofList root) }
    let _ ← replaced.validate
    return replaced

end Settings
end TypedMvc
