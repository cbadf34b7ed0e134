import TypedMvc.Text.Basic
import TypedMvc.Text.Quoted
import TypedMvc.Value.Text

namespace TypedMvc

-- A value used as something it is not. Misuse has no wording of its own.
inductive Fault where
  -- a value that is no text is quoted or asked for its text methods
  | notText
  -- a value that is no text is joined or matched with texts
  | notJoinable
  | notIterable
  | notNumeric
  | unorderable
  | unhashable
  | badArguments
  | readOnlyField
  | nothingRemembered
  | noSuchPosition
  | infinite
  -- a width or a code point beyond what the machine counts
  | beyondRange
  | unknownWord
  | emptyNumber
  | noSuchLogLevel
  | tooDeep
  deriving DecidableEq, Repr

inductive FileFault where
  | missing (path : String)
  | isDirectory (path : String)
  | notDirectory (path : String)
  | alreadyExists (path : String)
  | nameTooLong (path : String)
  | nullCharacter
  deriving DecidableEq, Repr

def FileFault.message : FileFault → String
  | .missing path => "[Errno 2] No such file or directory: " ++ Text.quoted path
  | .alreadyExists path => "[Errno 17] File exists: " ++ Text.quoted path
  | .notDirectory path => "[Errno 20] Not a directory: " ++ Text.quoted path
  | .isDirectory path => "[Errno 21] Is a directory: " ++ Text.quoted path
  | .nameTooLong path => "[Errno 36] File name too long: " ++ Text.quoted path
  | .nullCharacter => "embedded null byte"

inductive Report where
  | general (message : Value) (details : List (Value × Value))
  | metadata (message field area ns source : Value)
  | configuration (message setting source : Value)
  | duplicateClass (identifier ns : Value)
  | duplicateMember (member identifier ns : Value)
  | template (message name : Value)
  deriving Repr

namespace Report

def quotedName (v : Value) : String := "'" ++ v.text ++ "'"

def message : Report → Value
  | general message _ => message
  | metadata message _ _ _ _ => message
  | configuration message _ _ => message
  | duplicateClass identifier _ => .str ("Duplicate generated class " ++ quotedName identifier)
  | duplicateMember member identifier _ =>
    .str ("Duplicate member " ++ quotedName member ++ " in generated class " ++ quotedName identifier)
  | template message _ => message

def present (name : String) (v : Value) : List (Value × Value) :=
  if v.truthy then [(.str name,v)] else []

def given (name : String) (v : Value) : List (Value × Value) :=
  if v.isNull then [] else [(.str name,v)]

def details : Report → List (Value × Value)
  | general _ details => details
  | metadata _ field area ns source =>
    present "field" field ++ present "area" area ++ present "namespace" ns ++ present "source" source
  | configuration _ setting source => given "setting" setting ++ given "source" source
  | duplicateClass _ ns => [(.str "namespace",ns.orElse (.str "<global>"))]
  | duplicateMember _ _ ns => [(.str "namespace",ns.orElse (.str "<global>"))]
  | template _ name => present "template" name

def text (r : Report) : String :=
  if r.details.isEmpty then r.message.text
  else
    r.message.text ++ " (" ++
      ", ".intercalate (r.details.map fun detail => detail.1.text ++ "=" ++ detail.2.text) ++ ")"

def hasLongNumber (r : Report) : Bool :=
  r.message.hasLongNumber || r.details.any fun detail => detail.2.hasLongNumber

-- The text where the message may be any value: without details a message must be a text to be shown.
def checkedText (r : Report) : Except Fault String :=
  match r.message with
  | .str _ => .ok r.text
  | _ => if r.details.isEmpty then .error .notJoinable else .ok r.text

def attributes : Report → List (String × Value)
  | general _ _ => []
  | metadata _ field _ _ source => [("field",field),("source",source)]
  | configuration _ setting source => [("setting",setting),("source",source)]
  | duplicateClass identifier ns => [("identifier",identifier),("namespace",ns)]
  | duplicateMember member identifier ns =>
    [("member",member),("identifier",identifier),("namespace",ns)]
  | template _ name => [("template_name",name)]

end Report

inductive ReadFault where
  | file (fault : FileFault)
  | encoding (fault : Text.Utf8Fault)
  | json (message : String)
  | yaml
  | unreadable (message : String)
  deriving Repr

def ReadFault.message : ReadFault → String
  | .file fault => fault.message
  | .encoding fault => fault.message
  | .json message => message
  | .yaml => "<yaml>"
  | .unreadable message => message

inductive SettingFault where
  | generatedNamespace (given : Value)
  | helpersPrefix (given : Value)
  | referencedNamespace (given : Value)
  | negativeIndent
  | indentKind (given : Value)
  deriving Repr

namespace SettingFault

def setting : SettingFault → String
  | generatedNamespace _ => "generated_namespace"
  | helpersPrefix _ => "helpers_prefix"
  | referencedNamespace _ => "referenced_namespaces"
  | negativeIndent | indentKind _ => "indent_size"

def message : SettingFault → String
  | generatedNamespace given => "Invalid generated namespace: '" ++ given.text ++ "'"
  | helpersPrefix given => "Invalid helpers prefix: '" ++ given.text ++ "'"
  | referencedNamespace given => "Invalid referenced namespace: '" ++ given.text ++ "'"
  | negativeIndent => "Indent size must be non-negative"
  | indentKind given => "Indent size must be an integer, got " ++ given.literal

end SettingFault

inductive TemplateFault where
  | undefined (name : String)
  | unexpectedEnd
  | expressionExpected
  | missingFile (template folder : String)
  deriving Repr

inductive Failure where
  | unnamedController (area ns : Value)
  | unnamedRecord (area ns : Value)
  | recordKind (kind : String)
  | metadataUnreadable (cause : ReadFault) (source : String)
  | metadataShape (source : String)
  | setting (fault : SettingFault) (source : Option String)
  | settingsUnreadable (cause : ReadFault) (source : String)
  | settingsShape (source : String)
  | duplicateClass (identifier ns : String)
  | duplicateMember (member : Value) (identifier ns : String)
  | template (fault : TemplateFault)
  | emptyIdentifier
  | unknownModifier (word : Value)
  | unknownLevel (text : String)
  | longNumber
  | file (fault : FileFault)
  | misuse (fault : Fault)
  deriving Repr

def TemplateFault.report : TemplateFault → Report
  | .undefined name => .template (.str ("Template rendering failed: '" ++ name ++ "' is undefined")) (.str "")
  | .unexpectedEnd =>
    .template (.str ("Template rendering failed: unexpected end of template, " ++
      "expected 'end of print statement'.")) (.str "")
  | .expressionExpected =>
    .template (.str ("Template rendering failed: Expected an expression, " ++
      "got 'end of statement block'")) (.str "")
  | .missingFile template folder =>
    .template (.str ("Template file rendering failed: '" ++ template ++ "' not found in search path: '" ++
      folder ++ "'")) (.str template)

namespace Failure

def sourceValue : Option String → Value
  | some path => .str path
  | none => .null

-- The report of a failure that has one; misuse and faults of the file system have none.
def report : Failure → Option Report
  | unnamedController area ns =>
    some (.metadata (.str "Controller definition has no name") (.str "name") area ns .null)
  | unnamedRecord area ns =>
    some (.metadata (.str "Controller record has no name") (.str "name") area ns .null)
  | recordKind kind =>
    some (.metadata (.str ("Controller record must be a mapping, got " ++ kind)) (.str "") .null .null .null)
  | metadataUnreadable cause source =>
    some (.metadata (.str ("Failed to load controller metadata: " ++ cause.message)) (.str "") .null .null
      (.str source))
  | metadataShape source =>
    some (.metadata (.str "Controller metadata must be a list of records") (.str "") .null .null (.str source))
  | setting fault source =>
    some (.configuration (.str fault.message) (.str fault.setting) (sourceValue source))
  | settingsUnreadable cause source =>
    some (.configuration (.str ("Failed to load settings: " ++ cause.message)) .null (.str source))
  | settingsShape source =>
    some (.configuration (.str "Settings file must contain a mapping") .null (.str source))
  | duplicateClass identifier ns => some (.duplicateClass (.str identifier) (.str ns))
  | duplicateMember member identifier ns => some (.duplicateMember member (.str identifier) (.str ns))
  | template fault => some fault.report
  | emptyIdentifier | unknownModifier _ | unknownLevel _ | longNumber | file _ | misuse _ => none

def plainMessage : Failure → Option String
  | emptyIdentifier => some "Class identifier cannot be empty"
  | unknownModifier word => some (word.literal ++ " is not a valid Modifier")
  | unknownLevel text => some ("Unknown level: " ++ Text.quoted text)
  | longNumber =>
    some ("Exceeds the limit (4300 digits) for integer string conversion; " ++
      "use sys.set_int_max_str_digits() to increase the limit")
  | file .nullCharacter => some FileFault.nullCharacter.message
  | _ => none

end Failure

def Value.shown (v : Value) : Except Failure String :=
  if v.hasLongNumber then .error .longNumber else .ok v.text

@[simp] theorem Value.shown_str (s : String) : (Value.str s).shown = .ok s := rfl

end TypedMvc
