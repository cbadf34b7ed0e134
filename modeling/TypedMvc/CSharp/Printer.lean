import TypedMvc.CSharp.Syntax
import TypedMvc.Settings
import TypedMvc.Text.Basic

namespace TypedMvc.CSharp

open Text

structure Layout where
  margin : List Char
  usings : List String
  deriving Repr

namespace Layout

-- The least count that is too large: counts have 63 bits and a sign.
def countLimit : Int := 0x8000000000000000

def repetitions (v : Value) : Except Failure Nat :=
  match v with
  | .int i => if -countLimit ≤ i ∧ i < countLimit then .ok i.toNat else .error (.misuse .beyondRange)
  | .bool b => .ok (if b then 1 else 0)
  | _ => .error (.misuse .notNumeric)

def marginOf (width : Value) : Except Failure (List Char) :=
  (repetitions width).map fun count => List.replicate count ' '

def ofSettings (s : Settings) : Except Failure Layout :=
  (marginOf s.indentSize).map fun margin => ⟨margin,s.referencedNamespaces.map Value.text⟩

def ofWidth (width : Nat) (usings : List String) : Layout := ⟨List.replicate width ' ',usings⟩

end Layout

-- A line of a class before its margin is known.
structure Row where
  depth : Nat
  content : List Char
  deriving DecidableEq, Repr

namespace Row

def ofText (depth : Nat) (text : String) : Row := ⟨depth,text.toList⟩

def blank : Row := ⟨0,[]⟩

def line (margin : List Char) (row : Row) : List Char :=
  (List.replicate row.depth margin).flatten ++ row.content

end Row

def modifiersText (modifiers : List Modifier) : String := " ".intercalate (modifiers.map Modifier.word)

def parameterText (p : Parameter) : String :=
  p.type ++ " " ++ p.name ++ (match p.default with | some value => " = " ++ value | none => "")

def typeText (v : Value) : Except Failure String :=
  match v with
  | .str s => .ok s
  | _ => .error (.misuse .notJoinable)

def propertyText (p : Property) (type : String) : String :=
  modifiersText p.modifiers ++ " " ++ type ++ " " ++ p.name.text ++
    (if p.readOnly then " \x7b get; \x7d" else " \x7b get; set; \x7d")

def fieldText (f : Field) (type : String) : String :=
  modifiersText f.modifiers ++ " " ++ type ++ " " ++ f.name.text ++
    (match f.initializer with
      | some value => if value = "" then ";" else " = " ++ value ++ ";"
      | none => ";")

def constructorText (identifier : String) (c : Constructor) : String :=
  modifiersText c.modifiers ++ " " ++ identifier ++ "(" ++
    ", ".intercalate (c.parameters.map parameterText) ++ ")" ++
    (match c.baseArguments with
      | some arguments => " : base(" ++ ", ".intercalate arguments ++ ")"
      | none => "")

def memberRows (identifier : String) : Member → Except Failure (List Row)
  | .field f => (typeText f.type).map fun type => [.ofText 1 (fieldText f type)]
  | .property p => (typeText p.type).map fun type => [.ofText 1 (propertyText p type)]
  | .constructor c =>
    .ok (.ofText 1 (constructorText identifier c) :: .ofText 1 "\x7b" ::
      (c.body.map (.ofText 2) ++ [.ofText 1 "\x7d"]))

def headText (c : ClassDef) : String :=
  modifiersText c.modifiers ++ " class " ++ c.identifier ++
    (if c.baseTypes.isEmpty then "" else " : " ++ ", ".intercalate c.baseTypes)

def classRows (c : ClassDef) : Except Failure (List Row) := do
  let members ← c.members.mapM (memberRows c.identifier)
  return c.attributes.map (fun mark => .ofText 0 ("[" ++ mark ++ "]")) ++
    .ofText 0 (headText c) :: .ofText 0 "\x7b" ::
      (List.intercalate [Row.blank] members ++ [.ofText 0 "\x7d"])

def classText (layout : Layout) (c : ClassDef) : Except Failure (List Char) :=
  (classRows c).map fun rows => unlines (rows.map (Row.line layout.margin))

def suppressedWarnings : List String := ["1591","3008","3009","0108"]

def warningList : String := ", ".intercalate suppressedWarnings

def toolName : String := "R4Mvc"

def headerLines (layout : Layout) : List (List Char) :=
  ["// <auto-generated />","// This file was generated by " ++ toolName ++ ". Do not edit it manually.",
    "#pragma warning disable " ++ warningList,""].map String.toList ++
    layout.usings.map fun ns => ("using " ++ ns ++ ";").toList

def footerLines : List (List Char) := ["","#pragma warning restore " ++ warningList,""].map String.toList

-- A namespace block, or the bare classes of the global namespace, after a blank line.
def namespaceLines (margin : List Char) (group : String × List (List Char)) : List (List Char) :=
  [] ::
    if group.1 = "" then List.intercalate [[]] (group.2.map ([·]))
    else
      ("namespace " ++ group.1).toList :: ['\x7b'] ::
        (List.intercalate [[]] (group.2.map fun text => [indentBlock margin text]) ++ [['\x7d']])

def assembled (layout : Layout) (groups : List (String × List (List Char))) : List Char :=
  unlines (headerLines layout ++ (groups.map (namespaceLines layout.margin)).flatten ++ footerLines)

def fileText (layout : Layout) (classes : List ClassDef) : Except Failure (List Char) := do
  let groups ← (byNamespace classes).mapM fun group =>
    (group.2.mapM (classText layout)).map fun texts => (group.1,texts)
  return assembled layout groups

def printClass (layout : Layout) (c : ClassDef) : Except Failure String :=
  (classText layout c).map String.ofList

def printFile (layout : Layout) (classes : List ClassDef) : Except Failure String :=
  (fileText layout classes).map String.ofList

def classTemplate : String := "class.j2"

def templateNames : List String := [classTemplate,"file.j2"]

end TypedMvc.CSharp
