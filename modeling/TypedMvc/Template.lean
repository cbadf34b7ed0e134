import TypedMvc.CSharp.Printer

namespace TypedMvc.Template

open Text

inductive Piece where
  | text (cs : List Char)
  -- the value of a name, indented by so many levels one after the other
  | value (name : String) (indents : List Int)
  deriving DecidableEq, Repr

private def isNameStart (c : Char) : Bool := c.isAlpha || c == '_'

private def isNameChar (c : Char) : Bool := c.isAlphanum || c == '_'

private def splitBars : List Char → List (List Char)
  | [] => [[]]
  | '|' :: rest => [] :: splitBars rest
  | c :: rest =>
    match splitBars rest with
    | [] => [[c]]
    | first :: more => (c :: first) :: more

private def indentOf? (cs : List Char) : Option Int :=
  let (name,rest) := (trim cs).span isNameChar
  if name != "indent_block".toList then none
  else
    match trim rest with
    | [] => some 1
    | '(' :: inside =>
      match inside.reverse with
      | ')' :: levels =>
        match trim levels.reverse with
        | [] => some 1
        | levels => (Text.integer levels).toOption
      | _ => none
    | _ => none

private def pieceOf? (inside : List Char) : Option Piece :=
  match splitBars inside with
  | [] => none
  | name :: filters => do
    let name := trim name
    let indents ← filters.mapM indentOf?
    match name with
    | [] => none
    | c :: rest => if isNameStart c && rest.all isNameChar then some (.value (String.ofList name) indents) else none

private def untilClose : List Char → Option (List Char × List Char)
  | [] => none
  | '\x7d' :: '\x7d' :: rest => some ([],rest)
  | c :: rest => (untilClose rest).map fun parts => (c :: parts.1,parts.2)

private def pushChar (c : Char) : List Piece → List Piece
  | .text cs :: rest => .text (c :: cs) :: rest
  | pieces => .text [c] :: pieces

-- Each step takes a character at least.
private def piecesFrom : Nat → List Char → Except TemplateFault (List Piece)
  | 0,_ => .ok []
  | _,[] => .ok []
  | fuel + 1,'\x7b' :: '\x7b' :: rest =>
    match untilClose rest with
    | none => .error .unexpectedEnd
    | some (inside,rest) =>
      match pieceOf? inside with
      | none => .error .expressionExpected
      | some piece => (piecesFrom fuel rest).map (piece :: ·)
  | _ + 1,'\x7b' :: '%' :: _ => .error .expressionExpected
  | fuel + 1,c :: rest => (piecesFrom fuel rest).map (pushChar c)

def pieces (template : List Char) : Except TemplateFault (List Piece) :=
  let text := universalNewlines template
  piecesFrom (text.length + 1) text

-- A margin so many times over. No text has more characters than a count can tell.
def repeated (count : Nat) (margin : List Char) : Except Failure (List Char) :=
  if margin.isEmpty then .ok []
  else if count * margin.length < CSharp.Layout.countLimit then .ok (List.replicate count margin).flatten
  else .error (.misuse .beyondRange)

def indented (margin : List Char) (levels : Value) (v : Value) : Except Failure Value := do
  let count ← CSharp.Layout.repetitions levels
  let whole ← repeated count margin
  match v with
  | .str s => return .str (String.ofList (indentBlock whole s.toList))
  | _ => .error (.misuse .notText)

def marginName : String := "pad"

private def undefined (name : String) : Except Failure α := .error (.template (.undefined name))

def valueOf (margin : List Char) (values : List (Value × Value)) (name : String) : Option Value :=
  match Value.lookup (.str name) values with
  | some v => some v
  | none => if name = marginName then some (.str (String.ofList margin)) else none

private def filled (margin : List Char) (values : List (Value × Value)) : Piece → Except Failure String
  | .text cs => .ok (String.ofList cs)
  | .value name indents =>
    match valueOf margin values name with
    | none => undefined name
    | some v => (indents.foldlM (fun v levels => indented margin (.int levels) v) v).map Value.text

def render (margin : List Char) (values : List (Value × Value)) (template : String) :
    Except Failure String := do
  match pieces template.toList with
  | .error fault => .error (.template fault)
  | .ok pieces => (pieces.mapM (filled margin values)).map String.join

end TypedMvc.Template
