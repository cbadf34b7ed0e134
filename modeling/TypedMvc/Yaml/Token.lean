import TypedMvc.Yaml.Scalar

namespace TypedMvc.Yaml

inductive Directive where
  | version (major : Nat)
  | handle (name expansion : String)
  | other
  deriving DecidableEq, Repr

inductive Token where
  | directive (d : Directive)
  | documentStart
  | documentEnd
  | streamEnd
  | blockSequenceStart
  | blockMappingStart
  | blockEnd
  | flowSequenceStart
  | flowSequenceEnd
  | flowMappingStart
  | flowMappingEnd
  | blockEntry
  | flowEntry
  | key
  | value
  | alias (name : String)
  | anchor (name : String)
  | tag (handle : Option String) (rest : String)
  | scalar (text : String) (plain : Bool)
  deriving DecidableEq, Repr

private def nameOf (c : Cursor) : List Char := c.rest.takeWhile isNameChar

def anchorName (c : Cursor) : Except Fault (String × Cursor) :=
  let c := c.step
  let name := nameOf c
  let c := c.forward name.length
  let ends := c.endsAt (fun ch => isGap ch || "?:,]\x7d%@`".toList.contains ch) 0
  if name.isEmpty || !ends then c.malformed else .ok (String.ofList name,c)

def isUriChar (c : Char) : Bool := c.isAlphanum || "-;/?:@&=+$,_.!~*'()[]%".toList.contains c

private def hexPair? (c : Cursor) : Option Nat :=
  match c.rest with
  | a :: b :: _ =>
    match Json.hexDigit? a,Json.hexDigit? b with
    | some high,some low => some (high * 16 + low)
    | _,_ => none
  | _ => none

private def uriBytes : Nat → Cursor → Except Fault (List UInt8 × Cursor)
  | 0,c => .ok ([],c)
  | fuel + 1,c =>
    if c.peek == some '%' then
      match hexPair? c.step with
      | none => c.malformed
      | some byte => do
        let (more,c) ← uriBytes fuel (c.forward 3)
        return (UInt8.ofNat byte :: more,c)
    else .ok ([],c)

private def uriParts : Nat → Cursor → Except Fault (List Char × Cursor)
  | 0,c => .ok ([],c)
  | fuel + 1,c =>
    if c.peek == some '%' then do
      let (bytes,c) ← uriBytes (c.left + 1) c
      match Text.decodeUtf8 bytes with
      | .error _ => c.malformed
      | .ok text => do
        let (more,c) ← uriParts fuel c
        return (text.toList ++ more,c)
    else
      match c.peek with
      | some ch =>
        if isUriChar ch then do
          let (more,c) ← uriParts fuel c.step
          return (ch :: more,c)
        else .ok ([],c)
      | none => .ok ([],c)

def tagUri (c : Cursor) : Except Fault (String × Cursor) := do
  let (text,after) ← uriParts (c.left + 1) c
  if after.index == c.index then after.malformed else return (String.ofList text,after)

def tagHandle (c : Cursor) : Except Fault (String × Cursor) :=
  if c.peek != some '!' then c.malformed
  else if c.peekAt 1 == some ' ' then .ok ("!",c.step)
  else
    let name := nameOf c.step
    let c := c.forward (name.length + 1)
    if c.peek == some '!' then .ok ("!" ++ String.ofList name ++ "!",c.step) else c.malformed

private def hasHandle (c : Cursor) : Bool :=
  (c.step.rest.takeWhile fun ch => !(ch == ' ' || isBreak ch)).contains '!'

def tagToken (c : Cursor) : Except Fault (Token × Cursor) := do
  let (token,c) ←
    (if c.peekAt 1 == some '<' then do
      let (uri,c) ← tagUri (c.forward 2)
      if c.peek == some '>' then return (Token.tag none uri,c.step) else c.malformed
    else if c.gapAt 1 then return (Token.tag none "!",c.step)
    else do
      let (handle,c) ← if hasHandle c then tagHandle c else .ok ("!",c.step)
      let (rest,c) ← tagUri c
      return (Token.tag (some handle) rest,c) : Except Fault (Token × Cursor))
  if c.spaceOrEnd then return (token,c) else c.malformed

private def digitsOf (c : Cursor) : Except Fault (Nat × Cursor) :=
  let digits := c.rest.takeWhile Char.isDigit
  if digits.isEmpty then c.malformed
  else if Text.digitLimit < digits.length then
    .error (.noValue (Json.Problem.message (.integerTooLong digits.length)))
  else .ok (Text.ofDigits 10 (digits.map Json.digitOf),c.forward digits.length)

private def versionDirective (c : Cursor) : Except Fault (Directive × Cursor) := do
  let (major,c) ← digitsOf c.skipSpaces
  if c.peek != some '.' then c.malformed
  else do
    let (_,c) ← digitsOf c.step
    if c.spaceOrEnd then return (.version major,c) else c.malformed

private def handleDirective (c : Cursor) : Except Fault (Directive × Cursor) := do
  let (name,c) ← tagHandle c.skipSpaces
  if c.peek != some ' ' then c.malformed
  else do
    let (expansion,c) ← tagUri c.skipSpaces
    if c.spaceOrEnd then return (.handle name expansion,c) else c.malformed

def directiveToken (c : Cursor) : Except Fault (Token × Cursor) := do
  let c := c.step
  let name := nameOf c
  let c := c.forward name.length
  if name.isEmpty || !c.spaceOrEnd then c.malformed
  else do
    let (directive,c) ←
      match String.ofList name with
      | "YAML" => versionDirective c
      | "TAG" => handleDirective c
      | _ => .ok (Directive.other,c.skipWhile fun ch => !isBreak ch)
    let c := c.skipSpaces.skipComment
    if c.breakOrEnd then return (.directive directive,c.lineBreak.2) else c.malformed

structure PossibleKey where
  position : Nat
  required : Bool
  index : Nat
  line : Nat
  column : Nat
  deriving Repr

structure Lexer where
  cursor : Cursor
  tokens : List Token
  count : Nat
  flow : Nat
  indent : Int
  outer : List Int
  keyAllowed : Bool
  keys : List (Nat × PossibleKey)

namespace Lexer

def start (text : List Char) (behind : Option Fault) : Lexer :=
  let c := Cursor.start text behind
  ⟨if c.peek == some '\uFEFF' then c.step else c,[],0,0,-1,[],true,[]⟩

def emit (l : Lexer) (token : Token) : Lexer :=
  { l with tokens := token :: l.tokens,count := l.count + 1 }

-- Skips spaces, comments and line breaks; outside flow collections a new line allows a key again.
def toNextToken : Nat → Lexer → Lexer
  | 0,l => l
  | fuel + 1,l =>
    let c := l.cursor.skipSpaces.skipComment
    if c.next isBreak then
      toNextToken fuel { l with cursor := c.lineBreak.2,keyAllowed := l.keyAllowed || l.flow == 0 }
    else { l with cursor := c }

-- A key must be on one line and within 1024 characters.
private def isStale (l : Lexer) (key : PossibleKey) : Bool :=
  key.line != l.cursor.line || 1024 < l.cursor.index - key.index

def dropStaleKeys (l : Lexer) : Except Fault Lexer :=
  if l.keys.any fun entry => isStale l entry.2 && entry.2.required then malformed
  else .ok { l with keys := l.keys.filter fun entry => !isStale l entry.2 }

def possibleKey? (l : Lexer) : Option PossibleKey := l.keys.lookup l.flow

private def withoutKey (l : Lexer) : Lexer := { l with keys := l.keys.filter fun entry => entry.1 != l.flow }

-- Gives up the possible key of this depth, which must not be a required one.
def dropKey (l : Lexer) : Except Fault Lexer :=
  match l.possibleKey? with
  | some key => if key.required then malformed else .ok l.withoutKey
  | none => .ok l

def saveKey (l : Lexer) : Except Fault Lexer :=
  if l.keyAllowed then do
    let c := l.cursor
    let key : PossibleKey :=
      ⟨l.count,l.flow == 0 && l.indent == c.column,c.index,c.line,c.column⟩
    let l ← l.dropKey
    return { l with keys := (l.flow,key) :: l.keys }
  else .ok l

private def unwindTo (column : Int) : List Int → Lexer → Lexer
  | [],l => l
  | indent :: outer,l =>
    if column < l.indent then
      unwindTo column outer ({ l with indent := indent,outer := outer }.emit .blockEnd)
    else l

def unwind (column : Int) (l : Lexer) : Lexer := if l.flow == 0 then unwindTo column l.outer l else l

def openBlock (column : Nat) (l : Lexer) : Option Lexer :=
  if l.indent < column then some { l with outer := l.indent :: l.outer,indent := column } else none

private def insertAt (position : Nat) (token : Token) (l : Lexer) : Lexer :=
  let behind := l.count - position
  { l with tokens := l.tokens.take behind ++ token :: l.tokens.drop behind,count := l.count + 1 }

private def openWith (token : Token) (l : Lexer) : Lexer :=
  match l.openBlock l.cursor.column with
  | some opened => opened.emit token
  | none => l

private def indicator (token : Token) (width : Nat) (l : Lexer) : Lexer :=
  { l with cursor := l.cursor.forward width }.emit token

private def documentMark (token : Token) (l : Lexer) : Except Fault Lexer := do
  let l ← (l.unwind (-1)).dropKey
  return { l with keyAllowed := false }.indicator token 3

private def openFlow (token : Token) (l : Lexer) : Except Fault Lexer := do
  let l ← l.saveKey
  return { l with flow := l.flow + 1,keyAllowed := true }.indicator token 1

private def closeFlow (token : Token) (l : Lexer) : Except Fault Lexer := do
  let l ← l.dropKey
  return { l with flow := l.flow - 1,keyAllowed := false }.indicator token 1

private def blockEntry (l : Lexer) : Except Fault Lexer :=
  if l.flow == 0 && !l.keyAllowed then malformed
  else do
    let l := if l.flow == 0 then openWith .blockSequenceStart l else l
    let l ← { l with keyAllowed := true }.dropKey
    return l.indicator .blockEntry 1

private def explicitKey (l : Lexer) : Except Fault Lexer :=
  if l.flow == 0 && !l.keyAllowed then malformed
  else do
    let l := if l.flow == 0 then openWith .blockMappingStart l else l
    let l ← { l with keyAllowed := l.flow == 0 }.dropKey
    return l.indicator .key 1

-- A colon: what the possible key began with becomes the key, or the value has none.
private def valueMark (l : Lexer) : Except Fault Lexer :=
  match l.possibleKey? with
  | some key =>
    let l := { insertAt key.position .key l.withoutKey with keyAllowed := false }
    let l :=
      if l.flow == 0 then
        match l.openBlock key.column with
        | some opened => insertAt key.position .blockMappingStart opened
        | none => l
      else l
    .ok (l.indicator .value 1)
  | none =>
    if l.flow == 0 && !l.keyAllowed then malformed
    else
      let l := if l.flow == 0 then openWith .blockMappingStart l else l
      .ok ({ l with keyAllowed := l.flow == 0 }.indicator .value 1)

private def flowEntry (l : Lexer) : Except Fault Lexer := do
  let l ← { l with keyAllowed := true }.dropKey
  return l.indicator .flowEntry 1

private def keyable (read : Cursor → Except Fault (Token × Cursor)) (l : Lexer) : Except Fault Lexer := do
  let l ← l.saveKey
  let (token,c) ← read l.cursor
  return { l with cursor := c,keyAllowed := false }.emit token

private def scalarOf (plain : Bool) (read : Except Fault (List Char × Cursor)) :
    Except Fault (Token × Cursor) :=
  read.map fun r => (.scalar (String.ofList r.1) plain,r.2)

private def plainToken (l : Lexer) : Except Fault Lexer := do
  let l ← l.saveKey
  let (text,crossed,c) := plainScalar (l.flow != 0) l.indent (l.cursor.left + 1) [] l.cursor
  return { l with cursor := c,keyAllowed := crossed }.emit (.scalar (String.ofList text) true)

private def blockToken (folded : Bool) (l : Lexer) : Except Fault Lexer := do
  let l ← { l with keyAllowed := true }.dropKey
  let (token,c) ← scalarOf false (blockScalar folded l.indent l.cursor)
  return { l with cursor := c }.emit token

private def directiveLine (l : Lexer) : Except Fault Lexer := do
  let l ← (l.unwind (-1)).dropKey
  let (token,c) ← directiveToken l.cursor
  return { l with cursor := c,keyAllowed := false }.emit token

private def streamEnd (l : Lexer) : Except Fault Lexer := do
  let l ← (l.unwind (-1)).dropKey
  return l.emit .streamEnd

private def isIndicator (c : Char) : Bool := "-?:,[]\x7b\x7d#&*!|>'\"%@`".toList.contains c

private def plainBegins (l : Lexer) (ch : Char) : Bool :=
  (!isGap ch && !isIndicator ch) ||
    (!l.cursor.gapAt 1 && (ch == '-' || (l.flow == 0 && (ch == '?' || ch == ':'))))

private def unblocked (l : Lexer) : Except Fault Lexer :=
  match l.cursor.blocked with
  | some fault => .error fault
  | none => .ok l

def fetch (l : Lexer) : Except Fault Lexer := do
  let l ← (toNextToken (l.cursor.left + 1) l).unblocked
  let l ← l.dropStaleKeys
  let l := l.unwind l.cursor.column
  let c := l.cursor
  match c.peek with
  | none => l.streamEnd
  | some ch =>
    if ch == '%' && c.column == 0 then l.directiveLine
    else if c.column == 0 && c.atDocumentMark then
      l.documentMark (if ch == '-' then .documentStart else .documentEnd)
    else if ch == '[' then l.openFlow .flowSequenceStart
    else if ch == '\x7b' then l.openFlow .flowMappingStart
    else if ch == ']' then l.closeFlow .flowSequenceEnd
    else if ch == '\x7d' then l.closeFlow .flowMappingEnd
    else if ch == ',' then l.flowEntry
    else if ch == '-' && c.gapAt 1 then l.blockEntry
    else if ch == '?' && (l.flow != 0 || c.gapAt 1) then l.explicitKey
    else if ch == ':' && (l.flow != 0 || c.gapAt 1) then l.valueMark
    else if ch == '*' then l.keyable fun c => (anchorName c).map fun r => (.alias r.1,r.2)
    else if ch == '&' then l.keyable fun c => (anchorName c).map fun r => (.anchor r.1,r.2)
    else if ch == '!' then l.keyable tagToken
    else if ch == '|' && l.flow == 0 then l.blockToken false
    else if ch == '>' && l.flow == 0 then l.blockToken true
    else if ch == '\'' then l.keyable fun c => scalarOf false (quotedScalar false c)
    else if ch == '"' then l.keyable fun c => scalarOf false (quotedScalar true c)
    else if plainBegins l ch then l.plainToken
    else malformed

-- The tokens that are certain: one that may still turn out to be a key waits for what follows it.
private def certain (l : Lexer) : List Token :=
  let waiting := (l.keys.filter fun entry => !isStale l entry.2).map fun entry => entry.2.position
  l.tokens.reverse.take (waiting.foldl min l.count)

-- Every token but the last takes a character, so the length of the text is fuel enough.
def tokensFrom : Nat → Lexer → List Token × Option Fault
  | 0,l => (l.tokens.reverse,none)
  | fuel + 1,l =>
    match l.fetch >>= unblocked with
    | .error fault => (certain l,some fault)
    | .ok next =>
      if next.tokens.head? == some .streamEnd then (next.tokens.reverse,none) else tokensFrom fuel next

end Lexer

def tokens (text : List Char) (behind : Option Fault) : List Token × Option Fault :=
  Lexer.tokensFrom (text.length + 2) (Lexer.start text behind)

end TypedMvc.Yaml
