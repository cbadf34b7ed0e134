import TypedMvc.Value.Text
import TypedMvc.Yaml.Meaning

namespace TypedMvc.Yaml

def width : Nat := 80

structure Pen where
  written : List Char
  column : Nat
  afterSpace : Bool
  afterIndent : Bool

namespace Pen

def start : Pen := ⟨[],0,true,true⟩

def put (cs : List Char) (p : Pen) : Pen :=
  { p with written := cs.reverse ++ p.written,column := p.column + cs.length }

def lineBreak (p : Pen) : Pen := ⟨'\n' :: p.written,0,true,true⟩

def toMargin (indent : Nat) (p : Pen) : Pen :=
  let p :=
    if !p.afterIndent || indent < p.column || (p.column == indent && !p.afterSpace) then p.lineBreak else p
  if p.column < indent then
    { p.put (List.replicate (indent - p.column) ' ') with afterSpace := true }
  else p

def indicator (text : List Char) (needSpace indents : Bool) (p : Pen) : Pen :=
  let p' := p.put (if p.afterSpace || !needSpace then text else ' ' :: text)
  { p' with afterSpace := false,afterIndent := p.afterIndent && indents }

end Pen

structure Look where
  multiline : Bool
  plain : Bool
  single : Bool
  deriving DecidableEq, Repr

private def isWriterBreak (c : Char) : Bool := c == '\n' || c == '\x85' || c == '\u2028' || c == '\u2029'

private def isWriterGap (c : Char) : Bool := c == Char.ofNat 0 || isGap c

private def isShown (c : Char) : Bool := c == '\n' || (0x20 ≤ c.toNat && c.toNat ≤ 0x7E)

private def hasPair (first second : Char → Bool) : List Char → Bool
  | a :: b :: rest => (first a && second b) || hasPair first second (b :: rest)
  | _ => false

private def isSpaceChar (c : Char) : Bool := c == ' '

private def leadingIndicators : List Char := "#,[]\x7b\x7d&*!|>'\"%@`".toList

private def hasBlockMark (before : Char) : List Char → Bool
  | [] => false
  | c :: rest =>
    (c == ':' && (match rest with | [] => true | next :: _ => isWriterGap next)) ||
      (c == '#' && isWriterGap before) || hasBlockMark c rest

private def blockMarks (cs : List Char) : Bool :=
  match cs with
  | [] => false
  | c :: rest =>
    let followed := match rest with | [] => true | next :: _ => isWriterGap next
    ['-','-','-'].isPrefixOf cs || ['.','.','.'].isPrefixOf cs || leadingIndicators.contains c ||
      ((c == '?' || c == ':' || c == '-') && followed) || hasBlockMark c rest

private def endsWith (p : Char → Bool) (cs : List Char) : Bool :=
  (match cs.head? with | some c => p c | none => false) ||
    (match cs.getLast? with | some c => p c | none => false)

def lookOf (text : String) : Look :=
  let cs := text.toList
  if cs.isEmpty then ⟨false,true,true⟩
  else
    let breaks := cs.any isWriterBreak
    let special := hasPair isSpaceChar isWriterBreak cs || cs.any fun c => !isShown c
    let single := !(hasPair isWriterBreak isSpaceChar cs || special)
    let plain := single && !breaks && !endsWith (fun c => isSpaceChar c || isWriterBreak c) cs
    ⟨breaks,plain && !blockMarks cs,single⟩

-- Words of a plain scalar with the spaces between them; a single space may become a line break.
private def plainWords (split : Bool) (indent : Nat) : Nat → List Char → Pen → Pen
  | 0,_,p => p
  | _,[],p => p
  | fuel + 1,cs,p =>
    let word := cs.takeWhile (· != ' ')
    let rest := cs.dropWhile (· != ' ')
    let p := p.put word
    let spaces := rest.takeWhile (· == ' ')
    let rest := rest.dropWhile (· == ' ')
    let p :=
      if spaces.length == 1 && width < p.column && split then
        { p.toMargin indent with afterSpace := false,afterIndent := false }
      else p.put spaces
    plainWords split indent fuel rest p

def putPlain (split : Bool) (indent : Nat) (cs : List Char) (p : Pen) : Pen :=
  if cs.isEmpty then p
  else
    let p := if p.afterSpace then p else p.put [' ']
    plainWords split indent (cs.length + 1) cs { p with afterSpace := false,afterIndent := false }

private def singleRuns (split : Bool) (indent total : Nat) : Nat → List Char → Pen → Pen
  | 0,_,p => p
  | _,[],p => p
  | fuel + 1,c :: rest,p =>
    if c == ' ' then
      let spaces := (c :: rest).takeWhile (· == ' ')
      let after := (c :: rest).dropWhile (· == ' ')
      let inside := rest.length + 1 != total && !after.isEmpty
      let p :=
        if spaces.length == 1 && width < p.column && split && inside then p.toMargin indent else p.put spaces
      singleRuns split indent total fuel after p
    else if isWriterBreak c then
      let breaks := (c :: rest).takeWhile isWriterBreak
      let p := if c == '\n' then p.lineBreak else p
      let p := breaks.foldl (fun p _ => p.lineBreak) p
      singleRuns split indent total fuel ((c :: rest).dropWhile isWriterBreak) (p.toMargin indent)
    else if c == '\'' then singleRuns split indent total fuel rest (p.put ['\'','\''])
    else
      let isRun (c : Char) : Bool := c != ' ' && !isWriterBreak c && c != '\''
      singleRuns split indent total fuel ((c :: rest).dropWhile isRun) (p.put ((c :: rest).takeWhile isRun))

def putSingle (split : Bool) (indent : Nat) (cs : List Char) (p : Pen) : Pen :=
  let p := p.indicator ['\''] true false
  (singleRuns split indent cs.length (cs.length + 1) cs p).indicator ['\''] false false

private def escapeLetter? (c : Char) : Option Char :=
  match c.toNat with
  | 0x00 => some '0'
  | 0x07 => some 'a'
  | 0x08 => some 'b'
  | 0x09 => some 't'
  | 0x0A => some 'n'
  | 0x0B => some 'v'
  | 0x0C => some 'f'
  | 0x0D => some 'r'
  | 0x1B => some 'e'
  | 0x22 => some '"'
  | 0x5C => some '\\'
  | 0x85 => some 'N'
  | 0xA0 => some '_'
  | 0x2028 => some 'L'
  | 0x2029 => some 'P'
  | _ => none

def escapeText (c : Char) : List Char :=
  match escapeLetter? c with
  | some letter => ['\\',letter]
  | none =>
    let n := c.toNat
    (if n ≤ 0xFF then "\\x" ++ Text.hexUpper 2 n
      else if n ≤ 0xFFFF then "\\u" ++ Text.hexUpper 4 n
      else "\\U" ++ Text.hexUpper 8 n).toList

private def needsEscape (c : Char) : Bool :=
  c == '"' || c == '\\' || !(0x20 ≤ c.toNat && c.toNat ≤ 0x7E)

private def foldLine (indent : Nat) (cs : List Char) (p : Pen) : Pen :=
  { (p.put (cs ++ ['\\'])).toMargin indent with afterSpace := false,afterIndent := false }

-- A space at the start of a folded line is escaped.
private def putBlankMark (blank : Bool) (p : Pen) : Pen := if blank then p.put ['\\'] else p

private def doubleFrom (split : Bool) (indent total : Nat) : Nat → List Char → List Char → Pen → Pen
  | _,[],run,p => p.put run.reverse
  | position,c :: rest,run,p =>
    let mayFold := split && 0 < position && position + 1 < total
    if needsEscape c then
      let p := (p.put run.reverse).put (escapeText c)
      let p :=
        if mayFold && width + 1 < p.column then
          putBlankMark (rest.head? == some ' ') (foldLine indent [] p)
        else p
      doubleFrom split indent total (position + 1) rest [] p
    else if mayFold && (c == ' ' || run.isEmpty) && width < p.column + run.length then
      let p := putBlankMark (c == ' ') (foldLine indent run.reverse p)
      doubleFrom split indent total (position + 1) rest [c] p
    else doubleFrom split indent total (position + 1) rest (c :: run) p

def putDouble (split : Bool) (indent : Nat) (cs : List Char) (p : Pen) : Pen :=
  let p := p.indicator ['"'] true false
  (doubleFrom split indent cs.length 0 cs [] p).indicator ['"'] false false

-- A text in the simplest way that reads back as the text.
def putText (split : Bool) (indent : Nat) (text : String) (p : Pen) : Pen :=
  let look := lookOf text
  if kindOf text == .str && look.plain then putPlain split indent text.toList p
  else if look.single then putSingle split indent text.toList p
  else putDouble split indent text.toList p

-- A number always has a point before its exponent.
def floatText (x : Binary64) : String :=
  match x with
  | .nan => ".nan"
  | .infinite negative => if negative then "-.inf" else ".inf"
  | x =>
    let text := (Text.floatText x).toList
    if text.contains '.' then String.ofList text
    else
      String.ofList
        (text.takeWhile (· != 'e') ++ (if text.contains 'e' then ['.','0'] else []) ++
          text.dropWhile (· != 'e'))

private def bareText? : Value → Option String
  | .null => some "null"
  | .bool b => some (if b then "true" else "false")
  | .int i => some (Text.integerText i)
  | .float x => some (floatText x)
  | .bytes content => some (Value.bytes content).text
  | .date d => some d.text
  | .moment m => some m.text
  | _ => none

private def putScalar (split : Bool) (indent : Nat) (v : Value) (p : Pen) : Pen :=
  match bareText? v with
  | some text => putPlain split indent text.toList p
  | none => putText split indent v.text p

private def isSimpleKey : Value → Bool
  | .str s => s != "" && !(lookOf s).multiline && s.length + 5 < 128
  | .list items => items.isEmpty
  | .map entries => entries.isEmpty
  | _ => true

private def deeper (indent : Option Nat) : Nat := (indent.map (· + 2)).getD 0

private def putEmpty (opening closing : Char) (p : Pen) : Pen :=
  { p.indicator [opening] true false with afterSpace := true }.indicator [closing] false false

mutual

-- A node inside a block of the given indentation; a list right behind a key is not indented further.
private def putNode (indent : Option Nat) (inMapping split : Bool) : Value → Pen → Pen
  | .list [],p => putEmpty '[' ']' p
  | .tuple [],p => putEmpty '[' ']' p
  | .set [],p => putEmpty '[' ']' p
  | .map [],p => putEmpty '\x7b' '\x7d' p
  | .list items,p => putItems (if inMapping && !p.afterIndent then indent.getD 0 else deeper indent) items p
  | .tuple items,p => putItems (if inMapping && !p.afterIndent then indent.getD 0 else deeper indent) items p
  | .set items,p => putItems (if inMapping && !p.afterIndent then indent.getD 0 else deeper indent) items p
  | .map entries,p => putEntries (deeper indent) entries p
  | .numbered _ collection,p => putNode indent inMapping split collection p
  | v,p => putScalar split (indent.getD 0 + 2) v p
termination_by structural v => v

private def putItems (indent : Nat) : List Value → Pen → Pen
  | [],p => p
  | item :: rest,p =>
    let p := (p.toMargin indent).indicator ['-'] true true
    putItems indent rest (putNode (some indent) false true item p)
termination_by structural items => items

private def putEntries (indent : Nat) : List (Value × Value) → Pen → Pen
  | [],p => p
  | (key,item) :: rest,p =>
    let p := p.toMargin indent
    let p :=
      if isSimpleKey key then (putNode (some indent) true false key p).indicator [':'] false false
      else
        let p := putNode (some indent) true true key (p.indicator ['?'] true true)
        (p.toMargin indent).indicator [':'] true true
    putEntries indent rest (putNode (some indent) true true item p)
termination_by structural entries => entries

end

def document (v : Value) : String :=
  String.ofList ((putNode none false true v Pen.start).toMargin 0).written.reverse

end TypedMvc.Yaml
