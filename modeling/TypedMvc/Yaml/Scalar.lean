import TypedMvc.Json.Reader
import TypedMvc.Yaml.Cursor

namespace TypedMvc.Yaml

def malformed : Except Fault α := .error .malformed

def escapeChar? (c : Char) : Option Char :=
  match c with
  | '0' => some (Char.ofNat 0)
  | 'a' => some (Char.ofNat 7)
  | 'b' => some (Char.ofNat 8)
  | 't' => some '\t'
  | '\t' => some '\t'
  | 'n' => some '\n'
  | 'v' => some (Char.ofNat 11)
  | 'f' => some (Char.ofNat 12)
  | 'r' => some '\r'
  | 'e' => some (Char.ofNat 27)
  | ' ' => some ' '
  | '"' => some '"'
  | '\\' => some '\\'
  | '/' => some '/'
  | 'N' => some (Char.ofNat 0x85)
  | '_' => some (Char.ofNat 0xA0)
  | 'L' => some (Char.ofNat 0x2028)
  | 'P' => some (Char.ofNat 0x2029)
  | _ => none

def escapeLength? (c : Char) : Option Nat :=
  match c with
  | 'x' => some 2
  | 'u' => some 4
  | 'U' => some 8
  | _ => none

def hexValue? (digits : List Char) : Option Nat :=
  digits.foldl
    (fun known digit =>
      match known,Json.hexDigit? digit with
      | some n,some d => some (n * 16 + d)
      | _,_ => none)
    (some 0)

def charOfCode (n : Nat) : Except Fault Char :=
  if 0x80000000 ≤ n then .error (.misused .beyondRange)
  else if 0x110000 ≤ n then .error (.noValue "chr() arg not in range(0x110000)")
  else .ok (Json.unitChar n)

def quotedBreaks : Nat → Cursor → Except Fault (List Char × Cursor)
  | 0,c => .ok ([],c)
  | fuel + 1,c =>
    if c.atDocumentMark then c.malformed
    else
      let c := c.skipWhile fun ch => ch == ' ' || ch == '\t'
      if c.next isBreak then do
        let (read,c) := c.lineBreak
        let (more,c) ← quotedBreaks fuel c
        return (read ++ more,c)
      else .ok ([],c)

def quotedBlanks (c : Cursor) : Except Fault (List Char × Cursor) :=
  let blanks := c.rest.takeWhile fun ch => ch == ' ' || ch == '\t'
  let c := c.forward blanks.length
  match c.peek with
  | none => c.malformed
  | some ch =>
    if isBreak ch then do
      let (first,c) := c.lineBreak
      let (more,c) ← quotedBreaks (c.left + 1) c
      if first != ['\n'] then return (first ++ more,c)
      else if more.isEmpty then return ([' '],c)
      else return (more,c)
    else .ok (blanks,c)

def escaped (c : Cursor) : Except Fault (List Char × Cursor) :=
  match c.peek with
  | none => c.malformed
  | some ch =>
    match escapeChar? ch,escapeLength? ch with
    | some stands,_ => .ok ([stands],c.step)
    | none,some length =>
      let digits := c.step.rest.take length
      match hexValue? digits with
      | none => c.malformed
      | some code =>
        let c := c.step.forward digits.length
        if digits.length < length then c.malformed
        else do
          let stands ← charOfCode code
          return ([stands],c)
    | none,none =>
      if isBreak ch then
        let c := c.lineBreak.2
        quotedBreaks (c.left + 1) c
      else c.malformed

def quotedBody (double : Bool) : Nat → Cursor → Except Fault (List Char × Cursor)
  | 0,c => c.malformed
  | fuel + 1,c =>
    match c.peek with
    | none => c.malformed
    | some ch =>
      if isGap ch then do
        let (read,c) ← quotedBlanks c
        let (more,c) ← quotedBody double fuel c
        return (read ++ more,c)
      else if double && ch == '"' then .ok ([],c.step)
      else if !double && ch == '\'' then
        if c.peekAt 1 == some '\'' then do
          let (more,c) ← quotedBody double fuel (c.forward 2)
          return ('\'' :: more,c)
        else .ok ([],c.step)
      else if double && ch == '\\' then do
        let (read,c) ← escaped c.step
        let (more,c) ← quotedBody double fuel c
        return (read ++ more,c)
      else do
        let (more,c) ← quotedBody double fuel c.step
        return (ch :: more,c)

def quotedScalar (double : Bool) (c : Cursor) : Except Fault (List Char × Cursor) :=
  quotedBody double (c.left + 1) c.step

inductive Chomping where
  | clip
  | strip
  | keep
  deriving DecidableEq, Repr

private def chomping? (c : Cursor) : Option Chomping :=
  match c.peek with
  | some '+' => some .keep
  | some '-' => some .strip
  | _ => none

private def increment? (c : Cursor) : Option Nat :=
  match c.peek with
  | some ch => if ch.isDigit then some (ch.toNat - '0'.toNat) else none
  | none => none

-- The header of a block scalar: how its end is kept and how deep it is, in either order.
def blockHeader (c : Cursor) : Except Fault ((Chomping × Option Nat) × Cursor) := do
  let (chomping,c) :=
    match chomping? c with
    | some chomping => (some chomping,c.step)
    | none => (none,c)
  let (increment,c) :=
    match increment? c with
    | some increment => (some increment,c.step)
    | none => (none,c)
  let (chomping,c) :=
    match chomping,increment,chomping? c with
    | none,some _,some chomping => (some chomping,c.step)
    | chomping,_,_ => (chomping,c)
  if increment == some 0 then c.malformed
  else if !c.spaceOrEnd then c.malformed
  else
    let c := c.skipSpaces.skipComment
    if c.breakOrEnd then return ((chomping.getD .clip,increment),c.lineBreak.2) else c.malformed

def blockIndentation : Nat → Cursor → Nat → List Char × Nat × Cursor
  | 0,c,widest => ([],widest,c)
  | fuel + 1,c,widest =>
    match c.peek with
    | some ch =>
      if ch == ' ' then blockIndentation fuel c.step (max widest c.step.column)
      else if isBreak ch then
        let (read,c) := c.lineBreak
        let (more,widest,c) := blockIndentation fuel c widest
        (read ++ more,widest,c)
      else ([],widest,c)
    | none => ([],widest,c)

private def skipMargin (indent : Nat) (c : Cursor) : Cursor :=
  c.forward ((c.rest.take (indent - c.column)).takeWhile (· == ' ')).length

def blockBreaks (indent : Nat) : Nat → Cursor → List Char × Cursor
  | 0,c => ([],c)
  | fuel + 1,c =>
    let c := skipMargin indent c
    if c.next isBreak then
      let (read,c) := c.lineBreak
      let (more,c) := blockBreaks indent fuel c
      (read ++ more,c)
    else ([],c)

private def isTabOrSpace (c : Char) : Bool := c == ' ' || c == '\t'

-- The lines of a block from one that stands at the margin, with the breaks before it; what is given back
-- with the text is the last line break and the empty lines after it.
def blockLines (folded : Bool) (indent : Nat) :
    Nat → List Char → Cursor → List Char × List Char × List Char × Cursor
  | 0,breaks,c => (breaks,[],[],c)
  | fuel + 1,breaks,c =>
    if c.column == indent && c.peek.isSome then
      let dark := !c.next isTabOrSpace
      let line := c.rest.takeWhile fun ch => !isBreak ch
      let c := c.forward line.length
      let (ended,c) := c.lineBreak
      let (after,c) := blockBreaks indent (c.left + 1) c
      if c.column == indent && c.peek.isSome then
        let joint :=
          if folded && ended == ['\n'] && dark && !c.next isTabOrSpace then
            (if after.isEmpty then [' '] else [])
          else ended
        let (more,last,trailing,c) := blockLines folded indent fuel after c
        (breaks ++ line ++ joint ++ more,last,trailing,c)
      else (breaks ++ line,ended,after,c)
    else ([],[],breaks,c)

def blockScalar (folded : Bool) (indent : Int) (c : Cursor) : Except Fault (List Char × Cursor) := do
  let ((chomping,increment),c) ← blockHeader c.step
  let least := (max (indent + 1) 1).toNat
  let (margin,breaks,c) :=
    match increment with
    | none =>
      let (breaks,widest,c) := blockIndentation (c.left + 1) c 0
      (max least widest,breaks,c)
    | some increment =>
      let margin := least + increment - 1
      let (breaks,c) := blockBreaks margin (c.left + 1) c
      (margin,breaks,c)
  let (text,last,trailing,c) := blockLines folded margin (c.left + 1) breaks c
  match chomping with
  | .strip => return (text,c)
  | .clip => return (text ++ last,c)
  | .keep => return (text ++ last ++ trailing,c)

private def plainStops (flow : Bool) : List Char → Bool
  | [] => true
  | ':' :: rest =>
    match rest with
    | [] => true
    | next :: _ =>
      isGap next || (flow && (next == ',' || next == '[' || next == ']' || next == '\x7b' || next == '\x7d'))
  | c :: _ =>
    isGap c ||
      (flow && (c == ',' || c == '?' || c == '[' || c == ']' || c == '\x7b' || c == '\x7d'))

private def plainPiece (flow : Bool) : List Char → List Char
  | [] => []
  | c :: rest => if plainStops flow (c :: rest) then [] else c :: plainPiece flow rest

-- The breaks after the first one; none if a mark of the document follows.
private def plainBreaks : Nat → Cursor → Option (List Char) × Cursor
  | 0,c => (some [],c)
  | fuel + 1,c =>
    match c.peek with
    | some ch =>
      if ch == ' ' then plainBreaks fuel c.step
      else if isBreak ch then
        let (read,c) := c.lineBreak
        if c.atDocumentMark then (none,c)
        else
          let (more,c) := plainBreaks fuel c
          (more.map (read ++ ·),c)
      else (some [],c)
    | none => (some [],c)

private def plainGap (c : Cursor) : List Char × Bool × Cursor :=
  let spaces := c.rest.takeWhile (· == ' ')
  let c := c.forward spaces.length
  if c.next isBreak then
    let (first,c) := c.lineBreak
    if c.atDocumentMark then ([],true,c)
    else
      match plainBreaks (c.left + 1) c with
      | (none,c) => ([],true,c)
      | (some more,c) =>
        if first != ['\n'] then (first ++ more,true,c)
        else if more.isEmpty then ([' '],true,c)
        else (more,true,c)
  else (spaces,false,c)

-- A plain scalar inside a block of the given indentation, and whether it was left over a line break, so
-- that a key may follow.
def plainScalar (flow : Bool) (indent : Int) : Nat → List Char → Cursor → List Char × Bool × Cursor
  | 0,_,c => ([],false,c)
  | fuel + 1,gap,c =>
    if c.peek == some '#' then ([],false,c)
    else
      let piece := plainPiece flow c.rest
      if piece.isEmpty then ([],false,c)
      else
        let (spaces,crossed,c) := plainGap (c.forward piece.length)
        if spaces.isEmpty || c.peek == some '#' || (!flow && (c.column : Int) < indent + 1) then
          (gap ++ piece,crossed,c)
        else
          let (more,crossedLater,c) := plainScalar flow indent fuel spaces c
          (gap ++ piece ++ more,(if more.isEmpty then crossed else crossedLater),c)

end TypedMvc.Yaml
