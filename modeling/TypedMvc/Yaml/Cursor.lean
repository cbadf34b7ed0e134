import TypedMvc.Failure

namespace TypedMvc.Yaml

-- Why a document has no value: its bytes are no text, it breaks the grammar, a scalar stands for no number,
-- date or character, or a tag asks for what its scalar cannot give.
inductive Fault where
  | encoding (fault : Text.Utf8Fault)
  | malformed
  | noValue (message : String)
  | misused (fault : TypedMvc.Fault)
  deriving Repr

def isBreak (c : Char) : Bool := c == '\n' || c == '\r' || c == '\x85' || c == '\u2028' || c == '\u2029'

def isGap (c : Char) : Bool := c == ' ' || c == '\t' || isBreak c

def isNameChar (c : Char) : Bool := c.isAlphanum || c == '-' || c == '_'

def isDocumentChar (c : Char) : Bool :=
  let n := c.toNat
  n == 0x9 || n == 0xA || n == 0xD || (0x20 ≤ n && n ≤ 0x7E) || n == 0x85 || (0xA0 ≤ n && n ≤ 0xD7FF) ||
    (0xE000 ≤ n && n ≤ 0xFFFD) || 0x10000 ≤ n

structure Cursor where
  rest : List Char
  left : Nat
  index : Nat
  line : Nat
  column : Nat
  behind : Option Fault
  deriving Repr

namespace Cursor

def start (text : List Char) (behind : Option Fault) : Cursor := ⟨text,text.length,0,0,0,behind⟩

def blocked (c : Cursor) : Option Fault := if c.rest.isEmpty then c.behind else none

def malformed (c : Cursor) : Except Fault α := .error (c.blocked.getD .malformed)

def peek (c : Cursor) : Option Char := c.rest.head?

def peekAt (c : Cursor) (offset : Nat) : Option Char := c.rest[offset]?

def step (c : Cursor) : Cursor :=
  match c.rest with
  | [] => c
  | ch :: rest =>
    let next := { c with rest := rest,left := c.left - 1,index := c.index + 1 }
    if isBreak ch then { next with line := c.line + 1,column := 0 }
    else if ch == '\uFEFF' then next
    else { next with column := c.column + 1 }

def forward : Nat → Cursor → Cursor
  | 0,c => c
  | count + 1,c => forward count c.step

def skipWhile (p : Char → Bool) (c : Cursor) : Cursor := c.forward (c.rest.takeWhile p).length

def next (p : Char → Bool) (c : Cursor) : Bool :=
  match c.peek with
  | some ch => p ch
  | none => false

def endsAt (p : Char → Bool) (offset : Nat) (c : Cursor) : Bool :=
  match c.peekAt offset with
  | some ch => p ch
  | none => true

def gapAt (offset : Nat) (c : Cursor) : Bool := c.endsAt isGap offset

def spaceOrEnd (c : Cursor) : Bool := c.endsAt (fun ch => ch == ' ' || isBreak ch) 0

def breakOrEnd (c : Cursor) : Bool := c.endsAt isBreak 0

-- Takes one line break: all of them read as a line feed but the two of Unicode, which stay.
def lineBreak (c : Cursor) : List Char × Cursor :=
  match c.peek with
  | some ch =>
    if isBreak ch then ((if ch == '\u2028' || ch == '\u2029' then [ch] else ['\n']),c.step) else ([],c)
  | none => ([],c)

def startsWith (text : List Char) (c : Cursor) : Bool := text.isPrefixOf c.rest

def atDocumentMark (c : Cursor) : Bool :=
  (c.startsWith ['-','-','-'] || c.startsWith ['.','.','.']) && c.gapAt 3

def skipSpaces (c : Cursor) : Cursor := c.skipWhile (· == ' ')

def skipComment (c : Cursor) : Cursor :=
  if c.peek == some '#' then c.skipWhile fun ch => !isBreak ch else c

end Cursor

-- The text that can be read, and what is wrong behind it. It is taken in pieces when the reader comes to them, so a
-- document may break off before anybody sees what is wrong with its later bytes.
structure Source where
  text : List Char
  behind : Option Fault
  deriving Repr

namespace Source

def blockSize : Nat := 8192

def pieceSize : Nat := 4096

def pieceOf (index : Nat) : Nat := max 1 (index / pieceSize)

-- Whether the bytes from the fault on could be the start of a longer sequence: an incomplete one, or the first
-- two bytes of a surrogate, which is refused only when its third byte is due.
private def awaitsMore (content : List UInt8) (fault : Text.Utf8Fault) : Bool :=
  match fault.problem,content.drop fault.offset with
  | .endOfData,_ => true
  | .continuationByte,[0xED,second] => 0xA0 ≤ second && second ≤ 0xBF
  | _,_ => false

private def shownAt (content : List UInt8) (fault : Text.Utf8Fault) : Nat :=
  match fault.problem,content.drop fault.offset with
  | .startByte,_ => fault.offset
  | _,first :: second :: _ =>
    if first == 0xED && 0xA0 ≤ second && second ≤ 0xBF then fault.offset + 2
    else fault.offset + fault.bytes.length
  | _,_ => fault.offset + fault.bytes.length

private def goesOn (byte : UInt8) : Bool := 0x80 ≤ byte && byte ≤ 0xBF

private def leftOpen (content : List UInt8) (place : Nat) : Nat :=
  match content.drop (place - 3) with
  | _ :: second :: third :: next :: _ =>
    if !goesOn next then 0 else if !goesOn third then 1 else if !goesOn second then 2 else 3
  | _ => 0

def decodedFrom (content : List UInt8) (fault : Text.Utf8Fault) : Nat :=
  let block := shownAt content fault / blockSize * blockSize
  if awaitsMore content fault || fault.offset < block then fault.offset
  else if block == 0 || fault.offset == block then block
  else block - leftOpen content block

private def textOf (bytes : List UInt8) : List Char :=
  match Text.decodeUtf8 bytes with
  | .ok text => Text.universalNewlines text.toList
  | .error _ => []

private def certainLength (bytes : List UInt8) : Nat :=
  (textOf bytes).length - (if bytes.getLast? == some 0x0D then 1 else 0)

private def before (piece : Nat) (fault : Fault) (text : List Char) : Source :=
  ⟨if piece = 1 then [] else text.take (piece * pieceSize),some fault⟩

private def upTo (broken : Option (Nat × Fault)) (text : List Char) : Source :=
  let strange := (text.findIdx? fun ch => !isDocumentChar ch).map pieceOf
  match broken,strange with
  | none,none => ⟨text,none⟩
  | none,some piece => before piece .malformed text
  | some (piece,fault),none => before piece fault text
  | some (piece,fault),some other =>
    if piece ≤ other then before piece fault text else before other .malformed text

def ofBytes (content : List UInt8) : Source :=
  match Text.decodeUtf8 content with
  | .ok text => upTo none (Text.universalNewlines text.toList)
  | .error fault =>
    let start := decodedFrom content fault
    let piece := pieceOf (certainLength (content.take start))
    upTo (some (piece,.encoding { fault with offset := fault.offset - start }))
      (textOf (content.take fault.offset))

end Source
end TypedMvc.Yaml
