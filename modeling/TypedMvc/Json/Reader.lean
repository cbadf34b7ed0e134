import TypedMvc.Text.Number
import TypedMvc.Value.Order

namespace TypedMvc.Json

inductive Problem where
  | value
  | propertyName
  | comma
  | colon
  | extraData
  | unterminated
  | controlCharacter
  | unicodeEscape
  | escape
  | byteOrderMark
  | integerTooLong (digits : Nat)
  | tooDeep
  deriving DecidableEq, Repr

structure Fault where
  problem : Problem
  rest : List Char
  deriving Repr

def isSpace (c : Char) : Bool := c == ' ' || c == '\t' || c == '\n' || c == '\r'

def skip (cs : List Char) : List Char := cs.dropWhile isSpace

def isDigit (c : Char) : Bool := '0' ≤ c && c ≤ '9'

def digitOf (c : Char) : Nat := c.toNat - '0'.toNat

def hexDigit? (c : Char) : Option Nat :=
  if '0' ≤ c ∧ c ≤ '9' then some (c.toNat - '0'.toNat)
  else if 'a' ≤ c ∧ c ≤ 'f' then some (c.toNat - 'a'.toNat + 10)
  else if 'A' ≤ c ∧ c ≤ 'F' then some (c.toNat - 'A'.toNat + 10)
  else none

def hex4? (a b c d : Char) : Option Nat :=
  match hexDigit? a,hexDigit? b,hexDigit? c,hexDigit? d with
  | some p,some q,some r,some s => some (((p * 16 + q) * 16 + r) * 16 + s)
  | _,_,_,_ => none

def shortEscape? (c : Char) : Option Char :=
  match c with
  | '"' => some '"'
  | '\\' => some '\\'
  | '/' => some '/'
  | 'b' => some (Char.ofNat 8)
  | 'f' => some (Char.ofNat 12)
  | 'n' => some '\n'
  | 'r' => some '\r'
  | 't' => some '\t'
  | _ => none

def isHighSurrogate (n : Nat) : Bool := 0xD800 ≤ n && n ≤ 0xDBFF

def isLowSurrogate (n : Nat) : Bool := 0xDC00 ≤ n && n ≤ 0xDFFF

-- A code unit as a character; a surrogate without its partner has none and is replaced.
def unitChar (n : Nat) : Char :=
  if isHighSurrogate n || isLowSurrogate n then '\uFFFD' else Char.ofNat n

def joinSurrogates (high low : Nat) : Char := Char.ofNat (0x10000 + (high - 0xD800) * 0x400 + (low - 0xDC00))

def prepend (c : Char) (r : Except Fault (List Char × List Char)) :
    Except Fault (List Char × List Char) :=
  r.map fun read => (c :: read.1,read.2)

def stringBody (opened : List Char) : List Char → Except Fault (List Char × List Char)
  | [] => .error ⟨.unterminated,opened⟩
  | '"' :: rest => .ok ([],rest)
  | ['\\'] => .error ⟨.unterminated,opened⟩
  | '\\' :: 'u' :: a :: b :: c :: d :: '\\' :: 'u' :: e :: f :: g :: h :: next :: rest =>
    match hex4? a b c d with
    | none => .error ⟨.unicodeEscape,'u' :: a :: b :: c :: d :: '\\' :: 'u' :: e :: f :: g :: h :: next :: rest⟩
    | some unit =>
      if isHighSurrogate unit then
        match hex4? e f g h with
        | none => .error ⟨.unicodeEscape,'u' :: e :: f :: g :: h :: next :: rest⟩
        | some low =>
          if isLowSurrogate low then prepend (joinSurrogates unit low) (stringBody opened (next :: rest))
          else prepend (unitChar unit) (stringBody opened ('\\' :: 'u' :: e :: f :: g :: h :: next :: rest))
      else prepend (unitChar unit) (stringBody opened ('\\' :: 'u' :: e :: f :: g :: h :: next :: rest))
  | '\\' :: 'u' :: a :: b :: c :: d :: next :: rest =>
    match hex4? a b c d with
    | none => .error ⟨.unicodeEscape,'u' :: a :: b :: c :: d :: next :: rest⟩
    | some unit => prepend (unitChar unit) (stringBody opened (next :: rest))
  | '\\' :: 'u' :: rest => .error ⟨.unicodeEscape,'u' :: rest⟩
  | '\\' :: e :: rest =>
    match shortEscape? e with
    | some c => prepend c (stringBody opened rest)
    | none => .error ⟨.escape,'\\' :: e :: rest⟩
  | c :: rest =>
    if c.toNat ≤ 0x1F then .error ⟨.controlCharacter,c :: rest⟩ else prepend c (stringBody opened rest)

def fraction : List Char → List Char × List Char
  | '.' :: d :: rest => if isDigit d then (d :: rest).span isDigit else ([],'.' :: d :: rest)
  | cs => ([],cs)

def exponentDigits (negative : Bool) (cs back : List Char) : Option Int × List Char :=
  match cs with
  | d :: _ =>
    if isDigit d then
      let parts := cs.span isDigit
      (some (Text.withSign negative (Text.ofDigits 10 (parts.1.map digitOf))),parts.2)
    else (none,back)
  | [] => (none,back)

def exponent : List Char → Option Int × List Char
  | e :: '-' :: rest => if e == 'e' || e == 'E' then exponentDigits true rest (e :: '-' :: rest) else (none,e :: '-' :: rest)
  | e :: '+' :: rest => if e == 'e' || e == 'E' then exponentDigits false rest (e :: '+' :: rest) else (none,e :: '+' :: rest)
  | e :: rest => if e == 'e' || e == 'E' then exponentDigits false rest (e :: rest) else (none,e :: rest)
  | [] => (none,[])

def numberFrom (negative : Bool) (whole rest : List Char) : Except Fault (Value × List Char) :=
  let fractional := fraction rest
  let scaled := exponent fractional.2
  if fractional.1.isEmpty && scaled.1.isNone then
    if Text.digitLimit < whole.length then .error ⟨.integerTooLong whole.length,rest⟩
    else .ok (.int (Text.withSign negative (Text.ofDigits 10 (whole.map digitOf))),rest)
  else
    let digits := Text.ofDigits 10 ((whole ++ fractional.1).map digitOf)
    let power := scaled.1.getD 0 - fractional.1.length
    .ok (.float (Binary64.ofDecimal negative digits power),scaled.2)

def unsigned (start : List Char) (negative : Bool) : List Char → Except Fault (Value × List Char)
  | '0' :: rest => numberFrom negative ['0'] rest
  | c :: rest =>
    if isDigit c then
      let parts := (c :: rest).span isDigit
      numberFrom negative parts.1 parts.2
    else .error ⟨.value,start⟩
  | [] => .error ⟨.value,start⟩

def number (cs : List Char) : Except Fault (Value × List Char) :=
  match cs with
  | '-' :: rest => unsigned cs true rest
  | _ => unsigned cs false cs

def word : List Char → Option (Value × List Char)
  | 'n' :: 'u' :: 'l' :: 'l' :: rest => some (.null,rest)
  | 't' :: 'r' :: 'u' :: 'e' :: rest => some (.bool true,rest)
  | 'f' :: 'a' :: 'l' :: 's' :: 'e' :: rest => some (.bool false,rest)
  | 'N' :: 'a' :: 'N' :: rest => some (.float .nan,rest)
  | 'I' :: 'n' :: 'f' :: 'i' :: 'n' :: 'i' :: 't' :: 'y' :: rest => some (.float (.infinite false),rest)
  | '-' :: 'I' :: 'n' :: 'f' :: 'i' :: 'n' :: 'i' :: 't' :: 'y' :: rest => some (.float (.infinite true),rest)
  | _ => none

mutual

-- Each call spends one unit of fuel. A nested value takes two calls, one for itself and one for its first item or
-- member, so two units for each character are enough. The room is how much deeper values may be nested.
def value (fuel room : Nat) (cs : List Char) : Except Fault (Value × List Char) :=
  match fuel with
  | 0 => .error ⟨.value,cs⟩
  | fuel + 1 =>
    match cs with
    | '"' :: rest => (stringBody cs rest).map fun read => (.str (String.ofList read.1),read.2)
    | '[' :: rest =>
      if room = 0 then .error ⟨.tooDeep,cs⟩
      else
        match skip rest with
        | ']' :: after => .ok (.list [],after)
        | inner => (items fuel (room - 1) inner).map fun read => (.list read.1,read.2)
    | '\x7b' :: rest =>
      if room = 0 then .error ⟨.tooDeep,cs⟩
      else
        match skip rest with
        | '\x7d' :: after => .ok (.map [],after)
        | inner => (members fuel (room - 1) inner).map fun read => (.map (Value.mapping read.1),read.2)
    | _ =>
      match word cs with
      | some read => .ok read
      | none => number cs
termination_by structural fuel

def items (fuel room : Nat) (cs : List Char) : Except Fault (List Value × List Char) :=
  match fuel with
  | 0 => .error ⟨.value,cs⟩
  | fuel + 1 =>
    match value fuel room cs with
    | .error fault => .error fault
    | .ok (item,rest) =>
      match skip rest with
      | ']' :: after => .ok ([item],after)
      | ',' :: more => (items fuel room (skip more)).map fun read => (item :: read.1,read.2)
      | other => .error ⟨.comma,other⟩
termination_by structural fuel

def members (fuel room : Nat) (cs : List Char) : Except Fault (List (Value × Value) × List Char) :=
  match fuel with
  | 0 => .error ⟨.value,cs⟩
  | fuel + 1 =>
    match cs with
    | '"' :: body =>
      match stringBody cs body with
      | .error fault => .error fault
      | .ok (key,rest) =>
        match skip rest with
        | ':' :: after =>
          match value fuel room (skip after) with
          | .error fault => .error fault
          | .ok (item,rest) =>
            let entry := (Value.str (String.ofList key),item)
            match skip rest with
            | '\x7d' :: after => .ok ([entry],after)
            | ',' :: more => (members fuel room (skip more)).map fun read => (entry :: read.1,read.2)
            | other => .error ⟨.comma,other⟩
        | other => .error ⟨.colon,other⟩
    | other => .error ⟨.propertyName,other⟩
termination_by structural fuel

end

def depthLimit : Nat := 985

def read (text : List Char) : Except Fault Value :=
  match text with
  | '\uFEFF' :: _ => .error ⟨.byteOrderMark,text⟩
  | _ =>
    match value (2 * text.length + 2) depthLimit (skip text) with
    | .error fault => .error fault
    | .ok (v,rest) => if (skip rest).isEmpty then .ok v else .error ⟨.extraData,skip rest⟩

def Problem.message : Problem → String
  | .value => "Expecting value"
  | .propertyName => "Expecting property name enclosed in double quotes"
  | .comma => "Expecting ',' delimiter"
  | .colon => "Expecting ':' delimiter"
  | .extraData => "Extra data"
  | .unterminated => "Unterminated string starting at"
  | .controlCharacter => "Invalid control character at"
  | .unicodeEscape => "Invalid \\uXXXX escape"
  | .escape => "Invalid \\escape"
  | .byteOrderMark => "Unexpected UTF-8 BOM (decode using utf-8-sig)"
  | .integerTooLong digits =>
    "Exceeds the limit (4300 digits) for integer string conversion: value has " ++ toString digits ++
      " digits; use sys.set_int_max_str_digits() to increase the limit"
  | .tooDeep => "Nested too deep"

def Fault.place (text : List Char) (fault : Fault) : Nat × Nat × Nat :=
  let offset := text.length - fault.rest.length
  let before := text.take offset
  (before.count '\n' + 1,(before.reverse.takeWhile (· != '\n')).length + 1,offset)

def Fault.message (text : List Char) (fault : Fault) : String :=
  match fault.problem with
  | .integerTooLong _ => fault.problem.message
  | problem =>
    let place := fault.place text
    problem.message ++ ": line " ++ toString place.1 ++ " column " ++ toString place.2.1 ++
      " (char " ++ toString place.2.2 ++ ")"

end TypedMvc.Json
