namespace TypedMvc.Text

def isBlank (c : Char) : Bool :=
  let n := c.toNat
  (0x9 ≤ n && n ≤ 0xD) || (0x1C ≤ n && n ≤ 0x20) || n == 0x85 || n == 0xA0 || n == 0x1680 ||
    (0x2000 ≤ n && n ≤ 0x200A) || n == 0x2028 || n == 0x2029 || n == 0x202F || n == 0x205F || n == 0x3000

-- The blank characters that may stand around a number: the information separators may not.
def isNumberBlank (c : Char) : Bool := isBlank c && !(0x1C ≤ c.toNat && c.toNat ≤ 0x1F)

def trimBy (blank : Char → Bool) (cs : List Char) : List Char :=
  ((cs.dropWhile blank).reverse.dropWhile blank).reverse

def trim (cs : List Char) : List Char := trimBy isBlank cs

def isAllBlank (cs : List Char) : Bool := cs.all isBlank

theorem trim_of_isAllBlank {cs : List Char} (blank : isAllBlank cs = true) : trim cs = [] := by
  have skipped : cs.dropWhile isBlank = [] := by
    induction cs with
    | nil => rfl
    | cons c rest ih =>
      rw [isAllBlank,List.all_cons,Bool.and_eq_true] at blank
      rw [List.dropWhile_cons_of_pos blank.1,ih blank.2]
  rw [trim,trimBy,skipped]
  rfl

def isLineBreak (c : Char) : Bool :=
  let n := c.toNat
  (0xA ≤ n && n ≤ 0xD) || (0x1C ≤ n && n ≤ 0x1E) || n == 0x85 || n == 0x2028 || n == 0x2029

-- A final break ends the last line and starts none.
def lines : List Char → List (List Char)
  | [] => []
  | '\r' :: '\n' :: rest => [] :: lines rest
  | c :: rest =>
    if isLineBreak c then [] :: lines rest
    else
      match lines rest with
      | [] => [[c]]
      | first :: more => (c :: first) :: more

def unlines (ls : List (List Char)) : List Char := List.intercalate ['\n'] ls

def indentLine (margin : List Char) (line : List Char) : List Char :=
  if isAllBlank line then [] else margin ++ line

def indentBlock (margin : List Char) (text : List Char) : List Char :=
  unlines ((lines text).map (indentLine margin))

-- Each script has ten consecutive code points for its digits, so the zeros are enough.
def digitZeros : List Nat :=
  [
    0x30,0x660,0x6F0,0x7C0,0x966,0x9E6,0xA66,0xAE6,0xB66,0xBE6,
    0xC66,0xCE6,0xD66,0xDE6,0xE50,0xED0,0xF20,0x1040,0x1090,0x17E0,
    0x1810,0x1946,0x19D0,0x1A80,0x1A90,0x1B50,0x1BB0,0x1C40,0x1C50,0xA620,
    0xA8D0,0xA900,0xA9D0,0xA9F0,0xAA50,0xABF0,0xFF10,0x104A0,0x10D30,0x11066,
    0x110F0,0x11136,0x111D0,0x112F0,0x11450,0x114D0,0x11650,0x116C0,0x11730,0x118E0,
    0x11950,0x11C50,0x11D50,0x11DA0,0x16A60,0x16AC0,0x16B50,0x1D7CE,0x1D7D8,0x1D7E2,
    0x1D7EC,0x1D7F6,0x1E140,0x1E2F0,0x1E950,0x1FBF0
  ]

def digitValue? (c : Char) : Option Nat :=
  (digitZeros.find? fun first => first ≤ c.toNat && c.toNat < first + 10).map (c.toNat - ·)

inductive Utf8Problem where
  | startByte
  | continuationByte
  | endOfData
  deriving DecidableEq, Repr

structure Utf8Fault where
  offset : Nat
  bytes : List UInt8
  problem : Utf8Problem
  deriving Repr

-- The bounds of the second byte and the number of bytes after the first one.
def sequenceShape? (first : UInt8) : Option (UInt8 × UInt8 × Nat) :=
  if 0xC2 ≤ first ∧ first ≤ 0xDF then some (0x80,0xBF,1)
  else if first = 0xE0 then some (0xA0,0xBF,2)
  else if first = 0xED then some (0x80,0x9F,2)
  else if 0xE1 ≤ first ∧ first ≤ 0xEF then some (0x80,0xBF,2)
  else if first = 0xF0 then some (0x90,0xBF,3)
  else if first = 0xF4 then some (0x80,0x8F,3)
  else if 0xF1 ≤ first ∧ first ≤ 0xF3 then some (0x80,0xBF,3)
  else none

def payload (first : UInt8) (count : Nat) : Nat :=
  match count with
  | 1 => first.toNat % 0x20
  | 2 => first.toNat % 0x10
  | _ => first.toNat % 0x08

def continuations (low high : UInt8) : Nat → Nat → List UInt8 → Except (Nat × Utf8Problem) Nat
  | 0,point,_ => .ok point
  | _ + 1,_,[] => .error (0,.endOfData)
  | count + 1,point,byte :: rest =>
    if low ≤ byte ∧ byte ≤ high then
      match continuations 0x80 0xBF count (point * 64 + byte.toNat % 64) rest with
      | .ok whole => .ok whole
      | .error (good,problem) => .error (good + 1,problem)
    else .error (0,.continuationByte)

def decodeFrom : Nat → Nat → List UInt8 → List Char → Except Utf8Fault (List Char)
  | 0,_,_,seen => .ok seen.reverse
  | _ + 1,_,[],seen => .ok seen.reverse
  | fuel + 1,offset,first :: rest,seen =>
    if first < 0x80 then decodeFrom fuel (offset + 1) rest (Char.ofNat first.toNat :: seen)
    else
      match sequenceShape? first with
      | none => .error ⟨offset,[first],.startByte⟩
      | some (low,high,count) =>
        match continuations low high count (payload first count) rest with
        | .ok point => decodeFrom fuel (offset + 1 + count) (rest.drop count) (Char.ofNat point :: seen)
        | .error (good,problem) => .error ⟨offset,first :: rest.take good,problem⟩

-- Each step takes at least one byte, so the number of bytes is fuel enough.
def decodeUtf8 (bytes : List UInt8) : Except Utf8Fault String :=
  (decodeFrom bytes.length 0 bytes []).map String.ofList

def encodeUtf8 (text : String) : List UInt8 := text.toUTF8.toList

def hexDigitOf (n : Nat) : Char := (Nat.toDigits 16 n).headD '0'

def Utf8Problem.message : Utf8Problem → String
  | .startByte => "invalid start byte"
  | .continuationByte => "invalid continuation byte"
  | .endOfData => "unexpected end of data"

def Utf8Fault.message (fault : Utf8Fault) : String :=
  let place :=
    match fault.bytes with
    | [byte] =>
      "byte 0x" ++ String.ofList [hexDigitOf (byte.toNat / 16),hexDigitOf (byte.toNat % 16)] ++
        " in position " ++ toString fault.offset
    | bytes =>
      "bytes in position " ++ toString fault.offset ++ "-" ++ toString (fault.offset + bytes.length - 1)
  "'utf-8' codec can't decode " ++ place ++ ": " ++ fault.problem.message

def universalNewlines : List Char → List Char
  | [] => []
  | '\r' :: '\n' :: rest => '\n' :: universalNewlines rest
  | '\r' :: rest => '\n' :: universalNewlines rest
  | c :: rest => c :: universalNewlines rest

end TypedMvc.Text
