import TypedMvc.Json.Reader
import TypedMvc.Text.Case
import TypedMvc.Text.Number
import TypedMvc.Value.Text
import TypedMvc.Yaml.Cursor

namespace TypedMvc.Yaml

inductive Kind where
  | null
  | bool
  | int
  | float
  | timestamp
  | merge
  | equals
  -- one of the marks of a tag, an anchor or an alias, which stands for nothing alone
  | mark
  | str
  deriving DecidableEq, Repr

def trueWords : List String := ["yes","Yes","YES","true","True","TRUE","on","On","ON"]

def falseWords : List String := ["no","No","NO","false","False","FALSE","off","Off","OFF"]

def nullWords : List String := ["","~","null","Null","NULL"]

private def isDigitOr (c : Char) : Bool := c.isDigit || c == '_'

def withoutLastFeed : List Char → List Char
  | [] => []
  | ['\n'] => []
  | c :: rest => c :: withoutLastFeed rest

private def withoutSign : List Char → List Char
  | '+' :: rest => rest
  | '-' :: rest => rest
  | cs => cs

def splitAt (mark : Char) : List Char → List (List Char)
  | [] => [[]]
  | c :: rest =>
    if c == mark then [] :: splitAt mark rest
    else
      match splitAt mark rest with
      | [] => [[c]]
      | first :: more => (c :: first) :: more

private def isSixtieth : List Char → Bool
  | [d] => d.isDigit
  | [t,d] => '0' ≤ t && t ≤ '5' && d.isDigit
  | _ => false

private def looksSexagesimal (leading : Char → Bool) (cs : List Char) : Bool :=
  match splitAt ':' cs with
  | (first :: more) :: second :: rest =>
    leading first && more.all isDigitOr && (second :: rest).all isSixtieth
  | _ => false

def looksInt (cs : List Char) : Bool :=
  match withoutSign cs with
  | [] => false
  | '0' :: rest =>
    rest.isEmpty || rest.all (fun c => ('0' ≤ c && c ≤ '7') || c == '_') ||
      (match rest with
        | 'b' :: bits => !bits.isEmpty && bits.all fun c => c == '0' || c == '1' || c == '_'
        | 'x' :: digits => !digits.isEmpty && digits.all fun c => (Json.hexDigit? c).isSome || c == '_'
        | _ => false)
  | first :: rest =>
    (first.isDigit && rest.all isDigitOr) ||
      looksSexagesimal (fun c => '1' ≤ c && c ≤ '9') (first :: rest)

private def looksExponent : List Char → Bool
  | [] => true
  | e :: sign :: d :: rest =>
    (e == 'e' || e == 'E') && (sign == '+' || sign == '-') && d.isDigit && rest.all Char.isDigit
  | _ => false

private def pointed : List Char → Option (List Char × List Char)
  | cs =>
    match cs.span (· != '.') with
    | (before,_ :: after) => some (before,after)
    | _ => none

def looksFloat (cs : List Char) : Bool :=
  let unsigned := withoutSign cs
  match pointed unsigned with
  | none => false
  | some ([],after) =>
    (["inf","Inf","INF"].contains (String.ofList after)) ||
      (unsigned.length == cs.length &&
        (["nan","NaN","NAN"].contains (String.ofList after) ||
          (match after with
            | d :: rest => d.isDigit && looksExponent (rest.dropWhile isDigitOr)
            | [] => false)))
  | some (first :: before,after) =>
    (first.isDigit && before.all isDigitOr && looksExponent (after.dropWhile isDigitOr)) ||
      (looksSexagesimal Char.isDigit (first :: before) && after.all isDigitOr)

structure WrittenTime where
  year : Nat
  month : Nat
  day : Nat
  clock : Option (Nat × Nat × Nat × List Char)
  zone : Option (Bool × Nat × Nat)
  short : Bool

private def number (cs : List Char) : Nat := Text.ofDigits 10 (cs.map Json.digitOf)

private def someDigits? (least most : Nat) (cs : List Char) : Option (List Char × List Char) :=
  let digits := (cs.take most).takeWhile Char.isDigit
  if least ≤ digits.length then some (digits,cs.drop digits.length) else none

private def passed? (mark : Char) : List Char → Option (List Char)
  | c :: rest => if c == mark then some rest else none
  | [] => none

private def zone? (cs : List Char) : Option (Option (Bool × Nat × Nat)) :=
  match cs.dropWhile fun c => c == ' ' || c == '\t' with
  | [] => if cs.isEmpty then some none else none
  | ['Z'] => some (some (false,0,0))
  | sign :: rest =>
    if sign == '+' || sign == '-' then do
      let (hours,rest) ← someDigits? 1 2 rest
      match rest with
      | [] => return some (sign == '-',number hours,0)
      | ':' :: rest =>
        let (minutes,rest) ← someDigits? 2 2 rest
        if rest.isEmpty then return some (sign == '-',number hours,number minutes) else none
      | _ => none
    else none

private def fractionOf : List Char → List Char × List Char
  | '.' :: rest => rest.span Char.isDigit
  | cs => ([],cs)

-- Reads a date or a point of time; month and day may have one digit if a clock follows.
def writtenTime? (cs : List Char) : Option WrittenTime := do
  let (year,rest) ← someDigits? 4 4 cs
  let (month,rest) ← someDigits? 1 2 (← passed? '-' rest)
  let (day,rest) ← someDigits? 1 2 (← passed? '-' rest)
  let date (clock : Option (Nat × Nat × Nat × List Char)) (zone : Option (Bool × Nat × Nat)) : WrittenTime :=
    ⟨number year,number month,number day,clock,zone,month.length == 2 && day.length == 2⟩
  match rest with
  | [] => return date none none
  | c :: after =>
    let rest ←
      if c == 'T' || c == 't' then some after
      else if c == ' ' || c == '\t' then some (after.dropWhile fun c => c == ' ' || c == '\t')
      else none
    let (hour,rest) ← someDigits? 1 2 rest
    let (minute,rest) ← someDigits? 2 2 (← passed? ':' rest)
    let (second,rest) ← someDigits? 2 2 (← passed? ':' rest)
    let (fraction,rest) := fractionOf rest
    let zone ← zone? rest
    return date (some (number hour,number minute,number second,fraction)) zone

def looksTimestamp (cs : List Char) : Bool :=
  match writtenTime? cs with
  | some written => written.short || written.clock.isSome
  | none => false

def markWords : List String := ["!","&","*"]

-- The kind of a plain scalar; a line feed at its end does not count, unless there is nothing else.
def kindOf (text : String) : Kind :=
  let cs := withoutLastFeed text.toList
  let word := String.ofList cs
  if text == "\n" then .str
  else if trueWords.contains word || falseWords.contains word then .bool
  else if looksFloat cs then .float
  else if looksInt cs then .int
  else if word == "<<" then .merge
  else if nullWords.contains word then .null
  else if looksTimestamp cs then .timestamp
  else if word == "=" then .equals
  else if markWords.contains word then .mark
  else .str

private def withoutUnderscores (cs : List Char) : List Char := cs.filter (· != '_')

private def digitIn? (base : Nat) (c : Char) : Option Nat :=
  let value :=
    match Json.hexDigit? c with
    | some d => some d
    | none => Text.digitValue? c
  match value with
  | some d => if d < base then some d else none
  | none => none

private def digitsIn? (base : Nat) : List Char → Option (List Nat)
  | [] => none
  | [c] => (digitIn? base c).map ([·])
  | c :: rest =>
    match digitIn? base c,digitsIn? base rest with
    | some d,some ds => some (d :: ds)
    | _,_ => none

private def baseMark (base : Nat) : Char := if base == 2 then 'b' else if base == 8 then 'o' else 'x'

private def withoutBaseMark (base : Nat) : List Char → List Char
  | '0' :: mark :: rest => if mark.toLower == baseMark base then rest else '0' :: mark :: rest
  | cs => cs

private def noInteger (base : Nat) (cs : List Char) : Except Fault α :=
  let shown := String.ofList ((Text.quoted (String.ofList cs)).toList.take 200)
  .error (.noValue ("invalid literal for int() with base " ++ Text.decimal base ++ ": " ++ shown))

def integerIn (base : Nat) (cs : List Char) : Except Fault Int :=
  let parts := Text.signed (Text.trimBy Text.isNumberBlank cs)
  match digitsIn? base (withoutBaseMark base parts.2) with
  | some digits => .ok (Text.withSign parts.1 (Text.ofDigits base digits))
  | none => noInteger base cs

def integerTen (cs : List Char) : Except Fault Int :=
  match Text.integer cs with
  | .ok i => .ok i
  | .error .malformed => noInteger 10 cs
  | .error (.tooLong digits) => .error (.noValue (Json.Problem.message (.integerTooLong digits)))

private def sexagesimal (digits : List Int) : Int :=
  (digits.foldl (fun (sum : Int × Int) d => (sum.1 + d * sum.2,sum.2 * 60)) (0,1)).1

def integerMeaning (text : String) : Except Fault Int := do
  let cs := withoutUnderscores text.toList
  let negative := cs.head? == some '-'
  let size := withoutSign cs
  let apply (i : Int) : Int := if negative then -i else i
  match size with
  | [] => .error (.misused .emptyNumber)
  | ['0'] => return 0
  | '0' :: 'b' :: digits => return apply (← integerIn 2 digits)
  | '0' :: 'x' :: digits => return apply (← integerIn 16 digits)
  | '0' :: _ => return apply (← integerIn 8 size)
  | _ =>
    if size.contains ':' then
      let parts ← (splitAt ':' size).mapM integerTen
      return apply (sexagesimal parts.reverse)
    else return apply (← integerTen size)

def realOf (cs : List Char) : Except Fault Binary64 :=
  match Text.real? cs with
  | some x => .ok x
  | none => .error (.noValue ("could not convert string to float: " ++ Text.quoted (String.ofList cs)))

-- A part of a number to the base of sixty at its weight, which must be a double too.
private def weighted (part : Binary64) (weight : Nat) : Except Fault Binary64 :=
  match Binary64.ofInt weight with
  | .infinite _ => .error (.misused .beyondRange)
  | _ => .ok (part.scale weight)

def floatMeaning (text : String) : Except Fault Binary64 := do
  let cs := Text.smallLetters (withoutUnderscores text.toList)
  let apply (x : Binary64) : Binary64 := if cs.head? == some '-' then x.negate else x
  let size := withoutSign cs
  match String.ofList size with
  | ".inf" => return apply (.infinite false)
  | ".nan" => return .nan
  | _ =>
    if cs.isEmpty then .error (.misused .emptyNumber)
    else if size.contains ':' then
      let parts ← (splitAt ':' size).mapM realOf
      let sum ← parts.reverse.foldlM
        (fun (sum : Binary64 × Nat) part => do return (sum.1.add (← weighted part sum.2),sum.2 * 60))
        (Binary64.zero,1)
      return apply sum.1
    else return apply (← realOf size)

def boolMeaning (text : String) : Except Fault Bool :=
  match String.ofList (Text.smallLetters text.toList) with
  | "yes" | "true" | "on" => .ok true
  | "no" | "false" | "off" => .ok false
  | _ => .error (.misused .unknownWord)

private def noValue (message : String) : Except Fault α := .error (.noValue message)

private def checkDate (w : WrittenTime) : Except Fault Date :=
  if w.year == 0 then noValue "year 0 is out of range"
  else if w.month == 0 || 12 < w.month then noValue "month must be in 1..12"
  else if w.day == 0 || Value.daysIn w.year w.month < w.day then noValue "day is out of range for month"
  else .ok ⟨w.year,w.month,w.day⟩

private def secondsOf (zone : Bool × Nat × Nat) : Int :=
  let size : Nat := zone.2.1 * 3600 + zone.2.2 * 60
  if zone.1 then -(size : Int) else size

private def checkZone : Option (Bool × Nat × Nat) → Except Fault (Option Int)
  | none => .ok none
  | some zone =>
    let seconds := secondsOf zone
    if -86400 < seconds ∧ seconds < 86400 then .ok (some seconds)
    else
      noValue ("offset must be a timedelta strictly between -timedelta(hours=24) and " ++
        "timedelta(hours=24), not " ++ Moment.spanText seconds ++ ".")

private def microseconds (fraction : List Char) : Nat :=
  number ((fraction ++ List.replicate 6 '0').take 6)

-- A date, or a moment if a clock is given; the zone is checked before the date and the clock.
def timestampMeaning (text : String) : Except Fault Value :=
  match writtenTime? (withoutLastFeed text.toList) with
  | none => .error (.misused .notText)
  | some w =>
    match w.clock with
    | none => (checkDate w).map .date
    | some (hour,minute,second,fraction) => do
      let zone ← checkZone w.zone
      let date ← checkDate w
      if 23 < hour then noValue "hour must be in 0..23"
      else if 59 < minute then noValue "minute must be in 0..59"
      else if 59 < second then noValue "second must be in 0..59"
      else return .moment ⟨date,hour,minute,second,microseconds fraction,zone⟩

def sextet? (c : Char) : Option Nat :=
  if 'A' ≤ c ∧ c ≤ 'Z' then some (c.toNat - 'A'.toNat)
  else if 'a' ≤ c ∧ c ≤ 'z' then some (c.toNat - 'a'.toNat + 26)
  else if '0' ≤ c ∧ c ≤ '9' then some (c.toNat - '0'.toNat + 52)
  else if c == '+' then some 62
  else if c == '/' then some 63
  else none

-- The place in a group of four letters, the bits that are left over, and the padding so far.
private def sextets : Nat → Nat → Nat → List Char → Option (List UInt8)
  | place,_,_,[] => if place == 0 then some [] else none
  | place,left,pads,c :: rest =>
    if c == '=' then
      if 2 ≤ place && 4 ≤ place + pads + 1 then some []
      else sextets place left (if 2 ≤ place then pads + 1 else pads) rest
    else
      match sextet? c with
      | none => sextets place left pads rest
      | some bits =>
        if place == 0 then sextets 1 bits 0 rest
        else
          let byte := UInt8.ofNat (if place == 1 then left * 4 + bits / 16
            else if place == 2 then left * 16 + bits / 4 else left * 64 + bits)
          let carried := if place == 1 then bits % 16 else if place == 2 then bits % 4 else 0
          (sextets ((place + 1) % 4) carried 0 rest).map (byte :: ·)

def bytesMeaning (text : String) : Except Fault (List UInt8) :=
  if text.toList.any fun c => 0x80 ≤ c.toNat then .error .malformed
  else
    match sextets 0 0 0 text.toList with
    | some bytes => .ok bytes
    | none => .error .malformed

end TypedMvc.Yaml
