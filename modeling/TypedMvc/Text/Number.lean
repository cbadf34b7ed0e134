import TypedMvc.Binary64
import TypedMvc.Text.Basic

namespace TypedMvc.Text

def decimal (n : Nat) : String := n.repr

def integerText (i : Int) : String :=
  if i < 0 then "-" ++ decimal i.natAbs else decimal i.natAbs

def padLeft (width : Nat) (text : String) : String :=
  String.ofList (List.replicate (width - text.length) '0') ++ text

def hex (width : Nat) (n : Nat) : String := padLeft width (String.ofList (Nat.toDigits 16 n))

def hexUpper (width : Nat) (n : Nat) : String := (hex width n).toUpper

private def zeros (n : Nat) : List Char := List.replicate n '0'

-- The first digit stands for ten to the `position`.
private def positional (digits : List Char) (position : Int) : List Char :=
  if position < 0 then '0' :: '.' :: (zeros (position.natAbs - 1) ++ digits)
  else
    let whole := position.natAbs + 1
    if digits.length ≤ whole then digits ++ zeros (whole - digits.length) ++ ['.','0']
    else digits.take whole ++ '.' :: digits.drop whole

private def scientific (digits : List Char) (position : Int) : List Char :=
  let mantissa :=
    match digits with
    | first :: second :: rest => first :: '.' :: second :: rest
    | short => short
  mantissa ++ 'e' :: (if position < 0 then '-' else '+') :: (padLeft 2 (decimal position.natAbs)).toList

-- Digits of a whole number whose last one stands for ten to the power. They are written positionally while the first of
-- them stands between the fourth place after the point and the sixteenth before it.
def decimalText (digits : Nat) (power : Int) : String :=
  let ds := (decimal digits).toList
  let position := power + ds.length - 1
  String.ofList (if -4 ≤ position ∧ position < 16 then positional ds position else scientific ds position)

def floatText : Binary64 → String
  | .nan => "nan"
  | .infinite negative => if negative then "-inf" else "inf"
  | .finite negative significand exponent =>
    let size :=
      if significand = 0 then "0.0"
      else
        let shortest := Binary64.shortest significand exponent
        decimalText shortest.1 shortest.2
    if negative then "-" ++ size else size

theorem decimal_ne_empty (n : Nat) : decimal n ≠ "" := Nat.repr_ne_empty

theorem integerText_ne_empty (i : Int) : integerText i ≠ "" := by
  unfold integerText
  split
  · simp
  · exact decimal_ne_empty _

private theorem positional_ne_nil (digits : List Char) (position : Int) : positional digits position ≠ [] := by
  unfold positional
  split
  · exact List.cons_ne_nil _ _
  · dsimp only
    split <;> simp

private theorem scientific_ne_nil (digits : List Char) (position : Int) : scientific digits position ≠ [] :=
  List.append_ne_nil_of_right_ne_nil _ (List.cons_ne_nil _ _)

theorem decimalText_ne_empty (digits : Nat) (power : Int) : decimalText digits power ≠ "" := by
  intro empty
  have shown := congrArg String.toList empty
  rw [decimalText,String.toList_ofList] at shown
  split at shown
  · exact positional_ne_nil _ _ shown
  · exact scientific_ne_nil _ _ shown

theorem floatText_ne_empty (x : Binary64) : floatText x ≠ "" := by
  cases x with
  | nan => decide
  | infinite negative => cases negative <;> decide
  | finite negative significand exponent =>
    simp only [floatText]
    split
    · simp
    · split
      · decide
      · exact decimalText_ne_empty _ _

inductive IntegerFault where
  | malformed
  | tooLong (digits : Nat)
  deriving DecidableEq, Repr

def digitLimit : Nat := 4300

-- The digits of a run with its underscores, none where an underscore does not separate two digits.
def digitRun? : List Char → Option (List Nat)
  | [] => none
  | [c] => (digitValue? c).map ([·])
  | c :: '_' :: rest =>
    match digitValue? c,digitRun? rest with
    | some d,some ds => some (d :: ds)
    | _,_ => none
  | c :: rest =>
    match digitValue? c,digitRun? rest with
    | some d,some ds => some (d :: ds)
    | _,_ => none

def ofDigits (base : Nat) (digits : List Nat) : Nat := digits.foldl (fun n d => n * base + d) 0

def signed : List Char → Bool × List Char
  | '-' :: rest => (true,rest)
  | '+' :: rest => (false,rest)
  | cs => (false,cs)

def withSign (negative : Bool) (n : Nat) : Int := if negative then -(n : Int) else n

def integer (cs : List Char) : Except IntegerFault Int :=
  let parts := signed (trimBy isNumberBlank cs)
  match digitRun? parts.2 with
  | none => .error .malformed
  | some digits =>
    if digitLimit < digits.length then .error (.tooLong digits.length)
    else .ok (withSign parts.1 (ofDigits 10 digits))

private def lower (cs : List Char) : String := String.ofList (cs.map Char.toLower)

def leadingDigits : List Char → List Nat × List Char
  | [] => ([],[])
  | c :: rest =>
    match digitValue? c with
    | some d =>
      let read := leadingDigits rest
      (d :: read.1,read.2)
    | none => ([],c :: rest)

private def exponentOf? (cs : List Char) : Option Int :=
  match cs with
  | [] => some 0
  | c :: rest =>
    if c == 'e' || c == 'E' then
      let parts := signed rest
      match leadingDigits parts.2 with
      | (d :: ds,[]) => some (withSign parts.1 (ofDigits 10 (d :: ds)))
      | _ => none
    else none

private def afterPoint : List Char → List Nat × List Char
  | '.' :: rest => leadingDigits rest
  | cs => ([],cs)

def real? (cs : List Char) : Option Binary64 :=
  let parts := signed (trimBy isNumberBlank cs)
  match lower parts.2 with
  | "inf" | "infinity" => some (.infinite parts.1)
  | "nan" => some .nan
  | _ =>
    let whole := leadingDigits parts.2
    let fraction := afterPoint whole.2
    if whole.1.isEmpty && fraction.1.isEmpty then none
    else
      (exponentOf? fraction.2).map fun exponent =>
        .ofDecimal parts.1 (ofDigits 10 (whole.1 ++ fraction.1)) (exponent - fraction.1.length)

end TypedMvc.Text
