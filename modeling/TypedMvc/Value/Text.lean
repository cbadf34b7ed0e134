import TypedMvc.Text.Number
import TypedMvc.Text.Quoted
import TypedMvc.Value

namespace TypedMvc

open Text

def Date.text (d : Date) : String :=
  padLeft 4 (decimal d.year) ++ "-" ++ padLeft 2 (decimal d.month) ++ "-" ++ padLeft 2 (decimal d.day)

namespace Moment

def offsetText (seconds : Int) : String :=
  let size := seconds.natAbs
  let base := (if seconds < 0 then "-" else "+") ++ padLeft 2 (decimal (size / 3600)) ++ ":" ++
    padLeft 2 (decimal (size / 60 % 60))
  if size % 60 = 0 then base else base ++ ":" ++ padLeft 2 (decimal (size % 60))

def text (m : Moment) : String :=
  m.date.text ++ " " ++ padLeft 2 (decimal m.hour) ++ ":" ++ padLeft 2 (decimal m.minute) ++ ":" ++
    padLeft 2 (decimal m.second) ++
    (if m.microsecond = 0 then "" else "." ++ padLeft 6 (decimal m.microsecond)) ++
    (match m.offset with | some seconds => offsetText seconds | none => "")

def spanText (seconds : Int) : String :=
  let days := seconds.fdiv 86400
  let rest := seconds.fmod 86400
  let parts :=
    (if days = 0 then [] else ["days=" ++ integerText days]) ++
      (if rest = 0 then [] else ["seconds=" ++ integerText rest])
  "datetime.timedelta(" ++ (if parts.isEmpty then "0" else ", ".intercalate parts) ++ ")"

def literal (m : Moment) : String :=
  let clock :=
    if m.microsecond ≠ 0 then [m.hour,m.minute,m.second,m.microsecond]
    else if m.second ≠ 0 then [m.hour,m.minute,m.second]
    else [m.hour,m.minute]
  let zone :=
    match m.offset with
    | none => []
    | some 0 => ["tzinfo=datetime.timezone.utc"]
    | some seconds => ["tzinfo=datetime.timezone(" ++ spanText seconds ++ ")"]
  "datetime.datetime(" ++
    ", ".intercalate (([m.date.year,m.date.month,m.date.day] ++ clock).map decimal ++ zone) ++ ")"

end Moment

def Date.literal (d : Date) : String :=
  "datetime.date(" ++ ", ".intercalate ([d.year,d.month,d.day].map decimal) ++ ")"

def Brackets.dots : Brackets → String
  | square => "[...]"
  | curly => "\x7b...\x7d"
  | round => "(...)"

namespace Value

mutual

-- The literal of a value inside the collections of the given numbers; those are not shown again.
def literalInside (outer : List Nat) : Value → String
  | null => "None"
  | bool b => if b then "True" else "False"
  | int i => integerText i
  | float x => floatText x
  | str s => quoted s
  | list items => "[" ++ ", ".intercalate (literalsInside outer items) ++ "]"
  | map entries => "\x7b" ++ ", ".intercalate (entryLiterals outer entries) ++ "\x7d"
  | bytes content => quotedBytes content
  | date d => d.literal
  | moment m => m.literal
  | set [] => "set()"
  | set members => "\x7b" ++ ", ".intercalate (literalsInside outer members) ++ "\x7d"
  | tuple [] => "()"
  | tuple [item] => "(" ++ literalInside outer item ++ ",)"
  | tuple items => "(" ++ ", ".intercalate (literalsInside outer items) ++ ")"
  | numbered number collection =>
    if outer.contains number then collection.brackets.dots else literalInside (number :: outer) collection
  | again _ brackets => brackets.dots
termination_by structural v => v

def literalsInside (outer : List Nat) : List Value → List String
  | [] => []
  | item :: rest => literalInside outer item :: literalsInside outer rest
termination_by structural items => items

def entryLiterals (outer : List Nat) : List (Value × Value) → List String
  | [] => []
  | (key,value) :: rest =>
    (literalInside outer key ++ ": " ++ literalInside outer value) :: entryLiterals outer rest
termination_by structural entries => entries

end

def literal (v : Value) : String := literalInside [] v

def text : Value → String
  | str s => s
  | date d => d.text
  | moment m => m.text
  | v => v.literal

def isLongNumber (i : Int) : Bool := decide (Binary64.tenTo digitLimit ≤ i.natAbs)

mutual

def hasLongNumber : Value → Bool
  | int i => isLongNumber i
  | list items => anyLongNumber items
  | tuple items => anyLongNumber items
  | set members => anyLongNumber members
  | map entries => anyLongEntry entries
  | numbered _ collection => hasLongNumber collection
  | _ => false
termination_by structural v => v

def anyLongNumber : List Value → Bool
  | [] => false
  | item :: rest => hasLongNumber item || anyLongNumber rest
termination_by structural items => items

def anyLongEntry : List (Value × Value) → Bool
  | [] => false
  | (key,value) :: rest => hasLongNumber key || hasLongNumber value || anyLongEntry rest
termination_by structural entries => entries

end

@[simp] theorem hasLongNumber_str (s : String) : (str s).hasLongNumber = false := rfl

@[simp] theorem text_str (s : String) : (str s).text = s := rfl

theorem append_ne_empty {s : String} (given : s ≠ "") (t : String) : s ++ t ≠ "" := by
  simp [given]

theorem literalInside_ne_empty (outer : List Nat) : (v : Value) → literalInside outer v ≠ ""
  | null => by simp [literalInside]
  | bool b => by cases b <;> simp [literalInside]
  | int i => by simp [literalInside,integerText_ne_empty]
  | float x => by simp [literalInside,floatText_ne_empty]
  | str s => by simp [literalInside,quoted]
  | list items => by simp [literalInside]
  | map entries => by simp [literalInside]
  | bytes content => by simp [literalInside,quotedBytes]
  | date d => append_ne_empty (append_ne_empty (by decide) _) _
  | moment m => append_ne_empty (append_ne_empty (by decide) _) _
  | set [] => by simp [literalInside]
  | set (_ :: _) => by simp [literalInside]
  | tuple [] => by simp [literalInside]
  | tuple [_] => by simp [literalInside]
  | tuple (_ :: _ :: _) => by simp [literalInside]
  | numbered number collection => by
    rw [literalInside]
    split
    · cases collection.brackets <;> decide
    · exact literalInside_ne_empty (number :: outer) collection
  | again _ brackets => by cases brackets <;> simp [literalInside,Brackets.dots]

theorem text_ne_empty {v : Value} (present : v.truthy = true) : v.text ≠ "" := by
  cases v with
  | str s => simpa using present
  | date d => simp [text,Date.text]
  | moment m => simp [text,Moment.text]
  | _ => exact literalInside_ne_empty [] _

-- What does not count as present has no number to be shown.
theorem hasLongNumber_absent : {v : Value} → v.truthy = false → v.hasLongNumber = false
  | null,_ => rfl
  | bool _,_ => rfl
  | int i,absent => by
    obtain rfl : i = 0 := by simpa [truthy] using absent
    rw [hasLongNumber,isLongNumber,decide_eq_false_iff_not,Int.natAbs_zero,Nat.not_le]
    exact Binary64.tenTo_pos digitLimit
  | float _,_ => rfl
  | str _,_ => rfl
  | list [],_ => rfl
  | map [],_ => rfl
  | bytes _,_ => rfl
  | set [],_ => rfl
  | tuple [],_ => rfl
  | numbered _ collection,absent => by
    rw [hasLongNumber]
    exact hasLongNumber_absent (v := collection) absent

end Value
end TypedMvc
