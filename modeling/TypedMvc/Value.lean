import TypedMvc.Binary64

namespace TypedMvc

structure Date where
  year : Nat
  month : Nat
  day : Nat
  deriving DecidableEq, Repr, Inhabited

structure Moment where
  date : Date
  hour : Nat
  minute : Nat
  second : Nat
  microsecond : Nat
  offset : Option Int
  deriving DecidableEq, Repr, Inhabited

inductive Brackets where
  | square
  | curly
  | round
  deriving DecidableEq, Repr, Inhabited

inductive Value where
  | null
  | bool (b : Bool)
  | int (i : Int)
  | float (x : Binary64)
  | str (s : String)
  | list (items : List Value)
  | map (entries : List (Value × Value))
  | bytes (content : List UInt8)
  | date (d : Date)
  | moment (m : Moment)
  | set (members : List Value)
  | tuple (items : List Value)
  -- a collection of a document with a collection that holds itself
  | numbered (number : Nat) (collection : Value)
  -- a numbered collection inside itself
  | again (number : Nat) (brackets : Brackets)
  deriving Repr, Inhabited

namespace Value

-- Null, false, zero and whatever is empty do not count as present.
def truthy : Value → Bool
  | null => false
  | bool b => b
  | int i => i != 0
  | float x => !x.isZero
  | str s => s != ""
  | list items => !items.isEmpty
  | map entries => !entries.isEmpty
  | bytes content => !content.isEmpty
  | set members => !members.isEmpty
  | tuple items => !items.isEmpty
  | numbered _ collection => collection.truthy
  | date _ | moment _ | again _ _ => true

def isNull : Value → Bool
  | null => true
  | _ => false

def orElse (v other : Value) : Value := if v.truthy then v else other

def kind : Value → String
  | null => "NoneType"
  | bool _ => "bool"
  | int _ => "int"
  | float _ => "float"
  | str _ => "str"
  | list _ => "list"
  | map _ => "dict"
  | bytes _ => "bytes"
  | date _ => "date"
  | moment _ => "datetime"
  | set _ => "set"
  | tuple _ => "tuple"
  | numbered _ collection => collection.kind
  | again _ .square => "list"
  | again _ .curly => "dict"
  | again _ .round => "tuple"

def brackets : Value → Brackets
  | list _ => .square
  | tuple _ => .round
  | _ => .curly

mutual

def replaceAgain (number : Nat) (whole : Value) : Value → Value
  | again n brackets => if n = number then whole else again n brackets
  | numbered n collection =>
    if n = number then numbered n collection else numbered n (replaceAgain number whole collection)
  | list items => list (replaceInItems number whole items)
  | tuple items => tuple (replaceInItems number whole items)
  | set members => set (replaceInItems number whole members)
  | map entries => map (replaceInEntries number whole entries)
  | v => v
termination_by structural v => v

def replaceInItems (number : Nat) (whole : Value) : List Value → List Value
  | [] => []
  | item :: rest => replaceAgain number whole item :: replaceInItems number whole rest
termination_by structural items => items

def replaceInEntries (number : Nat) (whole : Value) : List (Value × Value) → List (Value × Value)
  | [] => []
  | (key,value) :: rest =>
    (replaceAgain number whole key,replaceAgain number whole value) :: replaceInEntries number whole rest
termination_by structural entries => entries

end

-- A collection without its number: each part of it stands for itself.
def opened : Value → Value
  | numbered number collection => replaceAgain number (numbered number collection) collection
  | v => v

@[simp] theorem truthy_str (s : String) : (str s).truthy = (s != "") := rfl

@[simp] theorem truthy_null : null.truthy = false := rfl

end Value
end TypedMvc
