import TypedMvc.Value

namespace TypedMvc

inductive Quantity where
  | undefined
  | below
  | finite (numerator : Int) (denominator : Nat)
  | above

namespace Quantity

def same : Quantity → Quantity → Bool
  | undefined,undefined => true
  | below,below => true
  | above,above => true
  | finite a m,finite b n => a * n == b * m
  | _,_ => false

def before : Quantity → Quantity → Bool
  | undefined,_ => false
  | _,undefined => false
  | below,below => false
  | below,_ => true
  | _,below => false
  | above,_ => false
  | _,above => true
  | finite a m,finite b n => decide (a * n < b * m)

end Quantity

def Binary64.quantity : Binary64 → Quantity
  | .nan => .undefined
  | .infinite negative => if negative then .below else .above
  | .finite negative significand exponent =>
    match (Binary64.finite negative significand exponent).ratio? with
    | some r => .finite r.1 r.2
    | none => .undefined

namespace Value

def quantity? : Value → Option Quantity
  | bool b => some (.finite (if b then 1 else 0) 1)
  | int i => some (.finite i 1)
  | float x => some x.quantity
  | _ => none

def daysBefore (year : Nat) : Nat := 365 * year + year / 4 - year / 100 + year / 400

def isLeap (year : Nat) : Bool := year % 4 == 0 && (year % 100 != 0 || year % 400 == 0)

def daysIn (year month : Nat) : Nat :=
  if month == 2 then (if isLeap year then 29 else 28)
  else if month == 4 || month == 6 || month == 9 || month == 11 then 30
  else 31

def dayNumber (d : Date) : Nat :=
  let daysOfMonths := (List.range (d.month - 1)).foldl (fun days m => days + daysIn d.year (m + 1)) 0
  daysBefore (d.year - 1) + daysOfMonths + d.day

def instant (m : Moment) : Int :=
  ((dayNumber m.date * 24 + m.hour) * 60 + m.minute : Nat) * 60000000 + m.second * 1000000 +
    m.microsecond - m.offset.getD 0 * 1000000

-- Moments of known distance from the universal time are the same if they are at the same point of it.
def sameMoment (m n : Moment) : Bool :=
  if m.offset.isSome && n.offset.isSome then instant m == instant n else m == n

def sameScalar (a b : Value) : Bool :=
  match a,b with
  | null,null => true
  | str s,str t => s == t
  | bytes s,bytes t => s == t
  | date d,date e => d == e
  | moment m,moment n => sameMoment m n
  | _,_ =>
    match a.quantity?,b.quantity? with
    | some p,some q => p.same q
    | _,_ => false

mutual

def same : Value → Value → Bool
  | list a,list b => sameItems a b
  | tuple a,tuple b => sameItems a b
  | set a,set b => a.length == b.length && sameMembers a b
  | map a,map b => a.length == b.length && sameEntries a b
  | numbered m a,numbered n b => m == n || same a b
  | again m _,again n _ => m == n
  | a,b => sameScalar a b
termination_by structural a => a

def sameItems : List Value → List Value → Bool
  | [],[] => true
  | a :: as,b :: bs => same a b && sameItems as bs
  | _,_ => false
termination_by structural as => as

def sameMembers : List Value → List Value → Bool
  | [],_ => true
  | a :: as,other => other.any (fun b => same a b) && sameMembers as other
termination_by structural as => as

def sameEntries : List (Value × Value) → List (Value × Value) → Bool
  | [],_ => true
  | (key,value) :: rest,other =>
    other.any (fun e => same key e.1 && same value e.2) && sameEntries rest other
termination_by structural entries => entries

end

mutual

def hashable : Value → Bool
  | list _ | map _ | set _ | again _ _ => false
  | tuple items => hashableItems items
  | numbered _ collection => hashable collection
  | _ => true
termination_by structural v => v

def hashableItems : List Value → Bool
  | [] => true
  | item :: rest => hashable item && hashableItems rest
termination_by structural items => items

end

def beforeDate (a b : Date) : Bool :=
  decide (a.year < b.year) ||
    (a.year == b.year && (decide (a.month < b.month) || (a.month == b.month && decide (a.day < b.day))))

def beforeBytes : List UInt8 → List UInt8 → Bool
  | _,[] => false
  | [],_ :: _ => true
  | a :: as,b :: bs => if a == b then beforeBytes as bs else decide (a < b)

def beforeScalar? (a b : Value) : Option Bool :=
  match a,b with
  | str s,str t => some (decide (s < t))
  | bytes s,bytes t => some (beforeBytes s t)
  | date d,date e => some (beforeDate d e)
  | moment m,moment n =>
    if m.offset.isSome == n.offset.isSome then some (decide (instant m < instant n)) else none
  | _,_ =>
    match a.quantity?,b.quantity? with
    | some p,some q => some (p.before q)
    | _,_ => none

mutual

-- Whether the first value comes strictly before the second; none where they have no order.
def before? : Value → Value → Option Bool
  | list a,list b => beforeItems? a b
  | tuple a,tuple b => beforeItems? a b
  | numbered _ a,numbered _ b => before? a b
  | a,b => beforeScalar? a b
termination_by structural a => a

-- The first place where two lists differ decides, and a shorter list comes before its extensions.
def beforeItems? : List Value → List Value → Option Bool
  | _,[] => some false
  | [],_ :: _ => some true
  | a :: as,b :: bs => if same a b then beforeItems? as bs else before? a b
termination_by structural as => as

end

@[simp] theorem same_str (s t : String) : same (str s) (str t) = (s == t) := by
  simp [same,sameScalar]

@[simp] theorem before?_str (s t : String) : before? (str s) (str t) = some (decide (s < t)) := by
  simp [before?,beforeScalar?]

@[simp] theorem hashable_str (s : String) : hashable (str s) = true := by
  simp [hashable]

def lookup {α : Type} (key : Value) (entries : List (Value × α)) : Option α :=
  (entries.find? fun entry => same entry.1 key).map (·.2)

-- A key that comes again keeps its first place and takes the last value.
def insert {α : Type} (entries : List (Value × α)) (key : Value) (value : α) : List (Value × α) :=
  if entries.any fun entry => same entry.1 key then
    entries.map fun entry => if same entry.1 key then (entry.1,value) else entry
  else entries ++ [(key,value)]

def mapping (entries : List (Value × Value)) : List (Value × Value) :=
  entries.foldl (fun known entry => insert known entry.1 entry.2) []

def field? (name : String) : Value → Option Value
  | map entries => lookup (str name) entries
  | _ => none

def field (name : String) (v : Value) : Value := (v.field? name).getD null

theorem lookup_cons_str {α : Type} (key name : String) (value : α) (rest : List (Value × α)) :
    lookup (str name) ((str key,value) :: rest) =
      if key = name then some value else lookup (str name) rest := by
  by_cases equal : key = name <;> simp [lookup,equal]

end Value

-- Sorts by a partial order, keeping the order of equals; none if two of the elements have no order.
def sortedBy? {α : Type} (before? : α → α → Option Bool) (l : List α) : Option (List α) :=
  if l.Pairwise (fun a b => (before? a b).isSome ∧ (before? b a).isSome) then
    some (l.mergeSort fun a b => before? b a != some true)
  else none

end TypedMvc
