import TypedMvc.Proofs.Rows

namespace TypedMvc

namespace Text

def partner (c : Char) : Char := if c = '{' then '}' else if c = '(' then ')' else ']'

-- What is open after a character, the last bracket first; nothing can close but the partner of that one.
def turn (stack : List Char) (c : Char) : Option (List Char) :=
  if c ∈ ['{','(','['] then some (c :: stack)
  else if c ∈ ['}',')',']'] then
    match stack with
    | [] => none
    | opened :: below => if partner opened = c then some below else none
  else some stack

def scan (stack : List Char) (text : List Char) : Option (List Char) := text.foldlM turn stack

def Nested (text : List Char) : Prop := scan [] text = some []

-- Every line that is not blank is indented by one step for every curly bracket open before it, apart from the one that
-- it starts by closing.
def Aligned (width : Nat) (text : List Char) : Prop :=
  ∀ before line after, text.splitOn '\n' = before ++ line :: after → isAllBlank line = false →
    ∃ stack depth c rest, scan [] (before.flatMap (· ++ ['\n'])) = some stack ∧
      line = List.replicate (width * depth) ' ' ++ c :: rest ∧ isBlank c = false ∧
      stack.count '{' = if c = '}' then depth + 1 else depth

theorem scan_cons (stack : List Char) (c : Char) (rest : List Char) :
    scan stack (c :: rest) = (turn stack c).bind fun next => scan next rest := List.foldlM_cons

theorem scan_append (stack front back : List Char) :
    scan stack (front ++ back) = (scan stack front).bind fun next => scan next back := List.foldlM_append

theorem turn_frame {stack next : List Char} {c : Char} (turned : turn stack c = some next) (base : List Char) :
    turn (stack ++ base) c = some (next ++ base) := by
  unfold turn at turned ⊢
  split
  · rename_i opens
    rw [if_pos opens] at turned
    cases turned
    rfl
  · rename_i keeps
    rw [if_neg keeps] at turned
    split
    · rename_i closes
      rw [if_pos closes] at turned
      cases stack with
      | nil => cases turned
      | cons opened below =>
        simp only [List.cons_append] at turned ⊢
        split at turned
        · cases turned
          rename_i matching
          rw [if_pos matching]
        · cases turned
    · rename_i other
      rw [if_neg other] at turned
      cases turned
      rfl

theorem scan_frame {stack next text : List Char} (scanned : scan stack text = some next) (base : List Char) :
    scan (stack ++ base) text = some (next ++ base) := by
  induction text generalizing stack with
  | nil =>
    cases scanned
    rfl
  | cons c rest ih =>
    rw [scan_cons] at scanned ⊢
    obtain ⟨middle,turned,later⟩ := Option.bind_eq_some_iff.mp scanned
    rw [turn_frame turned base]
    exact ih later

-- A text that leaves the brackets as they are and breaks no line. What is put together from such texts is one.
structure Tidy (cs : List Char) : Prop where
  unbroken : Unbroken cs
  balanced : scan [] cs = some []

theorem Tidy.scan {cs : List Char} (tidy : Tidy cs) (stack : List Char) : scan stack cs = some stack :=
  scan_frame tidy.balanced stack

theorem Tidy.append {front back : List Char} (left : Tidy front) (right : Tidy back) : Tidy (front ++ back) := by
  refine ⟨left.unbroken.append right.unbroken,?_⟩
  rw [scan_append,left.balanced]
  exact right.balanced

theorem Tidy.nil : Tidy [] := ⟨by simp [Unbroken],rfl⟩

theorem Tidy.enclosed {cs : List Char} (tidy : Tidy cs) {c : Char} (opens : c ∈ ['{','(','[']) :
    Tidy (c :: (cs ++ [partner c])) := by
  simp only [List.mem_cons,List.not_mem_nil,or_false] at opens
  have unbroken : isLineBreak c = false ∧ isLineBreak (partner c) = false := by
    rcases opens with rfl | rfl | rfl <;> decide
  have turned : turn [] c = some [c] ∧ turn [c] (partner c) = some [] := by
    rcases opens with rfl | rfl | rfl <;> decide
  refine ⟨?_,?_⟩
  · intro d member
    rcases List.mem_cons.mp member with rfl | later
    · exact unbroken.1
    · rcases List.mem_append.mp later with inside | last
      · exact tidy.unbroken d inside
      · rw [List.mem_singleton.mp last]
        exact unbroken.2
  · rw [scan_cons,turned.1,Option.bind_some,scan_append,tidy.scan,Option.bind_some,scan_cons,turned.2]
    rfl

theorem Tidy.intercalate {sep : List Char} {ls : List (List Char)} (between : Tidy sep) (each : ∀ l ∈ ls, Tidy l) :
    Tidy (sep.intercalate ls) := by
  induction ls with
  | nil => exact .nil
  | cons l rest ih =>
    cases rest with
    | nil =>
      rw [List.intercalate_singleton]
      exact each l List.mem_cons_self
    | cons m more =>
      rw [List.intercalate_cons_cons]
      refine ((each l List.mem_cons_self).append between).append ?_
      exact ih fun k member => each k (List.mem_cons_of_mem _ member)

def Plain (c : Char) : Prop := isBlank c = false ∧ c ∉ ['{','}','(',')','[',']']

theorem unbroken_of_visible {c : Char} (visible : isBlank c = false) : isLineBreak c = false := by
  unfold isBlank at visible
  unfold isLineBreak
  simp only [Bool.or_eq_false_iff,Bool.and_eq_false_iff,decide_eq_false_iff_not,beq_eq_false_iff_ne] at visible ⊢
  omega

theorem turn_plain {c : Char} (plain : c ∉ ['{','}','(',')','[',']']) (stack : List Char) :
    turn stack c = some stack := by
  simp only [List.mem_cons,List.not_mem_nil,or_false,not_or] at plain
  simp [turn,plain]

theorem tidy_of_plain {cs : List Char} (plain : ∀ c ∈ cs, Plain c) : Tidy cs := by
  refine ⟨fun c member => unbroken_of_visible (plain c member).1,?_⟩
  induction cs with
  | nil => rfl
  | cons c rest ih =>
    rw [scan_cons,turn_plain (plain c List.mem_cons_self).2]
    exact ih fun d member => plain d (List.mem_cons_of_mem _ member)

def Starts (cs : List Char) : Prop := ∃ c rest, cs = c :: rest ∧ isBlank c = false ∧ c ≠ '}'

theorem Starts.append {front : List Char} (starts : Starts front) (back : List Char) : Starts (front ++ back) := by
  obtain ⟨c,rest,rfl,visible⟩ := starts
  exact ⟨c,rest ++ back,rfl,visible⟩

end Text
end TypedMvc
