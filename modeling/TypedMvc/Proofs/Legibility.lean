import TypedMvc.Proofs.Nesting

namespace TypedMvc

section Lists

variable {α β : Type}

theorem stop_unique {p : α → Prop} {l m r s : List α} {a b : α} (left : ∀ x ∈ l, p x) (right : ∀ x ∈ m, p x)
    (stops : ¬ p a) (stopsToo : ¬ p b) (same : l ++ a :: r = m ++ b :: s) : l = m ∧ a = b ∧ r = s := by
  induction l generalizing m with
  | nil =>
    cases m with
    | nil =>
      obtain ⟨rfl,rfl⟩ := List.cons.inj same
      exact ⟨rfl,rfl,rfl⟩
    | cons y more =>
      obtain ⟨rfl,_⟩ := List.cons.inj same
      exact absurd (right a List.mem_cons_self) stops
  | cons x rest ih =>
    cases m with
    | nil =>
      obtain ⟨rfl,_⟩ := List.cons.inj same
      exact absurd (left x List.mem_cons_self) stopsToo
    | cons y more =>
      obtain ⟨rfl,later⟩ := List.cons.inj same
      obtain ⟨rfl,rfl,rfl⟩ := ih (fun z member => left z (List.mem_cons_of_mem _ member))
        (fun z member => right z (List.mem_cons_of_mem _ member)) later
      exact ⟨rfl,rfl,rfl⟩

-- Lists joined by a separator come apart where its first element occurs in none of them.
theorem intercalate_unique {c : α} {sep : List α} {ls ms : List (List α)} (left : ∀ l ∈ ls, c ∉ l)
    (right : ∀ m ∈ ms, c ∉ m) (present : ls ≠ []) (presentToo : ms ≠ [])
    (same : (c :: sep).intercalate ls = (c :: sep).intercalate ms) : ls = ms := by
  have misses : ∀ {l m : List α} {rest : List α}, c ∉ l → l ≠ m ++ (c :: sep) ++ rest := by
    rintro l m rest free rfl
    exact free (by simp)
  induction ls generalizing ms with
  | nil => exact absurd rfl present
  | cons l rest ih =>
    have headFree := left l List.mem_cons_self
    cases ms with
    | nil => exact absurd rfl presentToo
    | cons m more =>
      have otherFree := right m List.mem_cons_self
      cases rest with
      | nil =>
        cases more with
        | nil => simpa using same
        | cons n others =>
          rw [List.intercalate_singleton,List.intercalate_cons_cons] at same
          exact absurd same (misses headFree)
      | cons k others =>
        cases more with
        | nil =>
          rw [List.intercalate_singleton,List.intercalate_cons_cons] at same
          exact absurd same.symm (misses otherFree)
        | cons n further =>
          rw [List.intercalate_cons_cons,List.intercalate_cons_cons] at same
          simp only [List.append_assoc,List.cons_append] at same
          obtain ⟨rfl,_,tails⟩ := stop_unique (p := fun x => x ≠ c)
            (fun x member equal => headFree (equal ▸ member)) (fun x member equal => otherFree (equal ▸ member))
            (by simp) (by simp) same
          have later := ih (fun x member => left x (List.mem_cons_of_mem _ member))
            (fun x member => right x (List.mem_cons_of_mem _ member)) (List.cons_ne_nil _ _) (List.cons_ne_nil _ _)
            (List.append_cancel_left tails)
          rw [later]

theorem map_unique {f : α → β} {l m : List α} (apart : ∀ a ∈ l, ∀ b ∈ m, f a = f b → a = b)
    (same : l.map f = m.map f) : l = m := by
  induction l generalizing m with
  | nil => exact (List.map_eq_nil_iff.mp same.symm).symm
  | cons a rest ih =>
    cases m with
    | nil => cases same
    | cons b more =>
      obtain ⟨heads,tails⟩ := List.cons.inj same
      rw [apart a List.mem_cons_self b List.mem_cons_self heads,ih
        (fun c first d second => apart c (List.mem_cons_of_mem _ first) d (List.mem_cons_of_mem _ second)) tails]

-- What is written with the function can be told from whatever follows it.
def PrefixCode (P : α → Prop) (f : α → List β) : Prop :=
  ∀ a b, P a → P b → ∀ r s, f a ++ r = f b ++ s → a = b ∧ r = s

theorem PrefixCode.separated {P : α → Prop} {f : α → List β} {sep stop : β} (code : PrefixCode P f) (apart : sep ≠ stop)
    (starts : ∀ a, P a → ∃ x rest, f a = x :: rest ∧ x ≠ stop) {l m : List α} (left : ∀ a ∈ l, P a)
    (right : ∀ b ∈ m, P b) {r s : List β}
    (same : List.intercalate [sep] (l.map f) ++ stop :: r = List.intercalate [sep] (m.map f) ++ stop :: s) :
    l = m ∧ r = s := by
  -- what follows the first element of a list
  have first : ∀ (a : α) (rest : List α) (r : List β), List.intercalate [sep] ((a :: rest).map f) ++ stop :: r =
      f a ++ if rest = [] then stop :: r else sep :: (List.intercalate [sep] (rest.map f) ++ stop :: r) := by
    intro a rest r
    cases rest <;> simp
  have ends : ∀ (a : α) (rest : List α) (r s : List β), P a →
      stop :: r ≠ List.intercalate [sep] ((a :: rest).map f) ++ stop :: s := by
    intro a rest r s known same
    obtain ⟨x,front,shown,other⟩ := starts a known
    rw [first,shown,List.cons_append] at same
    exact other (List.cons.inj same).1.symm
  induction l generalizing m with
  | nil =>
    cases m with
    | nil =>
      exact ⟨rfl,by simpa using same⟩
    | cons b more => exact absurd same (ends b more r s (right b List.mem_cons_self))
  | cons a rest ih =>
    cases m with
    | nil => exact absurd same.symm (ends a rest s r (left a List.mem_cons_self))
    | cons b more =>
      rw [first,first] at same
      obtain ⟨rfl,tails⟩ := code a b (left a List.mem_cons_self) (right b List.mem_cons_self) _ _ same
      by_cases last : rest = []
      · by_cases lastToo : more = []
        · rw [if_pos last,if_pos lastToo] at tails
          exact ⟨by rw [last,lastToo],(List.cons.inj tails).2⟩
        · rw [if_pos last,if_neg lastToo] at tails
          exact absurd (List.cons.inj tails).1.symm apart
      · by_cases lastToo : more = []
        · rw [if_neg last,if_pos lastToo] at tails
          exact absurd (List.cons.inj tails).1 apart
        · rw [if_neg last,if_neg lastToo] at tails
          obtain ⟨rfl,rfl⟩ := ih (fun x member => left x (List.mem_cons_of_mem _ member))
            (fun x member => right x (List.mem_cons_of_mem _ member)) (List.cons.inj tails).2
          exact ⟨rfl,rfl⟩

end Lists

namespace CSharp

open Text Identifier

-- A word of the printed language: something that letters, digits, lines and dots make up.
def Token (s : String) : Prop := s ≠ "" ∧ ∀ c ∈ s.toList, isDottedChar c = true

instance (s : String) : Decidable (Token s) :=
  decidable_of_iff (s ≠ "" ∧ s.toList.all isDottedChar = true) (and_congr_right fun _ => List.all_eq_true)

theorem Token.free {s : String} (token : Token s) {c : Char} (other : isDottedChar c = false) : c ∉ s.toList := by
  intro member
  rw [token.2 c member] at other
  cases other

def phrase (words : List String) : List Char := List.intercalate [' '] (words.map String.toList)

theorem toList_phrase (words : List String) : (" ".intercalate words).toList = phrase words :=
  String.toList_intercalate

theorem phrase_append {words more : List String} (left : words ≠ []) (right : more ≠ []) :
    phrase (words ++ more) = phrase words ++ ' ' :: phrase more := by
  rw [phrase,List.map_append,intercalate_append (by simpa using left) (by simpa using right),List.append_assoc]
  rfl

theorem texts_injective : Function.Injective (List.map String.toList) :=
  List.map_injective_iff.mpr fun _ _ => String.toList_injective

theorem texts_unique {c : Char} {sep : List Char} {texts more : List String} (left : ∀ s ∈ texts, c ∉ s.toList)
    (right : ∀ s ∈ more, c ∉ s.toList) (present : texts ≠ []) (presentToo : more ≠ [])
    (same : (c :: sep).intercalate (texts.map String.toList) = (c :: sep).intercalate (more.map String.toList)) :
    texts = more := by
  have free : ∀ texts : List String, (∀ s ∈ texts, c ∉ s.toList) → ∀ l ∈ texts.map String.toList, c ∉ l := by
    intro texts each l member
    obtain ⟨s,among,rfl⟩ := List.mem_map.mp member
    exact each s among
  exact texts_injective (intercalate_unique (free texts left) (free more right) (by simpa using present)
    (by simpa using presentToo) same)

-- Words up to a mark, which stands apart from them or right behind them, and the rest of the line.
def opening (words : List String) (mark : Char) (rest : List Char) : List Char :=
  phrase words ++ (if mark ∈ ['=','{',':'] then [' '] else []) ++ mark :: rest

theorem opening_unique {words more : List String} {mark other : Char} {rest back : List Char}
    (left : ∀ w ∈ words, Token w) (right : ∀ w ∈ more, Token w) (present : words ≠ []) (presentToo : more ≠ [])
    (marks : isDottedChar mark = false ∧ mark ≠ ' ') (marksToo : isDottedChar other = false ∧ other ≠ ' ')
    (same : opening words mark rest = opening more other back) : words = more ∧ mark = other ∧ rest = back := by
  have front : ∀ (words : List String) (mark : Char), (∀ w ∈ words, Token w) →
      ∀ c ∈ phrase words ++ (if mark ∈ ['=','{',':'] then [' '] else []), isDottedChar c = true ∨ c = ' ' := by
    intro words mark tokens c member
    rcases List.mem_append.mp member with inside | gap
    · rcases mem_intercalate inside with between | ⟨l,among,here⟩
      · exact .inr (List.mem_singleton.mp between)
      · obtain ⟨w,known,rfl⟩ := List.mem_map.mp among
        exact .inl ((tokens w known).2 c here)
    · split at gap
      · exact .inr (List.mem_singleton.mp gap)
      · cases gap
  have stops : ∀ {mark : Char}, isDottedChar mark = false ∧ mark ≠ ' ' → ¬ (isDottedChar mark = true ∨ mark = ' ') := by
    rintro mark ⟨notToken,notBlank⟩ (token | blank)
    · rw [notToken] at token
      cases token
    · exact notBlank blank
  obtain ⟨fronts,rfl,rests⟩ := stop_unique (front words mark left) (front more other right) (stops marks)
    (stops marksToo) same
  have spaceless : ∀ l : List String, (∀ w ∈ l, Token w) → ∀ w ∈ l, ' ' ∉ w.toList :=
    fun l tokens w member => (tokens w member).free (by decide)
  exact ⟨texts_unique (spaceless words left) (spaceless more right) present presentToo
    (List.append_cancel_right fronts),rfl,rests⟩

theorem listing_unique {parts more : List String} (left : ∀ p ∈ parts, p ≠ "" ∧ ',' ∉ p.toList)
    (right : ∀ p ∈ more, p ≠ "" ∧ ',' ∉ p.toList)
    (same : (", ".intercalate parts).toList = (", ".intercalate more).toList) : parts = more := by
  have filled : ∀ (p : String) (l : List String), (∀ q ∈ p :: l, q ≠ "" ∧ ',' ∉ q.toList) →
      (", ".intercalate (p :: l)).toList ≠ [] := by
    intro p l each empty
    have given : p.toList ≠ [] := by simpa using (each p List.mem_cons_self).1
    rw [String.toList_intercalate] at empty
    cases l with
    | nil => exact given (by simpa using empty)
    | cons q rest =>
      simp only [List.map_cons,List.intercalate_cons_cons,List.append_assoc] at empty
      exact given (List.append_eq_nil_iff.mp empty).1
  cases parts with
  | nil =>
    cases more with
    | nil => rfl
    | cons q rest => exact absurd same.symm (filled q rest right)
  | cons p others =>
    cases more with
    | nil => exact absurd same (filled p others left)
    | cons q rest =>
      rw [String.toList_intercalate,String.toList_intercalate] at same
      exact texts_unique (c := ',') (fun s member => (left s member).2) (fun s member => (right s member).2)
        (List.cons_ne_nil _ _) (List.cons_ne_nil _ _) same

theorem tokens_listed {parts : List String} (tokens : ∀ p ∈ parts, Token p) :
    ∀ p ∈ parts, p ≠ "" ∧ ',' ∉ p.toList :=
  fun p member => ⟨(tokens p member).1,(tokens p member).free (by decide)⟩

theorem opening_ne_single {words : List String} (tokens : ∀ w ∈ words, Token w) (present : words ≠ []) (mark c : Char)
    (rest : List Char) : opening words mark rest ≠ [c] := by
  intro same
  cases words with
  | nil => exact absurd rfl present
  | cons w more =>
    have given : w.toList ≠ [] := by simpa using (tokens w List.mem_cons_self).1
    have filled : phrase (w :: more) ≠ [] := by
      cases more with
      | nil => simpa [phrase] using given
      | cons v others => simp [phrase,List.intercalate_cons_cons]
    have lengths := congrArg List.length same
    have positive := List.length_pos_iff.mpr filled
    simp only [opening,List.length_append,List.length_cons,List.length_nil] at lengths
    omega

def modifierWords (modifiers : List Modifier) : List String := modifiers.map Modifier.word

theorem modifierWords_tokens (modifiers : List Modifier) : ∀ w ∈ modifierWords modifiers, Token w := by
  intro w member
  obtain ⟨m,_,rfl⟩ := List.mem_map.mp member
  cases m <;> decide

theorem modifierWords_injective : Function.Injective modifierWords := by
  refine List.map_injective_iff.mpr ?_
  intro m n same
  revert same
  cases m <;> cases n <;> decide

theorem declaration_tokens (modifiers : List Modifier) {more : List String} (tokens : ∀ w ∈ more, Token w)
    (present : more ≠ []) :
    (∀ w ∈ modifierWords modifiers ++ more, Token w) ∧ modifierWords modifiers ++ more ≠ [] := by
  refine ⟨?_,List.append_ne_nil_of_right_ne_nil _ present⟩
  intro w member
  rcases List.mem_append.mp member with modifier | own
  · exact modifierWords_tokens modifiers w modifier
  · exact tokens w own

structure Parameter.Legible (p : Parameter) : Prop where
  name : Token p.name
  type : Token p.type
  default : ∀ value, p.default = some value → Token value

def parameterWords (p : Parameter) : List String :=
  [p.type,p.name] ++ (match p.default with | some value => ["=",value] | none => [])

theorem parameterText_phrase (p : Parameter) : (parameterText p).toList = phrase (parameterWords p) := by
  unfold parameterText parameterWords phrase
  cases p.default <;> simp

theorem parameterWords_injective : Function.Injective parameterWords := by
  rintro ⟨name,type,default⟩ ⟨otherName,otherType,otherDefault⟩ same
  cases default <;> cases otherDefault <;> simp_all [parameterWords]

theorem parameterWords_chars {p : Parameter} (legible : p.Legible) :
    ∀ w ∈ parameterWords p, ∀ c ∈ w.toList, isDottedChar c = true ∨ c = '=' := by
  intro w member c inside
  rcases List.mem_append.mp member with fixed | optional
  · simp only [List.mem_cons,List.not_mem_nil,or_false] at fixed
    rcases fixed with rfl | rfl
    · exact .inl (legible.type.2 c inside)
    · exact .inl (legible.name.2 c inside)
  · cases given : p.default with
    | none => simp [given] at optional
    | some value =>
      simp only [given,List.mem_cons,List.not_mem_nil,or_false] at optional
      rcases optional with rfl | rfl
      · exact .inr (by simpa using inside)
      · exact .inl ((legible.default _ given).2 c inside)

theorem parameterText_chars {p : Parameter} (legible : p.Legible) :
    ∀ c ∈ (parameterText p).toList, isDottedChar c = true ∨ c = '=' ∨ c = ' ' := by
  intro c member
  rw [parameterText_phrase] at member
  rcases mem_intercalate member with between | ⟨l,among,inside⟩
  · exact .inr (.inr (List.mem_singleton.mp between))
  · obtain ⟨w,known,rfl⟩ := List.mem_map.mp among
    exact (parameterWords_chars legible w known c inside).imp_right .inl

theorem parameterText_unique {p q : Parameter} (left : p.Legible) (right : q.Legible)
    (same : parameterText p = parameterText q) : p = q := by
  have spaceless : ∀ p : Parameter, p.Legible → ∀ w ∈ parameterWords p, ' ' ∉ w.toList := by
    intro p legible w member blank
    rcases parameterWords_chars legible w member ' ' blank with token | equals
    · exact absurd token (by decide)
    · exact absurd equals (by decide)
  have phrases := congrArg String.toList same
  rw [parameterText_phrase,parameterText_phrase] at phrases
  exact parameterWords_injective (texts_unique (spaceless p left) (spaceless q right) (List.cons_ne_nil _ _)
    (List.cons_ne_nil _ _) phrases)

theorem parameters_unique {parameters others : List Parameter} (left : ∀ p ∈ parameters, p.Legible)
    (right : ∀ p ∈ others, p.Legible)
    (same : (", ".intercalate (parameters.map parameterText)).toList =
      (", ".intercalate (others.map parameterText)).toList) : parameters = others := by
  have listed : ∀ l : List Parameter, (∀ p ∈ l, p.Legible) → ∀ s ∈ l.map parameterText, s ≠ "" ∧ ',' ∉ s.toList := by
    intro l legible s member
    obtain ⟨p,among,rfl⟩ := List.mem_map.mp member
    constructor
    · intro empty
      have typed : p.type ≠ "" := (legible p among).type.1
      have shown := congrArg String.toList empty
      simp [parameterText,typed] at shown
    · intro comma
      rcases parameterText_chars (legible p among) ',' comma with token | equals | blank
      · exact absurd token (by decide)
      · exact absurd equals (by decide)
      · exact absurd blank (by decide)
  refine map_unique ?_ (listing_unique (listed parameters left) (listed others right) same)
  intro p first q second
  exact parameterText_unique (left p first) (right q second)

def Member.Legible : Member → Prop
  | .field f => f.modifiers ≠ [] ∧ (∃ name, f.name = .str name ∧ Token name) ∧
    (∃ type, f.type = .str type ∧ Token type) ∧ f.initializer ≠ some ""
  | .property p => p.modifiers ≠ [] ∧ (∃ name, p.name = .str name ∧ Token name) ∧
    ∃ type, p.type = .str type ∧ Token type
  | .constructor c => c.modifiers ≠ [] ∧ (∀ p ∈ c.parameters, p.Legible) ∧
    (∀ arguments, c.baseArguments = some arguments → ∀ a ∈ arguments, Token a) ∧
    ∀ statement ∈ c.body, statement ≠ "\x7d"

namespace Member

def words (identifier : String) : Member → List String
  | .field f => modifierWords f.modifiers ++ [f.type.text,f.name.text]
  | .property p => modifierWords p.modifiers ++ [p.type.text,p.name.text]
  | .constructor c => modifierWords c.modifiers ++ [identifier]

def mark : Member → Char
  | .field f => if f.initializer.isSome then '=' else ';'
  | .property _ => '{'
  | .constructor _ => '('

def baseCall : Option (List String) → List Char
  | some arguments => [' ',':',' ','b','a','s','e','('] ++ (", ".intercalate arguments).toList ++ [')']
  | none => []

def rest : Member → List Char
  | .field f => (match f.initializer with | some value => ' ' :: (value.toList ++ [';']) | none => [])
  | .property p => (if p.readOnly then " get; \x7d" else " get; set; \x7d").toList
  | .constructor c => (", ".intercalate (c.parameters.map parameterText)).toList ++ ')' :: baseCall c.baseArguments

def body : Member → List (List Char)
  | .constructor c => ['{'] :: (c.body.map String.toList ++ [['}']])
  | _ => []

end Member

def memberLines (identifier : String) (m : Member) : List (List Char) := (memberRowsOf identifier m).map Row.content

theorem phrase_modifiers {modifiers : List Modifier} (present : modifiers ≠ []) {more : List String} (given : more ≠ []) :
    phrase (modifierWords modifiers ++ more) = (modifiersText modifiers).toList ++ ' ' :: phrase more := by
  rw [phrase_append (by simpa [modifierWords] using present) given,modifiersText,toList_phrase]
  rfl

theorem memberLines_eq {m : Member} (legible : m.Legible) (identifier : String) :
    memberLines identifier m = opening (m.words identifier) m.mark m.rest :: m.body := by
  cases m with
  | field f =>
    obtain ⟨present,_,_,initializer⟩ := legible
    have line : (fieldText f f.type.text).toList = opening (Member.words identifier (.field f)) (Member.mark (.field f))
        (Member.rest (.field f)) := by
      rw [opening,Member.words,phrase_modifiers present (List.cons_ne_nil _ _)]
      cases given : f.initializer with
      | none => simp [fieldText,Member.mark,Member.rest,phrase,given]
      | some value =>
        have filled : value ≠ "" := by
          rintro rfl
          exact initializer given
        simp [fieldText,Member.mark,Member.rest,phrase,given,filled]
    rw [← line]
    rfl
  | property p =>
    have line : (propertyText p p.type.text).toList = opening (Member.words identifier (.property p))
        (Member.mark (.property p)) (Member.rest (.property p)) := by
      rw [opening,Member.words,phrase_modifiers legible.1 (List.cons_ne_nil _ _)]
      cases given : p.readOnly <;> simp [propertyText,Member.mark,Member.rest,phrase,given]
    rw [← line]
    rfl
  | constructor c =>
    obtain ⟨present,_⟩ := legible
    have line : (constructorText identifier c).toList = opening (Member.words identifier (.constructor c)) '('
        (Member.rest (.constructor c)) := by
      unfold opening Member.words
      rw [phrase_modifiers present (List.cons_ne_nil identifier [])]
      unfold constructorText Member.rest Member.baseCall
      cases given : c.baseArguments <;> simp [phrase,given]
    rw [Member.mark,← line]
    simp [memberLines,memberRowsOf,Member.body,Row.ofText,Function.comp_def]

theorem typedWords_unique {modifiers others : List Modifier} {type name otherType otherName : String}
    (words : modifierWords modifiers ++ [type,name] = modifierWords others ++ [otherType,otherName]) :
    modifiers = others ∧ type = otherType ∧ name = otherName := by
  obtain ⟨front,back⟩ := List.append_inj' words rfl
  exact ⟨modifierWords_injective front,by simpa using back⟩

theorem field_unique {f g : Field} (left : (Member.field f).Legible) (right : (Member.field g).Legible)
    {identifier : String} (words : (Member.field f).words identifier = (Member.field g).words identifier)
    (rests : (Member.field f).rest = (Member.field g).rest) : f = g := by
  obtain ⟨name,type,modifiers,initializer⟩ := f
  obtain ⟨otherName,otherType,otherModifiers,otherInitializer⟩ := g
  obtain ⟨_,⟨n,named,_⟩,⟨t,typed,_⟩,_⟩ := left
  obtain ⟨_,⟨m,namedToo,_⟩,⟨u,typedToo,_⟩,_⟩ := right
  simp only at named typed namedToo typedToo
  subst named typed namedToo typedToo
  obtain ⟨rfl,rfl,rfl⟩ := typedWords_unique words
  congr
  cases initializer <;> cases otherInitializer <;> simp_all [Member.rest,String.toList_inj]

theorem property_unique {p q : Property} (left : (Member.property p).Legible) (right : (Member.property q).Legible)
    {identifier : String} (words : (Member.property p).words identifier = (Member.property q).words identifier)
    (rests : (Member.property p).rest = (Member.property q).rest) : p = q := by
  obtain ⟨name,type,modifiers,readOnly⟩ := p
  obtain ⟨otherName,otherType,otherModifiers,otherReadOnly⟩ := q
  obtain ⟨_,⟨n,named,_⟩,t,typed,_⟩ := left
  obtain ⟨_,⟨m,namedToo,_⟩,u,typedToo,_⟩ := right
  simp only at named typed namedToo typedToo
  subst named typed namedToo typedToo
  obtain ⟨rfl,rfl,rfl⟩ := typedWords_unique words
  congr
  revert rests
  cases readOnly <;> cases otherReadOnly <;> simp [Member.rest]

theorem baseCall_unique {own other : Option (List String)} (left : ∀ l, own = some l → ∀ a ∈ l, Token a)
    (right : ∀ l, other = some l → ∀ a ∈ l, Token a) (same : Member.baseCall own = Member.baseCall other) :
    own = other := by
  cases own with
  | none =>
    cases other with
    | none => rfl
    | some m => simp [Member.baseCall] at same
  | some l =>
    cases other with
    | none => simp [Member.baseCall] at same
    | some m =>
      have listed := List.append_cancel_left (List.append_cancel_right same)
      rw [listing_unique (tokens_listed (left l rfl)) (tokens_listed (right m rfl)) listed]

theorem constructor_unique {c d : Constructor} (left : (Member.constructor c).Legible)
    (right : (Member.constructor d).Legible) {identifier : String}
    (words : (Member.constructor c).words identifier = (Member.constructor d).words identifier)
    (rests : (Member.constructor c).rest = (Member.constructor d).rest) {r s : List (List Char)}
    (bodies : (Member.constructor c).body ++ r = (Member.constructor d).body ++ s) : c = d ∧ r = s := by
  obtain ⟨parameters,modifiers,arguments,body⟩ := c
  obtain ⟨otherParameters,otherModifiers,otherArguments,otherBody⟩ := d
  obtain ⟨_,legible,tokens,closing⟩ := left
  obtain ⟨_,legibleToo,tokensToo,closingToo⟩ := right
  obtain rfl := modifierWords_injective (List.append_inj' words rfl).1
  have inside : ∀ l : List Parameter, (∀ p ∈ l, p.Legible) →
      ∀ c ∈ (", ".intercalate (l.map parameterText)).toList, c ≠ ')' := by
    rintro l known c member rfl
    rw [String.toList_intercalate] at member
    rcases mem_intercalate member with between | ⟨text,among,here⟩
    · exact absurd between (by decide)
    · obtain ⟨s,listed,rfl⟩ := List.mem_map.mp among
      obtain ⟨p,present,rfl⟩ := List.mem_map.mp listed
      rcases parameterText_chars (known p present) ')' here with token | equals | blank
      · exact absurd token (by decide)
      · exact absurd equals (by decide)
      · exact absurd blank (by decide)
  obtain ⟨lists,_,bases⟩ := stop_unique (inside parameters legible) (inside otherParameters legibleToo)
    (by simp) (by simp) rests
  obtain rfl := parameters_unique legible legibleToo lists
  obtain rfl := baseCall_unique tokens tokensToo bases
  have statements : ∀ l : List String, (∀ statement ∈ l, statement ≠ "\x7d") →
      ∀ line ∈ l.map String.toList, line ≠ ['}'] := by
    rintro l other line member rfl
    obtain ⟨statement,among,shown⟩ := List.mem_map.mp member
    exact other statement among (String.toList_injective shown)
  rw [Member.body,Member.body,List.cons_append,List.cons_append,List.append_assoc,List.append_assoc] at bodies
  obtain ⟨lines,_,after⟩ := stop_unique (statements body closing) (statements otherBody closingToo) (by simp) (by simp)
    (List.cons.inj bodies).2
  obtain rfl := texts_injective lines
  exact ⟨rfl,after⟩

theorem Member.words_tokens {m : Member} (legible : m.Legible) {identifier : String} (named : Token identifier) :
    (∀ w ∈ m.words identifier, Token w) ∧ m.words identifier ≠ [] := by
  cases m with
  | field f =>
    obtain ⟨_,⟨name,given,token⟩,⟨type,typed,tokenToo⟩,_⟩ := legible
    refine declaration_tokens f.modifiers ?_ (List.cons_ne_nil _ _)
    simp [given,typed,token,tokenToo]
  | property p =>
    obtain ⟨_,⟨name,given,token⟩,type,typed,tokenToo⟩ := legible
    refine declaration_tokens p.modifiers ?_ (List.cons_ne_nil _ _)
    simp [given,typed,token,tokenToo]
  | constructor c => exact declaration_tokens c.modifiers (by simpa using named) (List.cons_ne_nil _ _)

theorem Member.mark_other (m : Member) : isDottedChar m.mark = false ∧ m.mark ≠ ' ' := by
  cases m with
  | field f =>
    rw [mark]
    split <;> decide
  | property p => exact ⟨rfl,by simp [mark]⟩
  | constructor c => exact ⟨rfl,by simp [mark]⟩

-- A member can be told from whatever follows it: the mark of its first line tells what it is.
theorem memberLines_code {identifier : String} (named : Token identifier) :
    PrefixCode Member.Legible (memberLines identifier) := by
  intro a b left right r s same
  rw [memberLines_eq left,memberLines_eq right,List.cons_append,List.cons_append] at same
  obtain ⟨heads,bodies⟩ := List.cons.inj same
  obtain ⟨tokens,present⟩ := Member.words_tokens left named
  obtain ⟨tokensToo,presentToo⟩ := Member.words_tokens right named
  obtain ⟨words,marks,rests⟩ := opening_unique tokens tokensToo present presentToo a.mark_other b.mark_other heads
  have fieldMark : ∀ f : Field, (Member.field f).mark ≠ '{' ∧ (Member.field f).mark ≠ '(' := by
    intro f
    rw [Member.mark]
    split <;> decide
  have braces : '{' ≠ '(' := by decide
  cases a with
  | field f =>
    cases b with
    | field g =>
      obtain rfl := field_unique left right words rests
      exact ⟨rfl,bodies⟩
    | property q => exact absurd marks (fieldMark f).1
    | constructor d => exact absurd marks (fieldMark f).2
  | property p =>
    cases b with
    | field g => exact absurd marks.symm (fieldMark g).1
    | property q =>
      obtain rfl := property_unique left right words rests
      exact ⟨rfl,bodies⟩
    | constructor d => exact absurd marks braces
  | constructor c =>
    cases b with
    | field g => exact absurd marks.symm (fieldMark g).2
    | property q => exact absurd marks.symm braces
    | constructor d =>
      obtain ⟨rfl,equal⟩ := constructor_unique left right words rests bodies
      exact ⟨rfl,equal⟩

structure ClassDef.Legible (c : ClassDef) : Prop where
  identifier : Token c.identifier
  modifiers : c.modifiers ≠ []
  baseTypes : ∀ type ∈ c.baseTypes, Token type
  members : ∀ m ∈ c.members, m.Legible

def markLine (mark : String) : List Char := '[' :: (mark.toList ++ [']'])

theorem markLine_injective : Function.Injective markLine := by
  intro mark other same
  exact String.toList_injective (List.append_cancel_right (List.cons.inj same).2)

def classLines (c : ClassDef) : List (List Char) := (classRowsOf c).map Row.content

theorem classLines_eq (c : ClassDef) : classLines c = c.attributes.map markLine ++ (headText c).toList ::
    ['{'] :: (List.intercalate [[]] (c.members.map (memberLines c.identifier)) ++ [['}']]) := by
  have marks : (c.attributes.map markRow).map Row.content = c.attributes.map markLine := by
    rw [List.map_map]
    exact List.map_congr_left fun mark _ => by simp [markRow,markLine,Row.ofText]
  rw [classLines,classRowsOf,List.map_append,marks,List.map_cons,List.map_cons,List.map_append,map_intercalate,
    List.map_map]
  rfl

-- The head of a class ends with the line if there is no base type.
def ClassDef.mark (c : ClassDef) : Char := if c.baseTypes = [] then '\n' else ':'

def ClassDef.rest (c : ClassDef) : List Char :=
  if c.baseTypes = [] then [] else ' ' :: ((", ".intercalate c.baseTypes).toList ++ ['\n'])

theorem headText_opening {c : ClassDef} (present : c.modifiers ≠ []) : (headText c).toList ++ ['\n'] =
    opening (modifierWords c.modifiers ++ ["class",c.identifier]) c.mark c.rest := by
  rw [opening,phrase_modifiers present (List.cons_ne_nil _ _)]
  by_cases alone : c.baseTypes = [] <;> simp [headText,ClassDef.mark,ClassDef.rest,phrase,alone]

theorem headText_unique {c d : ClassDef} (left : c.Legible) (right : d.Legible)
    (same : (headText c).toList = (headText d).toList) :
    c.modifiers = d.modifiers ∧ c.identifier = d.identifier ∧ c.baseTypes = d.baseTypes := by
  have tokens : ∀ c : ClassDef, c.Legible → (∀ w ∈ modifierWords c.modifiers ++ ["class",c.identifier], Token w) ∧
      modifierWords c.modifiers ++ ["class",c.identifier] ≠ [] := by
    intro c legible
    have keyword : Token "class" := by decide
    exact declaration_tokens c.modifiers (by simp [keyword,legible.identifier]) (List.cons_ne_nil _ _)
  have marks : ∀ c : ClassDef, isDottedChar c.mark = false ∧ c.mark ≠ ' ' := by
    intro c
    rw [ClassDef.mark]
    split <;> decide
  have lines := congrArg (· ++ ['\n']) same
  simp only [headText_opening left.modifiers,headText_opening right.modifiers] at lines
  obtain ⟨words,mark,rests⟩ := opening_unique (tokens c left).1 (tokens d right).1 (tokens c left).2 (tokens d right).2
    (marks c) (marks d) lines
  obtain ⟨front,back⟩ := List.append_inj' words rfl
  refine ⟨modifierWords_injective front,by simpa using back,?_⟩
  unfold ClassDef.rest at rests
  by_cases alone : c.baseTypes = []
  · by_cases aloneToo : d.baseTypes = []
    · rw [alone,aloneToo]
    · rw [if_pos alone,if_neg aloneToo] at rests
      cases rests
  · by_cases aloneToo : d.baseTypes = []
    · rw [if_neg alone,if_pos aloneToo] at rests
      cases rests
    · rw [if_neg alone,if_neg aloneToo] at rests
      exact listing_unique (tokens_listed left.baseTypes) (tokens_listed right.baseTypes)
        (List.append_cancel_right (List.cons.inj rests).2)

theorem headText_letter {c : ClassDef} (legible : c.Legible) :
    ∃ letter ∈ ['p','i','s','r'], (headText c).toList.head? = some letter := by
  obtain ⟨letter,among,first⟩ := modifiersText_letter legible.modifiers
  exact ⟨letter,among,by simp [headText,first]⟩

-- Apart from its namespace, a class can be told from whatever follows it: words end at a blank, bodies at the bracket that
-- closes them, members at an empty line.
theorem classLines_code (ns : String) : PrefixCode (fun c : ClassDef => c.Legible ∧ c.ns = ns) classLines := by
  rintro c d ⟨left,rfl⟩ ⟨right,inside⟩ r s same
  rw [classLines_eq,classLines_eq] at same
  simp only [List.append_assoc,List.cons_append] at same
  have marked : ∀ c : ClassDef, ∀ line ∈ c.attributes.map markLine, line.head? = some '[' := by
    intro c line member
    obtain ⟨mark,_,rfl⟩ := List.mem_map.mp member
    rfl
  have unmarked : ∀ c : ClassDef, c.Legible → (headText c).toList.head? ≠ some '[' := by
    intro c legible bracket
    obtain ⟨letter,among,first⟩ := headText_letter legible
    rw [first,Option.some.injEq] at bracket
    subst bracket
    exact absurd among (by decide)
  obtain ⟨attributes,heads,later⟩ := stop_unique (marked c) (marked d) (unmarked c left) (unmarked d right) same
  obtain ⟨modifiers,identifier,baseTypes⟩ := headText_unique left right heads
  have starts : ∀ m : Member, m.Legible → ∃ line rest, memberLines c.identifier m = line :: rest ∧ line ≠ ['}'] := by
    intro m legible
    obtain ⟨tokens,present⟩ := Member.words_tokens legible left.identifier
    exact ⟨_,_,memberLines_eq legible c.identifier,opening_ne_single tokens present _ _ _⟩
  rw [← identifier] at later
  obtain ⟨members,rest⟩ := (memberLines_code left.identifier).separated (by decide) starts left.members right.members
    (List.cons.inj later).2
  have marks := List.map_injective_iff.mpr markLine_injective attributes
  refine ⟨?_,rest⟩
  cases c
  cases d
  simp only at *
  subst modifiers identifier baseTypes members marks inside
  rfl

end CSharp
end TypedMvc
