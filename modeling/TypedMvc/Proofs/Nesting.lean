import TypedMvc.Proofs.Brackets
import TypedMvc.Proofs.Vocabulary

namespace TypedMvc

namespace CSharp

open Text

-- Rows that lead from one number of open curly brackets to another one: a row keeps the level, or it consists of one
-- bracket that opens or closes one.
inductive Laid : Nat → List Row → Nat → Prop where
  | nil (depth : Nat) : Laid depth [] depth
  | blank {depth last : Nat} {rows : List Row} : Laid depth rows last → Laid depth (.blank :: rows) last
  | flat {depth last : Nat} {content : List Char} {rows : List Row} : Starts content → Tidy content →
    Laid depth rows last → Laid depth (⟨depth,content⟩ :: rows) last
  | opened {depth last : Nat} {rows : List Row} : Laid (depth + 1) rows last → Laid depth (⟨depth,['{']⟩ :: rows) last
  | closed {depth last : Nat} {rows : List Row} : Laid depth rows last → Laid (depth + 1) (⟨depth,['}']⟩ :: rows) last

namespace Laid

variable {depth middle last : Nat} {rows more : List Row}

theorem append (front : Laid depth rows middle) (back : Laid middle more last) : Laid depth (rows ++ more) last := by
  induction front with
  | nil _ => exact back
  | blank _ ih => exact .blank (ih back)
  | flat starts tidy _ ih => exact .flat starts tidy (ih back)
  | opened _ ih => exact .opened (ih back)
  | closed _ ih => exact .closed (ih back)

theorem split {before after : List Row} (laid : Laid depth (before ++ after) last) :
    ∃ middle, Laid depth before middle ∧ Laid middle after last := by
  induction before generalizing depth with
  | nil => exact ⟨depth,.nil depth,laid⟩
  | cons row rest ih =>
    rw [List.cons_append] at laid
    cases laid with
    | blank later =>
      obtain ⟨middle,front,back⟩ := ih later
      exact ⟨middle,.blank front,back⟩
    | flat starts tidy later =>
      obtain ⟨middle,front,back⟩ := ih later
      exact ⟨middle,.flat starts tidy front,back⟩
    | opened later =>
      obtain ⟨middle,front,back⟩ := ih later
      exact ⟨middle,.opened front,back⟩
    | closed later =>
      obtain ⟨middle,front,back⟩ := ih later
      exact ⟨middle,.closed front,back⟩

theorem deeper (laid : Laid depth rows last) : Laid (depth + 1) (rows.map Row.deeper) (last + 1) := by
  induction laid with
  | nil depth => exact .nil _
  | blank _ ih => exact .blank ih
  | @flat depth _ content _ starts tidy _ ih =>
    have present : content ≠ [] := by
      obtain ⟨c,rest,shown,_⟩ := starts
      exact shown ▸ List.cons_ne_nil c rest
    have lower : Row.deeper ⟨depth,content⟩ = ⟨depth + 1,content⟩ := if_neg present
    rw [List.map_cons,lower]
    exact .flat starts tidy ih
  | opened _ ih => exact .opened ih
  | closed _ ih => exact .closed ih

theorem intercalate {blocks : List (List Row)} (each : ∀ b ∈ blocks, Laid depth b depth) :
    Laid depth (List.intercalate [.blank] blocks) depth := by
  induction blocks with
  | nil => exact .nil depth
  | cons b rest ih =>
    have later := ih fun c member => each c (List.mem_cons_of_mem _ member)
    cases rest with
    | nil =>
      rw [List.intercalate_singleton]
      exact each b List.mem_cons_self
    | cons c more =>
      rw [List.intercalate_cons_cons,List.append_assoc]
      exact (each b List.mem_cons_self).append (.blank later)

theorem flatten {blocks : List (List Row)} (each : ∀ b ∈ blocks, Laid depth b depth) :
    Laid depth blocks.flatten depth := by
  induction blocks with
  | nil => exact .nil depth
  | cons b rest ih =>
    exact (each b List.mem_cons_self).append (ih fun c member => each c (List.mem_cons_of_mem _ member))

theorem map {row : α → Row} {l : List α} (each : ∀ a ∈ l, Laid depth [row a] depth) :
    Laid depth (l.map row) depth := by
  induction l with
  | nil => exact .nil depth
  | cons a rest ih =>
    exact (each a List.mem_cons_self).append (ih fun b member => each b (List.mem_cons_of_mem _ member))

theorem text {s : String} (starts : Starts s.toList) (tidy : Tidy s.toList) (depth : Nat) :
    Laid depth [.ofText depth s] depth := .flat starts tidy (.nil depth)

-- A row that is not blank stands at the depth of the open brackets, the one apart that it closes itself.
theorem head {row : Row} (laid : Laid depth (row :: rows) last) :
    row = .blank ∨ ∃ c rest, row.content = c :: rest ∧ isBlank c = false ∧ Unbroken row.content ∧
      depth = if c = '}' then row.depth + 1 else row.depth := by
  cases laid with
  | blank _ => exact .inl rfl
  | flat starts tidy _ =>
    obtain ⟨c,rest,rfl,visible,other⟩ := starts
    exact .inr ⟨c,rest,rfl,visible,tidy.unbroken,by rw [if_neg other]⟩
  | opened _ => exact .inr ⟨'{',[],rfl,rfl,by simp [Unbroken,isLineBreak],rfl⟩
  | closed _ => exact .inr ⟨'}',[],rfl,rfl,by simp [Unbroken,isLineBreak],rfl⟩

theorem sound (laid : Laid depth rows last) : ∀ row ∈ rows, row.Sound := by
  intro row member
  obtain ⟨before,after,rfl⟩ := List.append_of_mem member
  obtain ⟨middle,_,here⟩ := laid.split
  rcases here.head with rfl | ⟨c,rest,shown,visible,unbroken,_⟩
  · exact ⟨by simp [Unbroken,Row.blank],.inl rfl⟩
  · exact ⟨unbroken,.inr ⟨c,rest,shown,visible⟩⟩

-- The brackets that are open after each row are as many as are open before the next one.
theorem scan (laid : Laid depth rows last) (width : Nat) :
    Text.scan (List.replicate depth '{') ((rows.map (Row.line (Row.margin width))).flatMap (· ++ ['\n'])) =
      some (List.replicate last '{') := by
  have spaces : ∀ (count : Nat) (stack content : List Char),
      Text.scan stack (List.replicate count ' ' ++ content) = Text.scan stack content := by
    intro count stack content
    induction count with
    | zero => rfl
    | succ count ih =>
      rw [List.replicate_succ,List.cons_append,scan_cons]
      exact ih
  have row : ∀ (depth : Nat) (content rest stack : List Char),
      Text.scan stack (Row.line (Row.margin width) ⟨depth,content⟩ ++ ['\n'] ++ rest) =
        (Text.scan stack content).bind fun next => Text.scan next rest := by
    intro depth content rest stack
    rw [Row.line_margin,List.append_assoc,List.append_assoc,spaces,scan_append]
    rfl
  induction laid with
  | nil depth => rfl
  | blank _ ih => rw [List.map_cons,List.flatMap_cons,Row.blank,row]; exact ih
  | flat _ tidy _ ih => rw [List.map_cons,List.flatMap_cons,row,tidy.scan]; exact ih
  | opened _ ih => rw [List.map_cons,List.flatMap_cons,row]; exact ih
  | @closed depth _ _ _ ih => rw [List.map_cons,List.flatMap_cons,row,List.replicate_succ]; exact ih

theorem nested (laid : Laid 0 rows 0) (present : rows ≠ []) (width : Nat) :
    Nested (unlines (rows.map (Row.line (Row.margin width)))) := by
  have whole := laid.scan width
  rw [flatMap_newline (by simpa using present),scan_append] at whole
  have neutral : ∀ stack, Text.scan stack ['\n'] = some stack := fun _ => rfl
  simp only [neutral,Option.bind_fun_some] at whole
  exact whole

theorem aligned (laid : Laid 0 rows 0) (present : rows ≠ []) (width : Nat) :
    Aligned width (unlines (rows.map (Row.line (Row.margin width)))) := by
  have free : ∀ l ∈ rows.map (Row.line (Row.margin width)), '\n' ∉ l := by
    intro l member newline
    obtain ⟨row,among,rfl⟩ := List.mem_map.mp member
    exact absurd ((laid.sound row among).line_unbroken width '\n' newline) (by decide)
  intro before line after split visible
  rw [unlines,List.splitOn_intercalate '\n' free (by simpa using present)] at split
  obtain ⟨front,rest,rfl,rfl,later⟩ := List.map_eq_append_iff.mp split
  obtain ⟨row,back,rfl,rfl,rfl⟩ := List.map_eq_cons_iff.mp later
  obtain ⟨depth,earlier,here⟩ := laid.split
  rcases here.head with rfl | ⟨c,content,shown,dark,_,level⟩
  · cases visible
  · refine ⟨List.replicate depth '{',row.depth,c,content,earlier.scan width,?_,dark,?_⟩
    · rw [Row.line_margin,shown,Nat.mul_comm]
    · rw [List.count_replicate_self,level]

end Laid

def TidyText (s : String) : Prop := Tidy s.toList

theorem TidyText.append {s t : String} (left : TidyText s) (right : TidyText t) : TidyText (s ++ t) := by
  rw [TidyText,String.toList_append]
  exact Tidy.append left right

theorem TidyText.intercalate {sep : String} {parts : List String} (between : TidyText sep)
    (each : ∀ part ∈ parts, TidyText part) : TidyText (sep.intercalate parts) := by
  rw [TidyText,String.toList_intercalate]
  refine Tidy.intercalate between ?_
  intro l member
  obtain ⟨part,among,rfl⟩ := List.mem_map.mp member
  exact each part among

instance (s : String) : Decidable (TidyText s) :=
  have unbroken : (s.toList.all fun c => !isLineBreak c) = true ↔ Unbroken s.toList := by
    simp [Unbroken]
  decidable_of_iff ((s.toList.all fun c => !isLineBreak c) = true ∧ scan [] s.toList = some [])
    ⟨fun both => ⟨unbroken.mp both.1,both.2⟩,fun tidy => ⟨unbroken.mpr tidy.unbroken,tidy.balanced⟩⟩

def StartsText (s : String) : Prop := Starts s.toList

theorem StartsText.append {s : String} (starts : StartsText s) (t : String) : StartsText (s ++ t) := by
  rw [StartsText,String.toList_append]
  exact Starts.append starts _

structure Parameter.Tidy (p : Parameter) : Prop where
  name : TidyText p.name
  type : TidyText p.type
  default : ∀ value, p.default = some value → TidyText value

def Member.Tidy : Member → Prop
  | .field f => f.modifiers ≠ [] ∧ TidyText f.name.text ∧ (∃ type, f.type = .str type ∧ TidyText type) ∧
    ∀ value, f.initializer = some value → TidyText value
  | .property p => p.modifiers ≠ [] ∧ TidyText p.name.text ∧ ∃ type, p.type = .str type ∧ TidyText type
  | .constructor c => c.modifiers ≠ [] ∧ (∀ p ∈ c.parameters, p.Tidy) ∧
    (∀ arguments, c.baseArguments = some arguments → ∀ a ∈ arguments, TidyText a) ∧
    ∀ statement ∈ c.body, TidyText statement ∧ StartsText statement

-- A class of tidy parts. Every declaration has a modifier, so none starts with a part that may be empty.
structure ClassDef.Tidy (c : ClassDef) : Prop where
  identifier : TidyText c.identifier
  modifiers : c.modifiers ≠ []
  baseTypes : ∀ type ∈ c.baseTypes, TidyText type
  attributes : ∀ mark ∈ c.attributes, TidyText mark
  members : ∀ m ∈ c.members, m.Tidy

theorem modifiersText_tidy (modifiers : List Modifier) : TidyText (modifiersText modifiers) := by
  refine TidyText.intercalate (by decide) ?_
  intro word member
  obtain ⟨m,_,rfl⟩ := List.mem_map.mp member
  cases m <;> decide

theorem modifiersText_letter {modifiers : List Modifier} (present : modifiers ≠ []) :
    ∃ letter ∈ ['p','i','s','r'], (modifiersText modifiers).toList.head? = some letter := by
  cases modifiers with
  | nil => exact absurd rfl present
  | cons m rest =>
    obtain ⟨letter,among,first⟩ : ∃ letter ∈ ['p','i','s','r'], m.word.toList.head? = some letter := by
      cases m <;> exact ⟨_,by decide,rfl⟩
    refine ⟨letter,among,?_⟩
    rw [modifiersText,String.toList_intercalate]
    cases rest with
    | nil => simpa using first
    | cons n more => simp [List.intercalate_cons_cons,first]

theorem modifiersText_starts {modifiers : List Modifier} (present : modifiers ≠ []) :
    StartsText (modifiersText modifiers) := by
  obtain ⟨letter,among,first⟩ := modifiersText_letter present
  obtain ⟨rest,shown⟩ := List.head?_eq_some_iff.mp first
  refine ⟨letter,rest,shown,?_⟩
  simp only [List.mem_cons,List.not_mem_nil,or_false] at among
  rcases among with rfl | rfl | rfl | rfl <;> decide

theorem TidyText.call {front : String} {parts : List String} (tidy : TidyText front)
    (each : ∀ part ∈ parts, TidyText part) : TidyText (front ++ "(" ++ ", ".intercalate parts ++ ")") := by
  have between : TidyText ", " := by decide
  have inner := Tidy.enclosed (TidyText.intercalate between each) (c := '(') (by decide)
  have shown : (front ++ "(" ++ ", ".intercalate parts ++ ")").toList =
      front.toList ++ '(' :: ((", ".intercalate parts).toList ++ [partner '(']) := by
    simp [partner]
  rw [TidyText,shown]
  exact Tidy.append tidy inner

theorem parameterText_tidy {p : Parameter} (tidy : p.Tidy) : TidyText (parameterText p) := by
  refine ((tidy.type.append (by decide)).append tidy.name).append ?_
  cases given : p.default with
  | none => exact (by decide : TidyText "")
  | some value => exact TidyText.append (by decide) (tidy.default value given)

theorem fieldText_tidy {f : Field} (tidy : (Member.field f).Tidy) :
    TidyText (fieldText f f.type.text) ∧ StartsText (fieldText f f.type.text) := by
  obtain ⟨present,name,⟨type,shown,typed⟩,initializer⟩ := tidy
  rw [shown,Value.text_str]
  constructor
  · refine (((((modifiersText_tidy _).append (by decide)).append typed).append (by decide)).append name).append ?_
    cases given : f.initializer with
    | none => exact (by decide : TidyText ";")
    | some value =>
      by_cases empty : value = ""
      · simp only [empty,if_true]
        decide
      · simp only [empty,if_false]
        exact (TidyText.append (by decide) (initializer value given)).append (by decide)
  · exact (((((modifiersText_starts present).append _).append _).append _).append _).append _

theorem propertyText_tidy {p : Property} (tidy : (Member.property p).Tidy) :
    TidyText (propertyText p p.type.text) ∧ StartsText (propertyText p p.type.text) := by
  obtain ⟨present,name,type,shown,typed⟩ := tidy
  rw [shown,Value.text_str]
  constructor
  · refine (((((modifiersText_tidy _).append (by decide)).append typed).append (by decide)).append name).append ?_
    cases p.readOnly <;> decide
  · exact (((((modifiersText_starts present).append _).append _).append _).append _).append _

theorem constructorText_tidy {identifier : String} {c : Constructor} (named : TidyText identifier)
    (tidy : (Member.constructor c).Tidy) :
    TidyText (constructorText identifier c) ∧ StartsText (constructorText identifier c) := by
  obtain ⟨present,parameters,arguments,_⟩ := tidy
  constructor
  · refine TidyText.append (TidyText.call (((modifiersText_tidy _).append (by decide)).append named) ?_) ?_
    · intro part member
      obtain ⟨p,among,rfl⟩ := List.mem_map.mp member
      exact parameterText_tidy (parameters p among)
    · cases given : c.baseArguments with
      | none => exact (by decide : TidyText "")
      | some own =>
        have base : TidyText " : base" := by decide
        have call := TidyText.call base (arguments own given)
        rwa [show " : base" ++ "(" = " : base(" by decide] at call
  · exact ((((((modifiersText_starts present).append _).append _).append _).append _).append _).append _

theorem Member.Tidy.laid {identifier : String} (named : TidyText identifier) {m : Member} (tidy : m.Tidy) :
    Laid 1 (memberRowsOf identifier m) 1 := by
  cases m with
  | field f =>
    obtain ⟨text,starts⟩ := fieldText_tidy tidy
    exact Laid.text starts text 1
  | property p =>
    obtain ⟨text,starts⟩ := propertyText_tidy tidy
    exact Laid.text starts text 1
  | constructor c =>
    obtain ⟨text,starts⟩ := constructorText_tidy named tidy
    have body : Laid 2 (c.body.map (Row.ofText 2)) 2 := by
      refine Laid.map ?_
      intro statement member
      obtain ⟨tidyStatement,startsStatement⟩ := tidy.2.2.2 statement member
      exact Laid.text startsStatement tidyStatement 2
    exact .flat starts text (.opened (body.append (.closed (.nil 1))))

theorem headText_tidy {c : ClassDef} (tidy : c.Tidy) : TidyText (headText c) ∧ StartsText (headText c) := by
  constructor
  · refine (((modifiersText_tidy _).append (by decide)).append tidy.identifier).append ?_
    split
    · decide
    · exact TidyText.append (by decide) (TidyText.intercalate (by decide) tidy.baseTypes)
  · exact (((modifiersText_starts tidy.modifiers).append _).append _).append _

theorem ClassDef.Tidy.laid {c : ClassDef} (tidy : c.Tidy) : Laid 0 (classRowsOf c) 0 := by
  obtain ⟨text,starts⟩ := headText_tidy tidy
  have marks : Laid 0 (c.attributes.map markRow) 0 := by
    refine Laid.map ?_
    intro mark member
    have inner := Tidy.enclosed (tidy.attributes mark member) (c := '[') (by decide)
    have shown : ("[" ++ mark ++ "]").toList = '[' :: (mark.toList ++ [partner '[']) := by
      simp [partner]
    refine Laid.text ?_ ?_ 0
    · rw [shown]
      exact ⟨_,_,rfl,by decide,by decide⟩
    · rwa [shown]
  have members : Laid 1 (List.intercalate [.blank] (c.members.map (memberRowsOf c.identifier))) 1 := by
    refine Laid.intercalate ?_
    intro b member
    obtain ⟨m,among,rfl⟩ := List.mem_map.mp member
    exact (tidy.members m among).laid tidy.identifier
  exact marks.append (.flat starts text (.opened (members.append (.closed (.nil 0)))))

theorem ClassDef.Tidy.printable {c : ClassDef} (tidy : c.Tidy) : c.Printable := by
  refine ⟨?_,tidy.laid.sound⟩
  intro m member
  have parts := tidy.members m member
  cases m with
  | field f =>
    obtain ⟨_,_,⟨type,shown,_⟩,_⟩ := parts
    exact ⟨type,shown⟩
  | property p =>
    obtain ⟨_,_,type,shown,_⟩ := parts
    exact ⟨type,shown⟩
  | constructor c => trivial

theorem namespaceRows_laid {group : String × List ClassDef} (named : TidyText group.1)
    (tidy : ∀ c ∈ group.2, c.Tidy) : Laid 0 (namespaceRows group) 0 := by
  have classes : Laid 0 (List.intercalate [.blank] (group.2.map classRowsOf)) 0 := by
    refine Laid.intercalate ?_
    intro b member
    obtain ⟨c,among,rfl⟩ := List.mem_map.mp member
    exact (tidy c among).laid
  refine .blank ?_
  split
  · exact classes
  · have head : TidyText "namespace " := by decide
    have starts : StartsText "namespace " := ⟨_,_,rfl,by decide,by decide⟩
    exact .flat (starts.append _) (head.append named) (.opened (classes.deeper.append (.closed (.nil 0))))

theorem linesAt_laid {texts : List String} (each : ∀ text ∈ texts, text = "" ∨ StartsText text ∧ TidyText text) :
    Laid 0 ((texts.map String.toList).map (Row.mk 0)) 0 := by
  rw [List.map_map]
  refine Laid.map ?_
  intro text member
  rcases each text member with rfl | ⟨starts,tidy⟩
  · exact .blank (.nil 0)
  · exact Laid.text starts tidy 0

theorem fileRows_laid {layout : Layout} {classes : List ClassDef} (usings : ∀ ns ∈ layout.usings, TidyText ns)
    (tidy : ∀ c ∈ classes, c.Tidy) (namespaces : ∀ c ∈ classes, TidyText c.ns) :
    Laid 0 (fileRows layout classes) 0 := by
  have header : Laid 0 ((headerLines layout).map (Row.mk 0)) 0 := by
    have shown : headerLines layout = (["// <auto-generated />",
        "// This file was generated by " ++ toolName ++ ". Do not edit it manually.",
        "#pragma warning disable " ++ warningList,""] ++ layout.usings.map fun ns => "using " ++ ns ++ ";").map
          String.toList := by
      rw [headerLines,List.map_append,List.map_map]
      rfl
    rw [shown]
    refine linesAt_laid ?_
    intro text member
    rcases List.mem_append.mp member with fixed | own
    · simp only [List.mem_cons,List.not_mem_nil,or_false] at fixed
      rcases fixed with rfl | rfl | rfl | rfl
      · exact .inr ⟨⟨_,_,rfl,by decide,by decide⟩,by decide⟩
      · exact .inr ⟨⟨_,_,rfl,by decide,by decide⟩,by decide⟩
      · exact .inr ⟨⟨_,_,rfl,by decide,by decide⟩,by decide⟩
      · exact .inl rfl
    · obtain ⟨ns,among,rfl⟩ := List.mem_map.mp own
      have front : TidyText "using " := by decide
      have starts : StartsText "using " := ⟨_,_,rfl,by decide,by decide⟩
      exact .inr ⟨(starts.append ns).append ";",(front.append (usings ns among)).append (by decide)⟩
  have footer : Laid 0 (footerLines.map (Row.mk 0)) 0 := by
    refine linesAt_laid ?_
    intro text member
    simp only [List.mem_cons,List.not_mem_nil,or_false] at member
    rcases member with rfl | rfl | rfl
    · exact .inl rfl
    · exact .inr ⟨⟨_,_,rfl,by decide,by decide⟩,by decide⟩
    · exact .inl rfl
  have groups : Laid 0 ((byNamespace classes).map namespaceRows).flatten 0 := by
    refine Laid.flatten ?_
    intro b member
    obtain ⟨group,grouped,rfl⟩ := List.mem_map.mp member
    refine namespaceRows_laid ?_ fun c inside => tidy c (mem_of_byNamespace grouped inside)
    rw [byNamespace_eq] at grouped
    obtain ⟨ns,present,rfl⟩ := List.mem_map.mp grouped
    obtain ⟨c,among,rfl⟩ := List.mem_map.mp (List.mem_eraseDups.mp present)
    exact namespaces c among
  exact (header.append groups).append footer

theorem fileRows_ne_nil (layout : Layout) (classes : List ClassDef) : fileRows layout classes ≠ [] := by
  simp [fileRows,headerLines]

end CSharp

open Text CSharp Synthesis

-- A text without blanks and brackets.
def PlainText (s : String) : Prop := ∀ c ∈ s.toList, Plain c

theorem PlainText.append {s t : String} (left : PlainText s) (right : PlainText t) : PlainText (s ++ t) := by
  intro c member
  rw [String.toList_append] at member
  rcases List.mem_append.mp member with first | second
  · exact left c first
  · exact right c second

theorem PlainText.tidy {s : String} (plain : PlainText s) : TidyText s := tidy_of_plain plain

instance : DecidablePred Plain := fun _ => inferInstanceAs (Decidable (_ ∧ _))

instance (s : String) : Decidable (PlainText s) := List.decidableBAll Plain s.toList

theorem plain_vocabulary : Vocabulary PlainText PlainText where
  labels := by decide
  className := fun plain => plain.append (by decide)
  areaClassName := fun plain => plain.append (by decide)
  inArea := fun area name => (area.append (by decide)).append (name.append (by decide))
  single := id
  member := fun outer inner => (outer.append (by decide)).append inner

theorem plain_of_dotted {c : Char} (dotted : Identifier.isDottedChar c = true) : Plain c := by
  have range : (65 ≤ c.toNat ∧ c.toNat ≤ 90) ∨ (97 ≤ c.toNat ∧ c.toNat ≤ 122) ∨ (48 ≤ c.toNat ∧ c.toNat ≤ 57) ∨
      c.toNat = 95 ∨ c.toNat = 46 := by
    delta Identifier.isDottedChar Identifier.continuesWord Char.isAlphanum Char.isAlpha Char.isUpper Char.isLower
      Char.isDigit at dotted
    simp only [Bool.or_eq_true,Bool.and_eq_true,decide_eq_true_eq,beq_iff_eq,ge_iff_le,UInt32.le_iff_toNat_le] at dotted
    rcases dotted with (((upper | lower) | digit) | rfl) | rfl
    · exact .inl upper
    · exact .inr (.inl lower)
    · exact .inr (.inr (.inl digit))
    · exact .inr (.inr (.inr (.inl rfl)))
    · exact .inr (.inr (.inr (.inr rfl)))
  constructor
  · unfold isBlank
    simp only [Bool.or_eq_false_iff,Bool.and_eq_false_iff,decide_eq_false_iff_not,beq_eq_false_iff_ne]
    omega
  · intro bracket
    have codes : c.toNat ∈ [123,125,40,41,91,93] := List.mem_map_of_mem (f := Char.toNat) bracket
    simp only [List.mem_cons,List.not_mem_nil,or_false] at codes
    omega

theorem plainText_of_dotted {s : String} (dotted : Identifier.DottedText s) : PlainText s :=
  fun c member => plain_of_dotted (dotted.chars c member)

theorem Controller.Within.plain {c : Controller} (within : c.Within Identifier.WordText Identifier.DottedText) :
    c.Within PlainText PlainText :=
  within.mono (fun _ word => plainText_of_dotted word.dotted) fun _ dotted => plainText_of_dotted dotted

theorem mem_escape {cs : List Char} {c : Char} (member : c ∈ escape cs) : c = '\\' ∨ c ∈ cs := by
  induction cs with
  | nil => cases member
  | cons d rest ih =>
    rw [escape] at member
    split at member
    · rcases List.mem_cons.mp member with slash | later
      · exact .inl slash
      · rcases List.mem_cons.mp later with rfl | rest
        · exact .inr List.mem_cons_self
        · exact (ih rest).imp_right (List.mem_cons_of_mem _)
    · rcases List.mem_cons.mp member with rfl | later
      · exact .inr List.mem_cons_self
      · exact (ih later).imp_right (List.mem_cons_of_mem _)

theorem mem_quote {cs : List Char} {c : Char} (member : c ∈ quote cs) : c = '"' ∨ c = '\\' ∨ c ∈ cs := by
  rcases List.mem_cons.mp member with first | inner
  · exact .inl first
  · rcases List.mem_append.mp inner with escaped | last
    · exact .inr (mem_escape escaped)
    · exact .inl (List.mem_singleton.mp last)

theorem stringLiteral_tidy {value : String} (plain : PlainText value) : TidyText (stringLiteral value) := by
  have quoted : ∀ c ∈ quote value.toList, Plain c := by
    intro c member
    rcases mem_quote member with rfl | rfl | own
    · decide
    · decide
    · exact plain c own
  rw [TidyText,stringLiteral,String.toList_ofList]
  exact tidy_of_plain quoted

theorem MadeMember.tidy {m : Member} (made : MadeMember PlainText PlainText m) : m.Tidy := by
  cases made with
  | bare =>
    refine ⟨List.cons_ne_nil _ _,?_,?_,?_⟩ <;> simp
  | label named valued =>
    refine ⟨List.cons_ne_nil _ _,named.tidy,⟨_,rfl,by decide⟩,?_⟩
    rintro _ ⟨⟩
    exact stringLiteral_tidy valued
  | handle isStatic named typed =>
    refine ⟨by cases isStatic <;> exact List.cons_ne_nil _ _,named.tidy,⟨_,rfl,typed.tidy⟩,?_⟩
    rintro _ ⟨⟩
    exact (TidyText.append (by decide) typed.tidy).append (by decide)

theorem marks_tidy : ∀ mark ∈ generatedCodeMarks, TidyText mark := by
  decide

theorem Wrapper.tidy {root : String} {c : ClassDef} (wrapper : Wrapper root c) : c.Tidy := by
  have tidy : ∀ {s : String}, Identifier.WordText s → TidyText s := fun word => (plainText_of_dotted word.dotted).tidy
  refine ⟨tidy wrapper.identifier,wrapper.modifiers,fun type member => tidy (wrapper.baseTypes type member),
    wrapper.attributes ▸ marks_tidy,?_⟩
  intro m member
  cases wrapper.members m member with
  | constructor modifiers parameters arguments body =>
    refine ⟨modifiers,?_,fun own given a among => tidy (arguments own given a among),?_⟩
    · intro p among
      obtain ⟨name,type,default⟩ := parameters p among
      exact ⟨tidy name,tidy type,fun value given => tidy (default value given)⟩
    · rw [body]
      intro statement among
      rw [List.mem_singleton.mp among]
      exact ⟨by decide,⟨_,_,rfl,by decide,by decide⟩⟩
  | property modifiers name type =>
    obtain ⟨name,named,word⟩ := name
    refine ⟨modifiers,?_,type.imp fun _ both => ⟨both.1,tidy both.2⟩⟩
    rw [named]
    exact tidy word

theorem Made.tidy {target : Target} {c : ClassDef} (made : Made PlainText PlainText target c) : c.Tidy := by
  cases made with
  | grouping named _ members isStatic =>
    refine ⟨named.tidy,?_,by simp [marked],marks_tidy,fun m member => (members m member).tidy⟩
    cases isStatic <;> exact List.cons_ne_nil _ _
  | wrapper among => exact (wrapper_words among).tidy

theorem CSharp.Layout.ofSettings_eq (s : Settings) : Layout.ofSettings s =
    (Layout.repetitions s.indentSize).map fun width => Layout.ofWidth width (s.referencedNamespaces.map Value.text) := by
  rw [Layout.ofSettings,Layout.marginOf]
  cases Layout.repetitions s.indentSize <;> rfl

namespace Generation

variable {target : Target} {cs : List Controller}

-- The text of a file, row by row; without a width for its indentation there is none.
theorem source_rows (s : Settings) {classes : List ClassDef} (succeeded : (generate target cs).outcome = .ok classes)
    (printable : ∀ c ∈ classes, c.Printable) : (source target (Layout.ofSettings s) cs).outcome =
      (Layout.repetitions s.indentSize).map fun width => String.ofList (unlines
        ((fileRows (Layout.ofWidth width (s.referencedNamespaces.map Value.text)) classes).map
          (Row.line (Row.margin width)))) := by
  rw [source_outcome,succeeded,Layout.ofSettings_eq]
  cases Layout.repetitions s.indentSize with
  | error failure => rfl
  | ok width =>
    simp only [Except.map,bind,Except.bind,printFile,fileText_rows printable]

theorem generate_tidy {s : Settings} (accepted : s.validate = .ok target) (clean : s.OneLine)
    (within : ∀ c ∈ cs, c.Within PlainText PlainText) {classes : List ClassDef}
    (succeeded : (generate target cs).outcome = .ok classes) : ∀ c ∈ classes, c.Tidy ∧ TidyText c.ns := by
  obtain ⟨root,helpers,_⟩ := clean.texts accepted
  have rooted := plainText_of_dotted root
  have made := generate_made plain_vocabulary rooted (plainText_of_dotted helpers.dotted)
    (Settings.helpers_ne_empty accepted) within succeeded
  intro c member
  refine ⟨(made c member).tidy,?_⟩
  rcases (made c member).ns with inside | inside
  · rw [inside]
    decide
  · rw [inside]
    exact rooted.tidy

theorem generate_laid {s : Settings} (accepted : s.validate = .ok target) (clean : s.OneLine)
    (within : ∀ c ∈ cs, c.Within PlainText PlainText) {classes : List ClassDef}
    (succeeded : (generate target cs).outcome = .ok classes) (width : Nat) :
    Laid 0 (fileRows (Layout.ofWidth width (s.referencedNamespaces.map Value.text)) classes) 0 := by
  have tidy := generate_tidy accepted clean within succeeded
  have usings : ∀ ns ∈ s.referencedNamespaces.map Value.text, TidyText ns := by
    intro ns member
    obtain ⟨v,among,rfl⟩ := List.mem_map.mp member
    obtain ⟨text,rfl,dotted⟩ := (clean.texts accepted).2.2 v among
    exact (plainText_of_dotted dotted).tidy
  exact fileRows_laid usings (fun c member => (tidy c member).1) fun c member => (tidy c member).2

-- The text of a file is properly nested and each of its lines is indented by the brackets around it, whatever the width
-- of the indentation.
theorem source_nested {s : Settings} (accepted : s.validate = .ok target) (clean : s.OneLine)
    (within : ∀ c ∈ cs, c.Within PlainText PlainText) {classes : List ClassDef}
    (succeeded : (generate target cs).outcome = .ok classes) :
    ∃ text : Nat → String,
      (source target (Layout.ofSettings s) cs).outcome = (Layout.repetitions s.indentSize).map text ∧
      ∀ width, Nested (text width).toList ∧ Aligned width (text width).toList := by
  have tidy := generate_tidy accepted clean within succeeded
  refine ⟨_,source_rows s succeeded fun c member => (tidy c member).1.printable,?_⟩
  intro width
  have laid := generate_laid accepted clean within succeeded width
  rw [String.toList_ofList]
  exact ⟨laid.nested (fileRows_ne_nil _ _) width,laid.aligned (fileRows_ne_nil _ _) width⟩

theorem storefront_plain : ∀ c ∈ storefront, c.Within PlainText PlainText :=
  fun c member => (storefront_within c member).plain

theorem source_nested_storefront :
    Settings.default.validate = .ok ⟨"R4Mvc","MVC"⟩ ∧ Settings.default.OneLine ∧
    (∀ c ∈ storefront, c.Within PlainText PlainText) ∧
    (∃ classes, (generate ⟨"R4Mvc","MVC"⟩ storefront).outcome = .ok classes) ∧
    ∃ text, (source ⟨"R4Mvc","MVC"⟩ (Layout.ofSettings Settings.default) storefront).outcome = .ok text ∧
      Nested text.toList ∧ Aligned 4 text.toList := by
  have accepted := Settings.default_accepted
  have clean := Settings.default_oneLine
  have succeeded := storefront_generate ⟨"R4Mvc","MVC"⟩ (by decide) (by decide)
  obtain ⟨text,printed,shaped⟩ := source_nested accepted clean storefront_plain succeeded
  have width : Layout.repetitions Settings.default.indentSize = .ok 4 := rfl
  rw [width] at printed
  exact ⟨accepted,clean,storefront_plain,⟨_,succeeded⟩,text 4,printed,shaped 4⟩

end Generation
end TypedMvc
