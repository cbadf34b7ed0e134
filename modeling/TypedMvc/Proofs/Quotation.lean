import TypedMvc.CSharp.Syntax
import TypedMvc.Proofs.Breaks
import TypedMvc.Proofs.Nesting
import TypedMvc.Proofs.Spelling

namespace TypedMvc

namespace CSharp

open Text

-- The characters that no regular literal can hold as they are. Fewer than those at which a text is cut into lines.
def endsCodeLine (c : Char) : Bool :=
  c == '\n' || c == '\r' || c.toNat == 0x85 || c.toNat == 0x2028 || c.toNat == 0x2029

def contentValue? : List Char → Option (List Char)
  | [] => none
  | '"' :: rest => if rest = [] then some [] else none
  | '\\' :: c :: rest => if c = '"' ∨ c = '\\' then (contentValue? rest).map (c :: ·) else none
  | c :: rest => if c = '\\' ∨ endsCodeLine c = true then none else (contentValue? rest).map (c :: ·)

def literalValue? : List Char → Option (List Char)
  | '"' :: rest => contentValue? rest
  | _ => none

theorem isLineBreak_of_endsCodeLine {c : Char} (ends : endsCodeLine c = true) : isLineBreak c = true := by
  simp only [endsCodeLine,Bool.or_eq_true,beq_iff_eq] at ends
  rcases ends with (((rfl | rfl) | next) | line) | paragraph
  · rfl
  · rfl
  · simp [isLineBreak,next]
  · simp [isLineBreak,line]
  · simp [isLineBreak,paragraph]

theorem contentValue?_escape {value : List Char} (within : ∀ c ∈ value, endsCodeLine c = false) :
    contentValue? (escape value ++ ['"']) = some value := by
  induction value with
  | nil => rfl
  | cons c rest ih =>
    have later := ih fun d member => within d (List.mem_cons_of_mem _ member)
    by_cases special : c = '"' ∨ c = '\\'
    · simp [escape,contentValue?,special,later]
    · have other : c ≠ '"' ∧ c ≠ '\\' := not_or.mp special
      simp [escape,contentValue?,other.1,other.2,within c List.mem_cons_self,later]

theorem contentValue?_canonical {content value : List Char} (read : contentValue? content = some value) :
    content = escape value ++ ['"'] := by
  fun_induction contentValue? content generalizing value with
  | case1 => cases read
  | case2 =>
    cases read
    rfl
  | case3 | case5 | case6 => cases read
  | case4 c rest special ih =>
    obtain ⟨later,inside,rfl⟩ := Option.map_eq_some_iff.mp read
    rw [escape,if_pos special,ih inside]
    rfl
  | case7 c rest notQuote _ plain ih =>
    obtain ⟨later,inside,rfl⟩ := Option.map_eq_some_iff.mp read
    have other : ¬ (c = '"' ∨ c = '\\') := by
      rintro (quote | slash)
      · exact notQuote quote
      · exact plain (.inl slash)
    rw [escape,if_neg other,ih inside]
    rfl

theorem literalValue?_canonical {literal value : List Char} (read : literalValue? literal = some value) :
    literal = quote value := by
  unfold literalValue? at read
  split at read
  · rw [contentValue?_canonical read]
    rfl
  · cases read

theorem mem_escape_of_mem {cs : List Char} {c : Char} (member : c ∈ cs) : c ∈ escape cs := by
  induction cs with
  | nil => cases member
  | cons d rest ih =>
    rw [escape]
    rcases List.mem_cons.mp member with rfl | later
    · split <;> simp
    · split <;> simp [ih later]

def declaration (field : String) (literal : List Char) : List Char :=
  ("public readonly string " ++ field ++ " = ").toList ++ literal ++ [';']

-- The block has a line, indented by spaces, in which the field gets a literal that reads as the value.
def Declares (field value : String) (block : List Char) : Prop :=
  ∃ count literal, List.replicate count ' ' ++ declaration field literal ∈ block.splitOn '\n' ∧
    literalValue? literal = some value.toList

-- No line of an indented block is broken, so none gives a value that is.
theorem Declares.unbroken {field value : String} {width : Nat} {text : List Char}
    (declares : Declares field value (indentBlock (Row.margin width) text)) : Unbroken value.toList := by
  obtain ⟨count,literal,member,read⟩ := declares
  have whole := unbroken_of_mem_indentBlock (Row.unbroken_margin width) member
  intro c inside
  refine whole c ?_
  rw [literalValue?_canonical read]
  simp [declaration,quote,mem_escape_of_mem inside]

theorem memberRowsOf_textMember (identifier field value : String) :
    memberRowsOf identifier (Synthesis.textMember field value) = [⟨1,declaration field (quote value.toList)⟩] := by
  have given : stringLiteral value ≠ "" := by
    intro empty
    have shown := congrArg String.toList empty
    simp [stringLiteral,quote] at shown
  have words : modifiersText (Modifier.ordered [.publicAccess,.readOnly]) = "public readonly" := by decide
  simp [memberRowsOf,Synthesis.textMember,Member.fieldOf,Row.ofText,fieldText,words,given,declaration]
  simp [stringLiteral]

theorem declaration_unbroken {field value : String} (label : Unbroken field.toList) (whole : Unbroken value.toList) :
    Unbroken (declaration field (quote value.toList)) := by
  have front : Unbroken "public readonly string ".toList := by decide
  have equals : Unbroken " = ".toList := by decide
  have semicolon : Unbroken [';'] := by decide
  have quoted : Unbroken (quote value.toList) := by
    intro c member
    rcases mem_quote member with rfl | rfl | own
    · rfl
    · rfl
    · exact whole c own
  rw [declaration,String.toList_append,String.toList_append]
  exact (((front.append label).append equals).append quoted).append semicolon

-- A text member is one row, and its line is found again in the block as long as nothing breaks it, whatever the other
-- members hold.
theorem declares_of_member {field value : String} (label : Unbroken field.toList) (whole : Unbroken value.toList)
    {c : ClassDef} (member : Synthesis.textMember field value ∈ c.members) (width : Nat) : Declares field value
      (indentBlock (Row.margin width) (unlines ((classRowsOf c).map (Row.line (Row.margin width))))) := by
  let row : Row := ⟨1,declaration field (quote value.toList)⟩
  have among : row ∈ classRowsOf c := by
    refine List.mem_append_right _ (List.mem_cons_of_mem _ (List.mem_cons_of_mem _ (List.mem_append_left _ ?_)))
    refine mem_intercalate_of_mem (List.mem_map_of_mem member) ?_ _
    rw [memberRowsOf_textMember]
    exact List.mem_singleton_self row
  have unbroken : Unbroken (row.line (Row.margin width)) := by
    rw [Row.line_margin]
    exact (unbroken_spaces _).append (declaration_unbroken label whole)
  have visible : isAllBlank (row.line (Row.margin width)) = false := by
    rw [Row.line_margin]
    simp [isAllBlank,row,declaration,isBlank]
  have line : row.line (Row.margin width) ∈ lines (unlines ((classRowsOf c).map (Row.line (Row.margin width)))) := by
    refine mem_lines_unlines (List.mem_map_of_mem among) unbroken ?_
    intro empty
    rw [empty] at visible
    cases visible
  have present : unlines ((classRowsOf c).map (Row.line (Row.margin width))) ≠ [] := by
    intro empty
    rw [empty] at line
    cases line
  refine ⟨width + 1 * width,quote value.toList,?_,?_⟩
  · rw [splitOn_indentBlock (Row.unbroken_margin width) present]
    refine List.mem_map.mpr ⟨_,line,?_⟩
    rw [indentLine,visible,Row.line_margin,List.replicate_add,List.append_assoc]
    rfl
  · refine contentValue?_escape ?_
    intro c inside
    refine eq_false_of_ne_true fun ends => ?_
    exact absurd (isLineBreak_of_endsCodeLine ends) (ne_true_of_eq_false (whole c inside))

def Encloses (text block : List Char) : Prop := ∃ before after, text = before ++ '\n' :: (block ++ '\n' :: after)

theorem encloses_unlines {block : List Char} {front inner back : List (List Char)} (member : block ∈ inner)
    (left : front ≠ []) (right : back ≠ []) : Encloses (unlines (front ++ inner ++ back)) block := by
  obtain ⟨before,after,rfl⟩ := List.append_of_mem member
  have filled : front ++ before ≠ [] := List.append_ne_nil_of_left_ne_nil left before
  have later : after ++ back ≠ [] := List.append_ne_nil_of_right_ne_nil after right
  have apart : front ++ (before ++ block :: after) ++ back = (front ++ before) ++ ([block] ++ (after ++ back)) := by simp
  have single : [block] ≠ [] := List.cons_ne_nil block []
  rw [apart,unlines_append filled (List.append_ne_nil_of_left_ne_nil single _),unlines_append single later,
    unlines_singleton]
  exact ⟨_,_,rfl⟩

theorem mem_namespaceLines {group : String × List (List Char)} (inside : group.1 ≠ "") {text : List Char}
    (among : text ∈ group.2) (margin : List Char) : indentBlock margin text ∈ namespaceLines margin group := by
  rw [namespaceLines,if_neg inside]
  refine List.mem_cons_of_mem _ (List.mem_cons_of_mem _ (List.mem_cons_of_mem _ (List.mem_append_left _ ?_)))
  exact mem_intercalate_of_mem (List.mem_map_of_mem among) (List.mem_singleton_self _) _

theorem fileText_encloses {classes : List ClassDef} (typed : ∀ c ∈ classes, ∀ m ∈ c.members, m.Typed) {layout : Layout}
    {text : List Char} (printed : fileText layout classes = .ok text) {c : ClassDef} (member : c ∈ classes)
    (inside : c.ns ≠ "") :
    Encloses text (indentBlock layout.margin (unlines ((classRowsOf c).map (Row.line layout.margin)))) := by
  rw [fileText_typed typed] at printed
  obtain rfl := Except.ok.inj printed
  have group : (c.ns,classes.filter fun d => decide (d.ns = c.ns)) ∈ byNamespace classes := by
    rw [byNamespace_eq]
    exact List.mem_map.mpr ⟨c.ns,List.mem_eraseDups.mpr (List.mem_map_of_mem member),rfl⟩
  have own : c ∈ classes.filter fun d => decide (d.ns = c.ns) := by simp [member]
  have header : headerLines layout ≠ [] := by simp [headerLines]
  have footer : footerLines ≠ [] := by simp [footerLines]
  exact encloses_unlines (List.mem_flatten_of_mem (List.mem_map_of_mem (List.mem_map_of_mem group))
    (mem_namespaceLines inside (List.mem_map_of_mem own) _)) header footer

end CSharp

open Text CSharp Synthesis

namespace Generation

variable {target : Target} {cs : List Controller}

-- In the text, the class of a view-only controller is a block of lines, and one of them gives the field the value.
def Tells (root : String) (layout : Layout) (classes : List ClassDef) (text : String) (c : Controller)
    (field value : String) : Prop :=
  ∃ made ∈ classes, made.ns = root ∧ c.viewOnlyClassName = .ok made.identifier ∧
    ∃ own, classText layout made = .ok own ∧ Encloses text.toList (indentBlock layout.margin own) ∧
      Declares field value (indentBlock layout.margin own)

section Reading

variable {root : String} {width : Nat} {usings : List String} {classes : List ClassDef} {text : String} {c : Controller}
variable {field value : String}

theorem Tells.unbroken (tells : Tells root (Layout.ofWidth width usings) classes text c field value) :
    Unbroken value.toList := by
  obtain ⟨_,_,_,_,_,_,_,declares⟩ := tells
  exact declares.unbroken

theorem tells_of_member (rooted : root ≠ "") (typed : ∀ c ∈ classes, ∀ m ∈ c.members, m.Typed)
    (printed : printFile (Layout.ofWidth width usings) classes = .ok text) (texts : c.Textual)
    (named : c.name.truthy = true) (among : placeholderOf root c.key ∈ classes)
    (member : textMember field value ∈ (placeholderOf root c.key).members) (label : Unbroken field.toList)
    (whole : Unbroken value.toList) : Tells root (Layout.ofWidth width usings) classes text c field value := by
  have file : fileText (Layout.ofWidth width usings) classes = .ok text.toList := by
    rw [printFile] at printed
    cases ran : fileText (Layout.ofWidth width usings) classes with
    | error failure =>
      rw [ran] at printed
      cases printed
    | ok own =>
      rw [ran] at printed
      rw [← Except.ok.inj printed,String.toList_ofList]
  refine ⟨_,among,rfl,texts.viewOnlyClassName_named named,_,?_,fileText_encloses typed file among rooted,
    declares_of_member label whole member width⟩
  rw [classText,classRows_typed (typed _ among)]
  rfl

end Reading

theorem source_printed (s : Settings) (present : target.helpers ≠ "") (texts : ∀ c ∈ cs, c.Textual)
    {classes : List ClassDef} (succeeded : (generate target cs).outcome = .ok classes) :
    ∃ text : Nat → String,
      (source target (Layout.ofSettings s) cs).outcome = (Layout.repetitions s.indentSize).map text ∧
      ∀ width, printFile (Layout.ofWidth width (s.referencedNamespaces.map Value.text)) classes = .ok (text width) := by
  choose text printed using fun width =>
    printFile_generated present texts succeeded (Layout.ofWidth width (s.referencedNamespaces.map Value.text))
  refine ⟨text,?_,printed⟩
  rw [source_outcome,succeeded,Layout.ofSettings_eq]
  cases Layout.repetitions s.indentSize with
  | error failure => rfl
  | ok width => exact printed width

-- The names and the areas of the view-only controllers are read back from a file exactly where they break no line.
theorem source_tells {s : Settings} (accepted : s.validate = .ok target) (texts : ∀ c ∈ cs, c.Textual)
    {classes : List ClassDef} (succeeded : (generate target cs).outcome = .ok classes) :
    ∃ text : Nat → String,
      (source target (Layout.ofSettings s) cs).outcome = (Layout.repetitions s.indentSize).map text ∧
      ∀ width, ∀ c ∈ cs, c.isViewOnly = true →
        (Tells target.root (Layout.ofWidth width (s.referencedNamespaces.map Value.text)) classes (text width) c
          "Name" c.name.text ↔ Unbroken c.name.text.toList) ∧
        (c.area ≠ .str "" →
          (Tells target.root (Layout.ofWidth width (s.referencedNamespaces.map Value.text)) classes (text width) c
            "Area" c.area.text ↔ Unbroken c.area.text.toList)) := by
  have rooted := Settings.root_ne_empty accepted
  have present := Settings.helpers_ne_empty accepted
  have typed := generate_typed present texts succeeded
  obtain ⟨text,made,printed⟩ := source_printed s present texts succeeded
  refine ⟨text,made,?_⟩
  intro width c member viewOnly
  obtain ⟨clear,rfl⟩ := generate_clear present texts succeeded
  have named : c.name.truthy = true :=
    (texts c member).named_iff.mpr ((unnamed_viewOnly_eq_none texts).mp (fault_parts clear).1 c member viewOnly)
  have among : placeholderOf target.root c.key ∈ plan target (cs.map (Controller.prepared target.root)) := by
    refine List.mem_append_left _ (List.mem_append_left _ (List.mem_map_of_mem ?_))
    rw [placeholderKeys_map (Controller.keeps_prepared target.root)]
    exact mem_placeholderKeys.mpr ⟨c,member,viewOnly,rfl⟩
  have told : ∀ field value, textMember field value ∈ (placeholderOf target.root c.key).members →
      Unbroken field.toList → (Tells target.root (Layout.ofWidth width (s.referencedNamespaces.map Value.text))
        (plan target (cs.map (Controller.prepared target.root))) (text width) c field value ↔ Unbroken value.toList) :=
    fun field value own label =>
      ⟨Tells.unbroken,tells_of_member rooted typed (printed width) (texts c member) named among own label⟩
  refine ⟨told "Name" _ (List.mem_cons_of_mem _ List.mem_cons_self) (by decide),fun inArea => ?_⟩
  refine told "Area" _ (List.mem_cons_of_mem _ (List.mem_cons_of_mem _ ?_)) (by decide)
  have elsewhere : c.key.area ≠ "" := mt ((texts c member).area_eq_iff "").mpr inArea
  rw [if_neg elsewhere]
  exact List.mem_singleton_self _

def alone (name area : String) : List Controller := [.ofTexts name none area none]

theorem alone_textual (name area : String) : ∀ c ∈ alone name area, c.Textual := by
  simp [alone,Controller.textual_ofTexts]

theorem alone_generate (name area : String) (named : name ≠ "") (inArea : area ≠ "" → name ≠ "Name") :
    (generate ⟨"R4Mvc","MVC"⟩ (alone name area)).outcome =
      .ok (plan ⟨"R4Mvc","MVC"⟩ ((alone name area).map (Controller.prepared "R4Mvc"))) := by
  have distinguished : Distinguished (alone name area) := by
    constructor
    · simpa [alone,Controller.ofTexts] using named
    · simpa [alone,Controller.ofTexts] using inArea
    · simp +contextual [alone]
  have differ : PlaceholdersDiffer (alone name area) := by
    simp [PlaceholdersDiffer,alone]
  exact generate_of_distinguished _ (by decide) (by decide) (alone_textual name area) distinguished differ

-- A vertical tab is one character of a literal, but it ends a line of a block.
theorem source_tells_tabbed :
    Settings.default.validate = .ok ⟨"R4Mvc","MVC"⟩ ∧ (∀ c ∈ alone "A\u000bB" "C:\\\"D\"", c.Textual) ∧
    ∃ classes text, (generate ⟨"R4Mvc","MVC"⟩ (alone "A\u000bB" "C:\\\"D\"")).outcome = .ok classes ∧
      (source ⟨"R4Mvc","MVC"⟩ (Layout.ofSettings Settings.default) (alone "A\u000bB" "C:\\\"D\"")).outcome = .ok text ∧
      ∀ c ∈ alone "A\u000bB" "C:\\\"D\"",
        ¬ Tells "R4Mvc" (Layout.ofWidth 4 Settings.defaultReferences) classes text c "Name" c.name.text ∧
        Tells "R4Mvc" (Layout.ofWidth 4 Settings.defaultReferences) classes text c "Area" c.area.text := by
  have accepted := Settings.default_accepted
  have texts := alone_textual "A\u000bB" "C:\\\"D\""
  have succeeded := alone_generate "A\u000bB" "C:\\\"D\"" (by decide) (by decide)
  obtain ⟨text,printed,told⟩ := source_tells accepted texts succeeded
  have width : Layout.repetitions Settings.default.indentSize = .ok 4 := rfl
  rw [width] at printed
  refine ⟨accepted,texts,_,text 4,succeeded,printed,?_⟩
  intro c member
  have given := told 4 c member
  rw [List.mem_singleton.mp member] at given ⊢
  obtain ⟨name,area⟩ := given rfl
  have cut : ¬ Unbroken "A\u000bB".toList := by decide
  have whole : Unbroken "C:\\\"D\"".toList := by decide
  exact ⟨mt name.mp cut,(area (by simp [Controller.ofTexts])).mpr whole⟩

theorem source_name_lost :
    Settings.default.validate = .ok ⟨"R4Mvc","MVC"⟩ ∧ (∀ c ∈ alone "A\u000bB" "", c.Textual) ∧
    ∃ classes text, (generate ⟨"R4Mvc","MVC"⟩ (alone "A\u000bB" "")).outcome = .ok classes ∧
      (source ⟨"R4Mvc","MVC"⟩ (Layout.ofSettings Settings.default) (alone "A\u000bB" "")).outcome = .ok text ∧
      ∃ c ∈ alone "A\u000bB" "", c.isViewOnly = true ∧ c.name = .str "A\u000bB" ∧
        ¬ Tells "R4Mvc" (Layout.ofWidth 4 Settings.defaultReferences) classes text c "Name" "A\u000bB" := by
  have texts := alone_textual "A\u000bB" ""
  have succeeded := alone_generate "A\u000bB" "" (by decide) (by decide)
  obtain ⟨text,made,_⟩ := source_printed .default (by decide) texts succeeded
  have width : Layout.repetitions Settings.default.indentSize = .ok 4 := rfl
  rw [width] at made
  refine ⟨Settings.default_accepted,texts,_,text 4,succeeded,made,_,List.mem_singleton_self _,rfl,rfl,?_⟩
  have cut : ¬ Unbroken "A\u000bB".toList := by decide
  exact mt Tells.unbroken cut

end Generation
end TypedMvc
