import TypedMvc.Proofs.Grammar
import TypedMvc.Proofs.Separated

namespace TypedMvc

namespace Identifier

def IsLetter (c : Char) : Prop := ('A' ≤ c ∧ c ≤ 'Z') ∨ ('a' ≤ c ∧ c ≤ 'z') ∨ c = '_'

def IsFigure (c : Char) : Prop := '0' ≤ c ∧ c ≤ '9'

-- A letter, and then letters and figures. The languages are told by their letters here, without the functions that check
-- them.
def Plain (word : List Char) : Prop :=
  ∃ first rest, word = first :: rest ∧ IsLetter first ∧ ∀ c ∈ rest, IsLetter c ∨ IsFigure c

def Qualified (cs : List Char) : Prop :=
  ∃ words, words ≠ [] ∧ (∀ word ∈ words, Plain word) ∧ cs = ['.'].intercalate words

-- A text of the language, or one with a line feed behind it.
def Terminated (language : List Char → Prop) (s : String) : Prop :=
  language s.toList ∨ ∃ cs, language cs ∧ s.toList = cs ++ ['\n']

theorem startsWord_iff {c : Char} : startsWord c = true ↔ IsLetter c := by
  delta startsWord Char.isAlpha Char.isUpper Char.isLower IsLetter
  simp only [Char.le_def,Bool.or_eq_true,Bool.and_eq_true,decide_eq_true_eq,beq_iff_eq,or_assoc]

theorem continuesWord_iff {c : Char} : continuesWord c = true ↔ IsLetter c ∨ IsFigure c := by
  rw [← startsWord_iff]
  simp only [continuesWord,startsWord,Char.isAlphanum,Char.isDigit,IsFigure,Char.le_def,Bool.or_eq_true,Bool.and_eq_true,
    decide_eq_true_eq]
  exact or_right_comm

theorem word_iff {word : List Char} : Word word ↔ Plain word := by
  constructor
  · rintro ⟨first,others⟩
    exact ⟨_,_,rfl,startsWord_iff.mp first,fun c member => continuesWord_iff.mp (others c member)⟩
  · rintro ⟨first,rest,rfl,letter,others⟩
    exact .intro (startsWord_iff.mpr letter) fun c member => continuesWord_iff.mpr (others c member)

theorem Word.dotless {word : List Char} (correct : Word word) : '.' ∉ word := by
  intro member
  exact absurd (correct.continues '.' member) (by decide)

theorem dotted_iff {cs : List Char} : Dotted cs ↔ Qualified cs := by
  constructor
  · intro dotted
    induction dotted with
    | single word => exact ⟨[_],by simp,by simpa using word_iff.mp word,by simp⟩
    | @dot word _ correct _ ih =>
      obtain ⟨words,some,each,rfl⟩ := ih
      refine ⟨word :: words,List.cons_ne_nil _ _,List.forall_mem_cons.mpr ⟨word_iff.mp correct,each⟩,?_⟩
      have split : ['.'].intercalate ([word] ++ words) = _ := intercalate_append (List.cons_ne_nil word []) some
      simpa using split.symm
  · rintro ⟨words,some,each,rfl⟩
    induction words with
    | nil => exact absurd rfl some
    | cons word rest ih =>
      obtain ⟨first,others⟩ := List.forall_mem_cons.mp each
      cases rest with
      | nil => simpa using Dotted.single (word_iff.mpr first)
      | cons next more =>
        rw [List.intercalate_cons_cons,List.append_assoc]
        exact .dot (word_iff.mpr first) (ih (List.cons_ne_nil _ _) others)

theorem segments_dotless {word : List Char} (dotless : '.' ∉ word) : segments word = [word] := by
  rcases segments_cases word with whole | ⟨front,rest,rfl,_⟩
  · exact whole
  · exact absurd (by simp) dotless

theorem segments_dot {word : List Char} (dotless : '.' ∉ word) (rest : List Char) :
    segments (word ++ '.' :: rest) = word :: segments rest := by
  induction word with
  | nil => rfl
  | cons c more ih =>
    rw [List.mem_cons,not_or] at dotless
    have other : c ≠ '.' := Ne.symm dotless.1
    rw [List.cons_append,segments]
    · rw [ih dotless.2]
    · exact other

theorem isDotted_iff {cs : List Char} : isDotted cs = true ↔ Dotted cs := by
  refine ⟨dotted_of_isDotted,?_⟩
  intro dotted
  induction dotted with
  | single word => simpa [isDotted,segments_dotless word.dotless] using isWord_iff.mpr word
  | dot word _ ih =>
    rw [isDotted,segments_dot word.dotless,List.all_cons,isWord_iff.mpr word]
    exact ih

theorem withoutFinalNewline_append (cs : List Char) : withoutFinalNewline (cs ++ ['\n']) = cs := by
  induction cs with
  | nil => rfl
  | cons c rest ih =>
    rw [List.cons_append,withoutFinalNewline,ih]
    simp

theorem withoutFinalNewline_cases (cs : List Char) :
    withoutFinalNewline cs = cs ∨ cs = withoutFinalNewline cs ++ ['\n'] := by
  induction cs with
  | nil => exact .inl rfl
  | cons c rest ih =>
    by_cases last : c = '\n' ∧ rest = []
    · obtain ⟨rfl,rfl⟩ := last
      exact .inr rfl
    · have kept : withoutFinalNewline (c :: rest) = c :: withoutFinalNewline rest := by
        rw [withoutFinalNewline]
        exact fun newline none => last ⟨newline,none⟩
      rw [kept]
      rcases ih with same | ended
      · exact .inl (congrArg (c :: ·) same)
      · exact .inr (congrArg (c :: ·) ended)

-- Taking off one line feed leaves a text of a language without line feeds in just these two cases.
theorem terminated_iff {language : List Char → Prop} (free : ∀ cs, language cs → '\n' ∉ cs) (s : String) :
    language (withoutFinalNewline s.toList) ↔ Terminated language s := by
  constructor
  · intro inside
    rcases withoutFinalNewline_cases s.toList with same | ended
    · exact .inl (same ▸ inside)
    · exact .inr ⟨_,inside,ended⟩
  · rintro (whole | ⟨cs,front,ended⟩)
    · rwa [withoutFinalNewline_of_free (free _ whole)]
    · rwa [ended,withoutFinalNewline_append]

theorem acceptsWord_iff {s : String} : acceptsWord s = true ↔ Terminated Plain s := by
  have free : ∀ cs, Plain cs → '\n' ∉ cs := fun cs word =>
    (Dotted.single (word_iff.mpr word)).newline_free
  rw [← terminated_iff free,acceptsWord,isWord_iff,word_iff]

theorem acceptsDotted_iff {s : String} : acceptsDotted s = true ↔ Terminated Qualified s := by
  have free : ∀ cs, Qualified cs → '\n' ∉ cs := fun cs dotted => (dotted_iff.mpr dotted).newline_free
  rw [← terminated_iff free,acceptsDotted,isDotted_iff,dotted_iff]

end Identifier

namespace Settings

open Identifier

variable {root helpers : String} {references : List String} {indent : Int}

structure Correct (root helpers : String) (references : List String) (indent : Int) : Prop where
  root : Terminated Qualified root
  helpers : Terminated Plain helpers
  references : ∀ reference ∈ references, Terminated Qualified reference
  indent : 0 ≤ indent

theorem checkNamespace_correct (correct : Terminated Qualified root) : checkNamespace (.str root) = .ok root := by
  have accepted := acceptsDotted_iff.mpr correct
  have present : root ≠ "" := by
    rintro rfl
    exact absurd accepted (by decide)
  rw [checkNamespace,if_neg present,if_pos accepted]

theorem checkNamespace_wrong (wrong : ¬ Terminated Qualified root) :
    checkNamespace (.str root) = invalid (.generatedNamespace (.str root)) := by
  rw [← acceptsDotted_iff] at wrong
  rw [checkNamespace,if_neg wrong,ite_self]

theorem checkHelpers_correct (correct : Terminated Plain helpers) : checkHelpers (.str helpers) = .ok helpers := by
  rw [checkHelpers,if_pos (acceptsWord_iff.mpr correct)]

theorem checkHelpers_wrong (wrong : ¬ Terminated Plain helpers) :
    checkHelpers (.str helpers) = invalid (.helpersPrefix (.str helpers)) := by
  rw [← acceptsWord_iff] at wrong
  rw [checkHelpers,if_neg wrong]

theorem checkReferences_append {before : List String} (correct : ∀ reference ∈ before, Terminated Qualified reference)
    (after : List String) :
    checkReferences ((before ++ after).map .str) = checkReferences (after.map .str) := by
  induction before with
  | nil => rfl
  | cons first rest ih =>
    obtain ⟨here,later⟩ := List.forall_mem_cons.mp correct
    rw [List.cons_append,List.map_cons,checkReferences,if_pos (acceptsDotted_iff.mpr here),ih later]

theorem checkReferences_correct (correct : ∀ reference ∈ references, Terminated Qualified reference) :
    checkReferences (references.map .str) = .ok () := by
  have passed := checkReferences_append correct []
  rwa [List.append_nil] at passed

theorem checkReferences_wrong {before after : List String} {reference : String}
    (correct : ∀ reference ∈ before, Terminated Qualified reference) (wrong : ¬ Terminated Qualified reference) :
    checkReferences ((before ++ reference :: after).map .str) = invalid (.referencedNamespace (.str reference)) := by
  rw [← acceptsDotted_iff] at wrong
  rw [checkReferences_append correct,List.map_cons,checkReferences,if_neg wrong]

-- The first setting that is not as it should be, by its name, with what is said about it.
inductive Offence (root helpers : String) (references : List String) (indent : Int) : String → String → Prop where
  | root (wrong : ¬ Terminated Qualified root) :
    Offence root helpers references indent "generated_namespace" ("Invalid generated namespace: '" ++ root ++ "'")
  | helpers (rooted : Terminated Qualified root) (wrong : ¬ Terminated Plain helpers) :
    Offence root helpers references indent "helpers_prefix" ("Invalid helpers prefix: '" ++ helpers ++ "'")
  | reference (rooted : Terminated Qualified root) (named : Terminated Plain helpers) {before after : List String}
    {reference : String} (split : references = before ++ reference :: after)
    (correct : ∀ earlier ∈ before, Terminated Qualified earlier) (wrong : ¬ Terminated Qualified reference) :
    Offence root helpers references indent "referenced_namespaces"
      ("Invalid referenced namespace: '" ++ reference ++ "'")
  | indent (rooted : Terminated Qualified root) (named : Terminated Plain helpers)
    (correct : ∀ reference ∈ references, Terminated Qualified reference) (wrong : indent < 0) :
    Offence root helpers references indent "indent_size" "Indent size must be non-negative"

def Blames (source : Option String) (setting message : String) (outcome : Except Failure α) : Prop :=
  ∃ failure, outcome = .error failure ∧
    failure.report = some (.configuration (.str message) (.str setting) (Failure.sourceValue source))

theorem validate_correct (correct : Correct root helpers references indent) :
    (ofTexts root helpers references indent).validate = .ok ⟨root,helpers⟩ := by
  have counted : checkIndent (.int indent) = .ok () := by
    rw [checkIndent,if_neg (Int.not_lt.mpr correct.indent)]
  simp only [validate,ofTexts,checkNamespace_correct correct.root,checkHelpers_correct correct.helpers,
    checkReferences_correct correct.references,counted]
  rfl

theorem validate_offence {setting message : String} (offence : Offence root helpers references indent setting message) :
    Blames none setting message (ofTexts root helpers references indent).validate := by
  cases offence with
  | root wrong =>
    simp only [validate,ofTexts,checkNamespace_wrong wrong]
    exact ⟨_,rfl,rfl⟩
  | helpers rooted wrong =>
    simp only [validate,ofTexts,checkNamespace_correct rooted,checkHelpers_wrong wrong]
    exact ⟨_,rfl,rfl⟩
  | reference rooted named split correct wrong =>
    subst split
    simp only [validate,ofTexts,checkNamespace_correct rooted,checkHelpers_correct named,
      checkReferences_wrong correct wrong]
    exact ⟨_,rfl,rfl⟩
  | indent rooted named correct wrong =>
    have uncounted : checkIndent (.int indent) = invalid .negativeIndent := by rw [checkIndent,if_pos wrong]
    simp only [validate,ofTexts,checkNamespace_correct rooted,checkHelpers_correct named,
      checkReferences_correct correct,uncounted]
    exact ⟨_,rfl,rfl⟩

theorem correct_or_offence (root helpers : String) (references : List String) (indent : Int) :
    Correct root helpers references indent ∨ ∃ setting message, Offence root helpers references indent setting message := by
  by_cases rooted : Terminated Qualified root
  · by_cases named : Terminated Plain helpers
    · cases found : references.find? fun reference => !acceptsDotted reference with
      | some reference =>
        obtain ⟨refused,before,after,split,passed⟩ := List.find?_eq_some_iff_append.mp found
        have correct : ∀ earlier ∈ before, Terminated Qualified earlier :=
          fun earlier member => acceptsDotted_iff.mp (by simpa using passed earlier member)
        have wrong : ¬ Terminated Qualified reference := by simpa [← acceptsDotted_iff] using refused
        exact .inr ⟨_,_,.reference rooted named split correct wrong⟩
      | none =>
        have correct : ∀ reference ∈ references, Terminated Qualified reference :=
          fun reference member => acceptsDotted_iff.mp (by simpa using List.find?_eq_none.mp found reference member)
        by_cases natural : 0 ≤ indent
        · exact .inl ⟨rooted,named,correct,natural⟩
        · exact .inr ⟨_,_,.indent rooted named correct (Int.not_le.mp natural)⟩
    · exact .inr ⟨_,_,.helpers rooted named⟩
  · exact .inr ⟨_,_,.root rooted⟩

theorem Blames.unique {outcome : Except Failure α} {source : Option String} {setting message other others : String}
    (first : Blames source setting message outcome) (second : Blames source other others outcome) :
    setting = other ∧ message = others := by
  obtain ⟨failure,failed,told⟩ := first
  obtain ⟨cause,ended,shown⟩ := second
  rw [failed] at ended
  obtain rfl := Except.error.inj ended
  rw [told] at shown
  simpa [and_comm] using shown

-- Settings of texts and a whole number are accepted exactly if all of them are correct, and otherwise the first offence
-- is told of.
theorem validate_exact (root helpers : String) (references : List String) (indent : Int) :
    (∀ target, (ofTexts root helpers references indent).validate = .ok target ↔
      Correct root helpers references indent ∧ target = ⟨root,helpers⟩) ∧
    (∀ setting message, Blames none setting message (ofTexts root helpers references indent).validate ↔
      Offence root helpers references indent setting message) ∧
    (Correct root helpers references indent ∨
      ∃ setting message, Offence root helpers references indent setting message) := by
  have decided := correct_or_offence root helpers references indent
  refine ⟨?_,?_,decided⟩
  · intro target
    constructor
    · intro accepted
      rcases decided with correct | ⟨setting,message,offence⟩
      · rw [validate_correct correct] at accepted
        exact ⟨correct,(Except.ok.inj accepted).symm⟩
      · obtain ⟨failure,failed,_⟩ := validate_offence offence
        rw [failed] at accepted
        cases accepted
    · rintro ⟨correct,rfl⟩
      exact validate_correct correct
  · intro setting message
    refine ⟨?_,validate_offence⟩
    intro blames
    rcases decided with correct | ⟨other,others,offence⟩
    · obtain ⟨failure,failed,_⟩ := blames
      rw [validate_correct correct] at failed
      cases failed
    · obtain ⟨rfl,rfl⟩ := blames.unique (validate_offence offence)
      exact offence

-- With an offence in three settings the first one of them is told of; a line feed at the end is none.
theorem validate_exact_slips :
    Blames none "helpers_prefix" "Invalid helpers prefix: 'M-C'" (ofTexts "Site\n" "M-C" ["A..B"] (-1)).validate := by
  have rooted : Terminated Qualified "Site\n" := acceptsDotted_iff.mp rfl
  have wrong : ¬ Terminated Plain "M-C" := by
    rw [← acceptsWord_iff]
    decide
  exact ((validate_exact "Site\n" "M-C" ["A..B"] (-1)).2.1 _ _).mpr (.helpers rooted wrong)

end Settings
end TypedMvc
