import TypedMvc.Settings

namespace TypedMvc

theorem bind_ok_iff {first : Except ε α} {next : α → Except ε β} {b : β} :
    (first >>= next) = .ok b ↔ ∃ a, first = .ok a ∧ next a = .ok b := by
  cases first <;> simp [bind,Except.bind]

theorem bind_error {first : Except ε α} {next : α → Except ε β} {e : ε} (failed : (first >>= next) = .error e) :
    first = .error e ∨ ∃ a, first = .ok a ∧ next a = .error e := by
  cases outcome : first with
  | ok a =>
    rw [outcome] at failed
    exact .inr ⟨a,rfl,failed⟩
  | error other =>
    rw [outcome] at failed
    exact .inl (congrArg Except.error (Except.error.inj failed))

namespace Settings

variable {s : Settings} {target : Target}

theorem checkNamespace_ok {v : Value} {root : String} (accepted : checkNamespace v = .ok root) :
    v = .str root ∧ root ≠ "" ∧ Identifier.acceptsDotted root = true := by
  cases v with
  | str given =>
    by_cases empty : given = ""
    · simp [checkNamespace,invalid,empty] at accepted
    · by_cases dotted : Identifier.acceptsDotted given = true
      · simp only [checkNamespace,if_neg empty,if_pos dotted,Except.ok.injEq] at accepted
        subst accepted
        exact ⟨rfl,empty,dotted⟩
      · simp [checkNamespace,invalid,empty,dotted] at accepted
  | _ => exact absurd accepted (by unfold checkNamespace; simp only [misused,invalid]; split <;> simp)

theorem checkHelpers_ok {v : Value} {helpers : String} (accepted : checkHelpers v = .ok helpers) :
    v = .str helpers ∧ Identifier.acceptsWord helpers = true := by
  cases v with
  | str given =>
    by_cases word : Identifier.acceptsWord given = true
    · simp only [checkHelpers,if_pos word,Except.ok.injEq] at accepted
      subst accepted
      exact ⟨rfl,word⟩
    · simp [checkHelpers,invalid,word] at accepted
  | _ => exact absurd accepted (by unfold checkHelpers; simp only [misused,invalid]; split <;> simp)

theorem checkReferences_ok {references : List Value} (accepted : checkReferences references = .ok ()) :
    ∀ v ∈ references, ∃ text, v = .str text ∧ Identifier.acceptsDotted text = true := by
  induction references with
  | nil => simp
  | cons first rest ih =>
    cases first with
    | str given =>
      by_cases dotted : Identifier.acceptsDotted given = true
      · rw [checkReferences,if_pos dotted] at accepted
        intro v member
        rcases List.mem_cons.mp member with rfl | later
        · exact ⟨given,rfl,dotted⟩
        · exact ih accepted v later
      · simp [checkReferences,dotted,invalid] at accepted
    | _ => simp [checkReferences,misused] at accepted

theorem validate_ok (accepted : s.validate = .ok target) :
    checkNamespace s.generatedNamespace = .ok target.root ∧ checkHelpers s.helpersPrefix = .ok target.helpers ∧
      checkReferences s.referencedNamespaces = .ok () ∧ checkIndent s.indentSize = .ok () := by
  unfold validate at accepted
  obtain ⟨root,rooted,rest⟩ := bind_ok_iff.mp accepted
  obtain ⟨helpers,named,rest⟩ := bind_ok_iff.mp rest
  obtain ⟨_,referenced,rest⟩ := bind_ok_iff.mp rest
  obtain ⟨_,indented,rest⟩ := bind_ok_iff.mp rest
  obtain rfl := Except.ok.inj rest
  exact ⟨rooted,named,referenced,indented⟩

theorem generatedNamespace_eq (accepted : s.validate = .ok target) : s.generatedNamespace = .str target.root :=
  (checkNamespace_ok (validate_ok accepted).1).1

theorem root_ne_empty (accepted : s.validate = .ok target) : target.root ≠ "" :=
  (checkNamespace_ok (validate_ok accepted).1).2.1

theorem root_head (accepted : s.validate = .ok target) : target.root.toList.head? ≠ some '.' := by
  intro dot
  have dotted := (checkNamespace_ok (validate_ok accepted).1).2.2
  obtain ⟨rest,shown⟩ : ∃ rest, target.root.toList = '.' :: rest := List.head?_eq_some_iff.mp dot
  have kept : Identifier.withoutFinalNewline ('.' :: rest) = '.' :: Identifier.withoutFinalNewline rest := by
    cases rest <;> rfl
  rw [Identifier.acceptsDotted,shown,kept,Identifier.isDotted,Identifier.segments] at dotted
  simp [Identifier.isWord] at dotted

theorem helpers_ne_empty (accepted : s.validate = .ok target) : target.helpers ≠ "" := by
  intro empty
  have word := (checkHelpers_ok (validate_ok accepted).2.1).2
  rw [empty] at word
  exact absurd word (by decide)

theorem default_accepted : default.validate = .ok ⟨"R4Mvc","MVC"⟩ := rfl

end Settings

namespace Identifier

theorem continuesWord_of_starts {c : Char} (starts : startsWord c = true) : continuesWord c = true := by
  simp only [startsWord,Bool.or_eq_true] at starts
  simp only [continuesWord,Char.isAlphanum,Bool.or_eq_true]
  rcases starts with letter | line
  · exact .inl (.inl letter)
  · exact .inr line

theorem Word.continues {word : List Char} (correct : Word word) : ∀ c ∈ word, continuesWord c = true := by
  cases correct with
  | intro first others =>
    intro c member
    rcases List.mem_cons.mp member with rfl | later
    · exact continuesWord_of_starts first
    · exact others c later

theorem Word.append {word more : List Char} (correct : Word word) (continued : ∀ c ∈ more, continuesWord c = true) :
    Word (word ++ more) := by
  cases correct with
  | intro first others =>
    refine .intro first ?_
    intro c member
    rcases List.mem_append.mp member with own | added
    · exact others c own
    · exact continued c added

theorem Dotted.append {front back : List Char} (left : Dotted front) (right : Dotted back) :
    Dotted (front ++ '.' :: back) := by
  induction left with
  | single word => exact .dot word right
  | dot word _ ih =>
    rw [List.append_assoc,List.cons_append]
    exact .dot word ih

def isDottedChar (c : Char) : Bool := continuesWord c || c == '.'

theorem Dotted.chars {cs : List Char} (correct : Dotted cs) : ∀ c ∈ cs, isDottedChar c = true := by
  have inWord : ∀ {word : List Char}, Word word → ∀ c ∈ word, isDottedChar c = true := by
    intro word correct c member
    simp [isDottedChar,correct.continues c member]
  induction correct with
  | single word => exact inWord word
  | dot word _ ih =>
    intro c member
    rcases List.mem_append.mp member with own | later
    · exact inWord word c own
    · rcases List.mem_cons.mp later with rfl | rest
      · rfl
      · exact ih c rest

theorem Dotted.ne_nil {cs : List Char} (correct : Dotted cs) : cs ≠ [] := by
  cases correct with
  | single word => cases word with | intro _ _ => exact List.cons_ne_nil _ _
  | dot _ _ => exact List.append_ne_nil_of_right_ne_nil _ (List.cons_ne_nil _ _)

theorem Dotted.newline_free {cs : List Char} (correct : Dotted cs) : '\n' ∉ cs := by
  intro member
  have inside := correct.chars '\n' member
  exact absurd inside (by decide)

theorem segments_cases (cs : List Char) :
    segments cs = [cs] ∨ ∃ word rest, cs = word ++ '.' :: rest ∧ segments cs = word :: segments rest := by
  induction cs with
  | nil => exact .inl rfl
  | cons c rest ih =>
    by_cases dot : c = '.'
    · subst dot
      exact .inr ⟨[],rest,rfl,rfl⟩
    · rcases ih with whole | ⟨word,after,rfl,split⟩
      · left
        simp [segments,whole]
      · right
        refine ⟨c :: word,after,rfl,?_⟩
        simp [segments,split]

theorem dotted_of_isDotted {cs : List Char} (accepted : isDotted cs = true) : Dotted cs := by
  induction size : cs.length using Nat.strongRecOn generalizing cs with
  | ind n ih =>
    rcases segments_cases cs with whole | ⟨word,rest,rfl,split⟩
    · rw [isDotted,whole] at accepted
      exact .single (isWord_iff.mp (by simpa using accepted))
    · rw [isDotted,split,List.all_cons,Bool.and_eq_true] at accepted
      have shorter : rest.length < n := by
        rw [← size,List.length_append,List.length_cons]
        omega
      exact .dot (isWord_iff.mp accepted.1) (ih rest.length shorter accepted.2 rfl)

theorem withoutFinalNewline_of_free {cs : List Char} (free : '\n' ∉ cs) : withoutFinalNewline cs = cs := by
  induction cs with
  | nil => rfl
  | cons c rest ih =>
    rw [List.mem_cons,not_or] at free
    rw [withoutFinalNewline,ih free.2]
    rintro rfl _
    exact free.1 rfl

-- A text that is a word, or a dotted name, as a whole. Validation accepts these, and each with one line feed behind it.
def WordText (s : String) : Prop := Word s.toList

def DottedText (s : String) : Prop := Dotted s.toList

instance (cs : List Char) : Decidable (Word cs) := decidable_of_iff _ isWord_iff

instance (s : String) : Decidable (WordText s) := inferInstanceAs (Decidable (Word s.toList))

theorem wordText_of_accepted {s : String} (accepted : acceptsWord s = true) (free : '\n' ∉ s.toList) : WordText s := by
  rw [acceptsWord,withoutFinalNewline_of_free free] at accepted
  exact isWord_iff.mp accepted

theorem dottedText_of_accepted {s : String} (accepted : acceptsDotted s = true) (free : '\n' ∉ s.toList) :
    DottedText s := by
  rw [acceptsDotted,withoutFinalNewline_of_free free] at accepted
  exact dotted_of_isDotted accepted

theorem WordText.dotted {s : String} (word : WordText s) : DottedText s := .single word

theorem WordText.append {s t : String} (word : WordText s) (continued : ∀ c ∈ t.toList, continuesWord c = true) :
    WordText (s ++ t) := by
  rw [WordText,String.toList_append]
  exact Word.append word continued

theorem DottedText.append {s t : String} (left : DottedText s) (right : DottedText t) :
    DottedText (s ++ "." ++ t) := by
  have shown : (s ++ "." ++ t).toList = s.toList ++ '.' :: t.toList := by simp
  rw [DottedText,shown]
  exact Dotted.append left right

end Identifier

namespace Settings

open Identifier

variable {s : Settings} {target : Target}

structure OneLine (s : Settings) : Prop where
  root : ∀ text, s.generatedNamespace = .str text → '\n' ∉ text.toList
  helpers : ∀ text, s.helpersPrefix = .str text → '\n' ∉ text.toList
  references : ∀ text, .str text ∈ s.referencedNamespaces → '\n' ∉ text.toList

theorem root_dotted (accepted : s.validate = .ok target) (free : '\n' ∉ target.root.toList) :
    DottedText target.root :=
  dottedText_of_accepted (checkNamespace_ok (validate_ok accepted).1).2.2 free

theorem helpers_word (accepted : s.validate = .ok target) (free : '\n' ∉ target.helpers.toList) :
    WordText target.helpers :=
  wordText_of_accepted (checkHelpers_ok (validate_ok accepted).2.1).2 free

theorem OneLine.texts (clean : s.OneLine) (accepted : s.validate = .ok target) :
    DottedText target.root ∧ WordText target.helpers ∧
      ∀ v ∈ s.referencedNamespaces, ∃ text, v = .str text ∧ DottedText text := by
  obtain ⟨root,helpers,references,_⟩ := validate_ok accepted
  refine ⟨root_dotted accepted (clean.root _ (checkNamespace_ok root).1),
    helpers_word accepted (clean.helpers _ (checkHelpers_ok helpers).1),?_⟩
  intro v member
  obtain ⟨text,rfl,dotted⟩ := checkReferences_ok references v member
  exact ⟨text,rfl,dottedText_of_accepted dotted (clean.references text member)⟩

theorem default_oneLine : default.OneLine := by
  refine ⟨?_,?_,?_⟩
  · rintro _ ⟨⟩
    decide
  · rintro _ ⟨⟩
    decide
  · intro text member
    obtain ⟨other,among,equal⟩ := List.mem_map.mp member
    have free : ∀ reference ∈ defaultReferences, '\n' ∉ reference.toList := by decide
    exact Value.str.inj equal ▸ free other among

end Settings
end TypedMvc
