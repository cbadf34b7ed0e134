import TypedMvc.Generation
import TypedMvc.Proofs.Ascending

namespace TypedMvc

-- A value unless there is a fault.
def faultOr (fault : Option Failure) (a : α) : Except Failure α :=
  match fault with
  | some failure => .error failure
  | none => .ok a

@[simp] theorem faultOr_none (a : α) : faultOr none a = .ok a := rfl

@[simp] theorem faultOr_some (failure : Failure) (a : α) : faultOr (some failure) a = .error failure := rfl

theorem faultOr_ok_iff {fault : Option Failure} {a b : α} : faultOr fault a = .ok b ↔ fault = none ∧ a = b := by
  cases fault <;> simp [faultOr]

theorem faultOr_error_iff {fault : Option Failure} {a : α} {failure : Failure} :
    faultOr fault a = .error failure ↔ fault = some failure := by
  cases fault <;> simp [faultOr]

theorem faultOr_bind {fault : Option Failure} {a : α} {next : α → Except Failure β} {later : Option Failure} {b : β}
    (continued : next a = faultOr later b) : (faultOr fault a >>= next) = faultOr (fault.or later) b := by
  cases fault with
  | none => simpa [bind,Except.bind] using continued
  | some failure => simp [bind,Except.bind]

namespace CSharp

theorem any_same_str (seen : List String) (name : String) :
    ((seen.map Value.str).any fun known => Value.same known (.str name)) = decide (name ∈ seen) := by
  induction seen with
  | nil => rfl
  | cons first rest ih =>
    rw [List.map_cons,List.any_cons,ih,Value.same_str]
    by_cases equal : first = name
    · simp [equal]
    · simp [equal,Ne.symm equal]

def repeatedMember (identifier ns : String) (seen names : List String) : Option Failure :=
  (firstRepeated seen names).map fun name => .duplicateMember (.str name) identifier ns

theorem checkMembersFrom_texts {members : List Member} {names : List String}
    (named : members.filterMap Member.name? = names.map .str) (identifier ns : String) (seen : List String) :
    checkMembersFrom identifier ns (seen.map .str) members =
      faultOr (repeatedMember identifier ns seen names) () := by
  induction members generalizing names seen with
  | nil =>
    have none : names = [] := by simpa using named.symm
    simp [none,checkMembersFrom,repeatedMember,firstRepeated]
  | cons member rest ih =>
    cases shown : member.name? with
    | none =>
      rw [List.filterMap_cons_none shown] at named
      simp only [checkMembersFrom,shown]
      exact ih named seen
    | some v =>
      rw [List.filterMap_cons_some shown] at named
      cases names with
      | nil => simp at named
      | cons name others =>
        obtain ⟨rfl,restNamed⟩ : v = .str name ∧ rest.filterMap Member.name? = others.map .str := by
          simpa using named
        simp only [checkMembersFrom,shown,any_same_str,Value.hashable_str]
        by_cases known : name ∈ seen
        · simp [known,repeatedMember,firstRepeated]
        · simpa [known,repeatedMember,firstRepeated] using ih restNamed (name :: seen)

theorem checkMembers_texts {members : List Member} {names : List String}
    (named : members.filterMap Member.name? = names.map .str) (identifier ns : String) :
    checkMembers identifier ns members = faultOr (repeatedMember identifier ns [] names) () :=
  checkMembersFrom_texts named identifier ns []

theorem repeatedMember_eq_none {identifier ns : String} {names : List String} :
    repeatedMember identifier ns [] names = none ↔ names.Nodup := by
  rw [repeatedMember,Option.map_eq_none_iff,firstRepeated_eq_none]
  simp

def ClassDef.key (c : ClassDef) : String × String := (c.ns,c.identifier)

def repeatedClass (classes : List ClassDef) : Option Failure :=
  (firstRepeated [] (classes.map ClassDef.key)).map fun key => .duplicateClass key.2 key.1

theorem repeatedClass_eq_none {classes : List ClassDef} :
    repeatedClass classes = none ↔ (classes.map ClassDef.key).Nodup := by
  rw [repeatedClass,Option.map_eq_none_iff,firstRepeated_eq_none]
  simp

theorem checkClassesFrom_eq (seen : List (String × String)) (classes : List ClassDef) :
    checkClassesFrom seen classes =
      faultOr ((firstRepeated seen (classes.map ClassDef.key)).map fun key => .duplicateClass key.2 key.1) () := by
  induction classes generalizing seen with
  | nil => rfl
  | cons c rest ih =>
    by_cases known : (c.ns,c.identifier) ∈ seen
    · simp [checkClassesFrom,firstRepeated,ClassDef.key,known]
    · simpa [checkClassesFrom,firstRepeated,ClassDef.key,known] using ih ((c.ns,c.identifier) :: seen)

theorem checkClasses_eq (classes : List ClassDef) : checkClasses classes = faultOr (repeatedClass classes) () :=
  checkClassesFrom_eq [] classes

end CSharp

namespace Synthesis

open CSharp

def marked (identifier ns : String) (modifiers : List Modifier) (members : List Member) : ClassDef :=
  ⟨identifier,ns,Modifier.ordered modifiers,[],generatedCodeMarks,members⟩

theorem markedClass_texts (members : List Member) (names : List String)
    (named : members.filterMap Member.name? = names.map .str) {identifier : String} (given : identifier ≠ "")
    (ns : String) (modifiers : List Modifier) :
    markedClass identifier ns modifiers [] members =
      faultOr (repeatedMember identifier ns [] names) (marked identifier ns modifiers members) := by
  rw [markedClass,checkMembers_texts named,ClassDef.make,if_neg given]
  cases repeatedMember identifier ns [] names <;> rfl

def textMember (name value : String) : Member :=
  .fieldOf (.str name) (.str "string") [.publicAccess,.readOnly] (some (stringLiteral value))

theorem textField_str (name value : String) : textField name (.str value) = .ok (textMember name value) := rfl

@[simp] theorem textMember_name (name value : String) : (textMember name value).name? = some (.str name) := rfl

end Synthesis
end TypedMvc
