import TypedMvc.Proofs.Hidden
import TypedMvc.Proofs.Success

namespace TypedMvc

open CSharp Synthesis

namespace Controller

def rooted (c : Controller) : Controller := { c with area := if c.area.isNull then .str "" else c.area }

-- A controller with a name of its own, and a text for its area if it has one. Its namespace and its generated name may
-- be anything.
structure Rootable (c : Controller) : Prop where
  name : ∃ s, s ≠ "" ∧ c.name = .str s
  area : c.area = .null ∨ ∃ s, c.area = .str s

@[simp] theorem rooted_name (c : Controller) : c.rooted.name = c.name := rfl

@[simp] theorem rooted_ns (c : Controller) : c.rooted.ns = c.ns := rfl

@[simp] theorem rooted_generatedName (c : Controller) : c.rooted.generatedName = c.generatedName := rfl

@[simp] theorem rooted_isViewOnly (c : Controller) : c.rooted.isViewOnly = c.isViewOnly := rfl

variable {c : Controller}

theorem Rootable.cases (rootable : c.Rootable) :
    c.area = .null ∧ c.rooted.area = .str "" ∨ ∃ s, c.area = .str s ∧ c.rooted = c := by
  rcases rootable.area with absent | ⟨s,given⟩
  · exact .inl ⟨absent,by simp [rooted,absent,Value.isNull]⟩
  · refine .inr ⟨s,given,?_⟩
    cases c
    subst given
    rfl

theorem Rootable.rooted (rootable : c.Rootable) : c.rooted.Rootable := by
  refine ⟨rootable.name,.inr ?_⟩
  rcases rootable.cases with ⟨_,empty⟩ | ⟨s,given,unchanged⟩
  · exact ⟨"",empty⟩
  · exact ⟨s,by rw [unchanged,given]⟩

theorem Rootable.rooted_rooted (rootable : c.Rootable) : c.rooted.rooted = c.rooted := by
  rcases rootable.rooted.cases with ⟨absent,_⟩ | ⟨_,_,unchanged⟩
  · rcases rootable.cases with ⟨_,empty⟩ | ⟨s,given,same⟩
    · rw [empty] at absent
      cases absent
    · rw [same,given] at absent
      cases absent
  · exact unchanged

theorem Rootable.name_eq (rootable : c.Rootable) : c.name = .str c.name.text := by
  obtain ⟨s,_,equal⟩ := rootable.name
  rw [equal,Value.text_str]

theorem Rootable.named (rootable : c.Rootable) : c.name.truthy = true := by
  obtain ⟨s,given,equal⟩ := rootable.name
  simpa [equal] using given

theorem Rootable.areaKey_eq (rootable : c.Rootable) : c.areaKey = .str c.rooted.area.text := by
  rcases rootable.cases with ⟨absent,empty⟩ | ⟨s,given,unchanged⟩
  · rw [areaKey,absent,empty]
    rfl
  · by_cases root : s = "" <;> simp [areaKey,Value.orElse,unchanged,given,root]

theorem Rootable.viewOnlyClassName_eq (rootable : c.Rootable) :
    c.viewOnlyClassName = .ok (placeholderName c.rooted.area.text c.name.text) := by
  obtain ⟨name,given,named⟩ := rootable.name
  rcases rootable.cases with ⟨absent,empty⟩ | ⟨s,inside,unchanged⟩
  · rw [viewOnlyClassName,requireName_named rootable.named,absent,empty,named]
    rfl
  · rw [unchanged,viewOnlyClassName_texts given inside named,inside,named,Value.text_str,Value.text_str]

theorem Rootable.resolve_rooted (rootable : c.Rootable) (root : Value) : c.rooted.resolve root = c.resolve root := by
  have name : c.rooted.generatedClassName = c.generatedClassName := by
    simp only [generatedClassName,rootable.rooted.viewOnlyClassName_eq,rootable.viewOnlyClassName_eq,
      rootable.rooted_rooted,rooted_name,rooted_isViewOnly,requireName_named rootable.named,
      requireName_named rootable.rooted.named]
  simp only [resolve,generatedNamespace,name,rooted_ns]
  rfl

end Controller

open Controller

theorem written_rooted (trace : List Event) (cs : List Controller) :
    written trace (cs.map rooted) = (written trace cs).map rooted :=
  written_commutes (fun _ _ => rfl) trace cs

theorem written_rootable (trace : List Event) {cs : List Controller} (rootable : ∀ c ∈ cs, c.Rootable) :
    ∀ c ∈ written trace cs, c.Rootable :=
  written_each (fun _ _ _ old => ⟨old.name,old.area⟩) rootable

namespace Generation

abbrev OwnKey := Option String × String

namespace OwnKey

def values (key : OwnKey) : Value × Value := (key.1.elim .null .str,.str key.2)

def rooted (key : OwnKey) : OwnKey := (some (key.1.getD ""),key.2)

def placeholder (root : String) (key : OwnKey) : ClassDef := placeholderOf root (toLex (key.1.getD "",key.2))

theorem sameKey_values (k l : OwnKey) : sameKey k.values l.values = decide (k = l) := by
  obtain ⟨a,name⟩ := k
  obtain ⟨b,other⟩ := l
  cases a with
  | none =>
    cases b with
    | none =>
      have names : sameKey (values (none,name)) (values (none,other)) = Value.same (.str name) (.str other) := rfl
      simp [names,beq_eq_decide]
    | some t => exact (decide_eq_false (by simp)).symm
  | some s =>
    cases b with
    | none => exact (decide_eq_false (by simp)).symm
    | some t => simp [sameKey,values,beq_eq_decide]

theorem placeholder_rooted (root : String) (key : OwnKey) : placeholder root key.rooted = placeholder root key := rfl

end OwnKey

def ownKey (c : Controller) : OwnKey := (if c.area.isNull then none else some c.area.text,c.name.text)

variable {c : Controller} {cs : List Controller}

theorem ownKey_rooted (rootable : c.Rootable) : ownKey c.rooted = (ownKey c).rooted := by
  rcases rootable.cases with ⟨absent,empty⟩ | ⟨s,given,unchanged⟩
  · simp [ownKey,OwnKey.rooted,absent,empty,Value.isNull]
  · simp [ownKey,OwnKey.rooted,unchanged,given,Value.isNull]

theorem placeholderClass_rootable (rootable : c.Rootable) (root identifier : String) :
    placeholderClass root identifier c =
      placeholderClass root identifier (.ofTexts c.name.text none c.rooted.area.text none) := by
  rcases rootable.cases with ⟨absent,empty⟩ | ⟨s,given,unchanged⟩
  · rw [placeholderClass,placeholderClass,absent,empty,rootable.name_eq]
    rfl
  · rw [placeholderClass,placeholderClass,unchanged,given,rootable.name_eq]
    rfl

theorem ownKey_candidate (rootable : c.Rootable) (viewOnly : c.isViewOnly = true) (root : String) :
    Candidate root OwnKey.values (OwnKey.placeholder root) c (ownKey c)
      (root ++ "." ++ placeholderName c.rooted.area.text c.name.text) where
  values := by
    rw [rootable.name_eq]
    rcases rootable.cases with ⟨absent,_⟩ | ⟨s,given,_⟩
    · simp [ownKey,OwnKey.values,absent,Value.isNull]
    · simp [ownKey,OwnKey.values,given,Value.isNull]
  hashable := by
    rw [rootable.name_eq,Value.hashable_str,Bool.and_true]
    rcases rootable.cases with ⟨absent,_⟩ | ⟨s,given,_⟩
    · rw [absent]
      rfl
    · rw [given,Value.hashable_str]
  resolved := by
    have backless : c.ns.truthy = false := by simpa [isViewOnly] using viewOnly
    simp [resolve,generatedNamespace,generatedClassName,viewOnly,backless,rootable.viewOnlyClassName_eq,bind,
      Except.bind,pure,Except.pure]
  made := by
    refine ⟨_,rootable.viewOnlyClassName_eq,?_⟩
    have made := placeholderClass_texts (textual_ofTexts c.name.text none c.rooted.area.text none) root
    rw [placeholderClass_rootable rootable]
    refine made.trans (congrArg (fun key => Except.ok (placeholderOf root key)) ?_)
    rcases rootable.cases with ⟨absent,empty⟩ | ⟨s,given,unchanged⟩
    · simp [ownKey,Controller.key,ofTexts,absent,empty,Value.isNull]
    · simp [ownKey,Controller.key,ofTexts,unchanged,given,Value.isNull]

def sortedCandidates (cs : List Controller) : List (Controller × Nat) :=
  (cs.zipIdx.filter fun p => p.1.isViewOnly).mergeSort fun p q => decide (p.1.rooted.key ≤ q.1.rooted.key)

theorem mem_sortedCandidates {p : Controller × Nat} (member : p ∈ sortedCandidates cs) :
    p.1 ∈ cs ∧ p.1.isViewOnly = true := by
  obtain ⟨present,viewOnly⟩ := List.mem_filter.mp (List.mem_mergeSort.mp member)
  exact ⟨List.fst_mem_of_mem_zipIdx present,viewOnly⟩

theorem sortedCandidates_rooted (rootable : ∀ c ∈ cs, c.Rootable) :
    sortedCandidates (cs.map rooted) = (sortedCandidates cs).map (Prod.map rooted id) := by
  have filtered : (cs.zipIdx.map (Prod.map rooted id)).filter (fun p => p.1.isViewOnly) =
      (cs.zipIdx.filter fun p => p.1.isViewOnly).map (Prod.map rooted id) := by
    rw [List.filter_map]
    rfl
  rw [sortedCandidates,sortedCandidates,List.zipIdx_map,filtered]
  refine (List.map_mergeSort ?_).symm
  intro p left q right
  have known : ∀ p ∈ cs.zipIdx.filter fun p => p.1.isViewOnly, p.1.rooted.rooted = p.1.rooted := by
    intro p member
    exact (rootable p.1 (List.fst_mem_of_mem_zipIdx (List.mem_filter.mp member).1)).rooted_rooted
  simp only [Prod.map_fst,known p left,known q right]

-- Every candidate is told apart from those before it by its own key.
theorem placeholderClasses_rootable (target : Target) (rootable : ∀ c ∈ cs, c.Rootable) :
    (placeholderClasses target cs).outcome =
      .ok (((sortedCandidates cs).map fun p => ownKey p.1).eraseDups.map (OwnKey.placeholder target.root)) ∧
    namings (placeholderClasses target cs).trace = (sortedCandidates cs).map fun p =>
      (p.2,target.root ++ "." ++ placeholderName p.1.rooted.area.text p.1.name.text) := by
  have sortKeys : ∀ p ∈ cs.zipIdx, p.1.isViewOnly = true → p.1.sortKey = .ok p.1.rooted.key.values := by
    intro p member _
    have known := rootable p.1 (List.fst_mem_of_mem_zipIdx member)
    rw [sortKey,requireName_named known.named,known.areaKey_eq,known.name_eq]
    rfl
  have each : ∀ p ∈ sortedCandidates cs, Candidate target.root OwnKey.values (OwnKey.placeholder target.root) p.1
      (ownKey p.1) (target.root ++ "." ++ placeholderName p.1.rooted.area.text p.1.name.text) := by
    intro p member
    obtain ⟨present,viewOnly⟩ := mem_sortedCandidates member
    exact ownKey_candidate (rootable p.1 present) viewOnly target.root
  have stage := placeholdersFrom_keyed OwnKey.sameKey_values ownKey
    (fun c => target.root ++ "." ++ placeholderName c.rooted.area.text c.name.text) each []
  rw [List.filter_eq_self.mpr (by simp)] at stage
  rw [placeholderClasses,placeholders,candidates_keyed (fun c => c.rooted.key) sortKeys,Run.settled_ok_bind]
  exact stage

-- No name of a view-only controller occurs both without an area and with an empty one.
def Unmixed (cs : List Controller) : Prop :=
  ∀ c ∈ cs, ∀ d ∈ cs, c.isViewOnly = true → d.isViewOnly = true → c.name = d.name →
    c.area = .null → d.area ≠ .str ""

theorem mem_ownKeys {key : OwnKey} :
    key ∈ (sortedCandidates cs).map (fun p => ownKey p.1) ↔ ∃ c ∈ cs, c.isViewOnly = true ∧ ownKey c = key := by
  rw [List.mem_map]
  constructor
  · rintro ⟨p,member,rfl⟩
    obtain ⟨present,viewOnly⟩ := mem_sortedCandidates member
    exact ⟨p.1,present,viewOnly,rfl⟩
  · rintro ⟨c,present,viewOnly,rfl⟩
    obtain ⟨position,found⟩ := List.mem_iff_getElem?.mp present
    refine ⟨(c,position),List.mem_mergeSort.mpr (List.mem_filter.mpr ⟨?_,viewOnly⟩),rfl⟩
    exact List.mem_zipIdx_iff_getElem?.mpr found

theorem apart_iff_unmixed (rootable : ∀ c ∈ cs, c.Rootable) :
    (∀ k ∈ (sortedCandidates cs).map (fun p => ownKey p.1), ∀ l ∈ (sortedCandidates cs).map (fun p => ownKey p.1),
      k.rooted = l.rooted → k = l) ↔ Unmixed cs := by
  simp only [mem_ownKeys]
  constructor
  · intro apart c inCs d inDs viewOnly otherViewOnly names absent empty
    have same := apart _ ⟨c,inCs,viewOnly,rfl⟩ _ ⟨d,inDs,otherViewOnly,rfl⟩
      (by simp [ownKey,OwnKey.rooted,absent,empty,names,Value.isNull])
    simp [ownKey,absent,empty,Value.isNull] at same
  · rintro unmixed _ ⟨c,inCs,viewOnly,rfl⟩ _ ⟨d,inDs,otherViewOnly,rfl⟩ same
    obtain ⟨areas,texts⟩ := Prod.mk.inj same
    have names : c.name = d.name := by
      rw [(rootable c inCs).name_eq,(rootable d inDs).name_eq]
      exact congrArg Value.str texts
    refine Prod.ext ?_ texts
    rcases (rootable c inCs).area with absent | ⟨s,given⟩ <;> rcases (rootable d inDs).area with other | ⟨t,other⟩
    · simp [ownKey,absent,other,Value.isNull]
    · have empty : t = "" := by simpa [ownKey,absent,other,Value.isNull,eq_comm] using areas
      exact absurd (by rw [other,empty]) (unmixed c inCs d inDs viewOnly otherViewOnly names absent)
    · have empty : s = "" := by simpa [ownKey,given,other,Value.isNull] using areas
      exact absurd (by rw [given,empty]) (unmixed d inDs c inCs otherViewOnly viewOnly names.symm other)
    · simpa [ownKey,given,other,Value.isNull] using areas

theorem rooted_list (rootable : ∀ c ∈ cs, c.Rootable) : ∀ c ∈ cs.map rooted, c.Rootable := by
  intro c member
  obtain ⟨d,old,rfl⟩ := List.mem_map.mp member
  exact (rootable d old).rooted

theorem placeholderClasses_rooted (target : Target) (rootable : ∀ c ∈ cs, c.Rootable) :
    (placeholderClasses target (cs.map rooted)).outcome =
      .ok ((((sortedCandidates cs).map fun p => ownKey p.1).map OwnKey.rooted).eraseDups.map
        (OwnKey.placeholder target.root)) ∧
    namings (placeholderClasses target (cs.map rooted)).trace = namings (placeholderClasses target cs).trace := by
  obtain ⟨outcome,names⟩ := placeholderClasses_rootable target (rooted_list rootable)
  have each : ∀ p ∈ sortedCandidates cs, p.1.Rootable := fun p member => rootable p.1 (mem_sortedCandidates member).1
  rw [outcome,names,(placeholderClasses_rootable target rootable).2,sortedCandidates_rooted rootable,List.map_map,
    List.map_map,List.map_map]
  constructor
  · congr 3
    exact List.map_congr_left fun p member => ownKey_rooted (each p member)
  · refine List.map_congr_left ?_
    intro p member
    simp [(each p member).rooted_rooted]

-- The placeholder stage is the one that sees a difference, and only where the two ways of writing meet.
theorem placeholderClasses_rooted_iff (target : Target) (rootable : ∀ c ∈ cs, c.Rootable) :
    (placeholderClasses target (cs.map rooted)).outcome = (placeholderClasses target cs).outcome ↔ Unmixed cs := by
  rw [(placeholderClasses_rooted target rootable).1,(placeholderClasses_rootable target rootable).1,
    ← apart_iff_unmixed rootable]
  constructor
  · intro same
    have lengths := congrArg List.length (Except.ok.inj same)
    rw [List.length_map,List.length_map] at lengths
    exact apart_of_length_eraseDups lengths
  · intro apart
    rw [eraseDups_map apart,List.map_map]
    rfl

theorem hidden_rooted (rootable : c.Rootable) (root : String) : Hidden root rooted c where
  named := rootable.name
  name := rfl
  area := ⟨c.rooted.area.text,rootable.areaKey_eq,by rw [rootable.rooted.areaKey_eq,rootable.rooted_rooted]⟩
  field := by
    intro isStatic position
    simp only [instanceFieldOf,rooted_name,rooted_generatedName,rootable.resolve_rooted]

theorem areaClasses_rooted (target : Target) (rootable : ∀ c ∈ cs, c.Rootable) :
    areaClasses target (cs.map rooted) = areaClasses target cs :=
  areaClasses_changed fun c member => hidden_rooted (rootable c member) target.root

theorem helpersClass_rooted (target : Target) (rootable : ∀ c ∈ cs, c.Rootable) :
    helpersClass target (cs.map rooted) = helpersClass target cs :=
  helpersClass_changed fun c member => hidden_rooted (rootable c member) target.root

def afterPlaceholders (target : Target) (viewOnly : List ClassDef) (controllers : List Controller) :
    Run (List ClassDef) :=
  sequenced controllers (areaClasses target) fun areas controllers => do
    let helpers ← helpersClass target controllers
    let classes := viewOnly ++ areas ++ helpers :: wrappers target.root
    Run.settled (checkClasses classes)
    Run.note (.generationComplete classes.length)
    return classes

theorem generate_eq (target : Target) (cs : List Controller) :
    (generate target cs).outcome = ((placeholderClasses target cs).outcome >>= fun viewOnly =>
      (afterPlaceholders target viewOnly (written (placeholderClasses target cs).trace cs)).outcome) := by
  rw [generate,Run.note_bind,sequenced,Run.outcome_bind]
  rfl

theorem afterPlaceholders_rooted (target : Target) (viewOnly : List ClassDef) (rootable : ∀ c ∈ cs, c.Rootable) :
    afterPlaceholders target viewOnly (cs.map rooted) = afterPlaceholders target viewOnly cs := by
  simp only [afterPlaceholders,sequenced,areaClasses_rooted target rootable,written_rooted,
    helpersClass_rooted target (written_rootable _ rootable)]

-- A run that succeeds has let its classes pass, so no two of the placeholders are one class.
theorem afterPlaceholders_distinct {target : Target} {viewOnly classes : List ClassDef}
    (succeeded : (afterPlaceholders target viewOnly cs).outcome = .ok classes) :
    (viewOnly.map ClassDef.key).Nodup := by
  simp only [afterPlaceholders,sequenced,Run.outcome_bind,Run.settled_outcome,checkClasses_eq] at succeeded
  obtain ⟨areas,_,rest⟩ := bind_ok_iff.mp succeeded
  obtain ⟨helpers,_,rest⟩ := bind_ok_iff.mp rest
  cases repeated : repeatedClass (viewOnly ++ areas ++ helpers :: wrappers target.root) with
  | some failure =>
    rw [repeated,faultOr_some] at rest
    cases rest
  | none =>
    have distinct := repeatedClass_eq_none.mp repeated
    rw [List.append_assoc,List.map_append] at distinct
    exact (List.nodup_append.mp distinct).1

theorem generate_unmixed (target : Target) (rootable : ∀ c ∈ cs, c.Rootable) (unmixed : Unmixed cs) :
    (generate target (cs.map rooted)).outcome = (generate target cs).outcome := by
  have writes := written_of_namings (placeholderClasses_rooted target rootable).2 (cs.map rooted)
  rw [generate_eq,generate_eq,(placeholderClasses_rooted_iff target rootable).mpr unmixed,writes,written_rooted]
  congr 1
  funext viewOnly
  rw [afterPlaceholders_rooted target viewOnly (written_rootable _ rootable)]

theorem generate_mixed {target : Target} (rootable : ∀ c ∈ cs, c.Rootable) {classes : List ClassDef}
    (succeeded : (generate target cs).outcome = .ok classes) : Unmixed cs := by
  rw [generate_eq,(placeholderClasses_rootable target rootable).1] at succeeded
  have distinct := afterPlaceholders_distinct succeeded
  rw [List.map_map] at distinct
  refine (apart_iff_unmixed rootable).mp ?_
  intro k first l second same
  refine apart_of_nodup_map distinct k first l second ?_
  rw [Function.comp_apply,Function.comp_apply,← OwnKey.placeholder_rooted,same,OwnKey.placeholder_rooted]

-- Controllers without an area are taken for controllers of the root area, by the placeholder stage and by a whole run,
-- exactly as long as no view-only name occurs in both ways. Where one does, a run fails: for a class that repeats, if
-- not for something before.
theorem generate_rooted (target : Target) (rootable : ∀ c ∈ cs, c.Rootable) :
    ((placeholderClasses target (cs.map rooted)).outcome = (placeholderClasses target cs).outcome ↔ Unmixed cs) ∧
    (Unmixed cs → (generate target (cs.map rooted)).outcome = (generate target cs).outcome) ∧
    (¬ Unmixed cs → ∀ classes, (generate target cs).outcome ≠ .ok classes) := by
  refine ⟨placeholderClasses_rooted_iff target rootable,generate_unmixed target rootable,?_⟩
  intro mixed classes succeeded
  exact mixed (generate_mixed rootable succeeded)

-- A name of the root area without an area, another one with an empty area, and the first one again in a named area.
def lobby : List Controller :=
  [⟨.str "Home",.null,.null,.null⟩,⟨.str "Cart",.null,.str "",.null⟩,⟨.str "Home",.null,.str "Shop",.null⟩]

theorem generate_rooted_lobby :
    (∀ c ∈ lobby, c.Rootable) ∧ Unmixed lobby ∧
    (placeholderClasses ⟨"R4Mvc","MVC"⟩ (lobby.map rooted)).outcome =
      (placeholderClasses ⟨"R4Mvc","MVC"⟩ lobby).outcome ∧
    (generate ⟨"R4Mvc","MVC"⟩ (lobby.map rooted)).outcome = (generate ⟨"R4Mvc","MVC"⟩ lobby).outcome := by
  have rootable : ∀ c ∈ lobby, c.Rootable := by
    intro c member
    simp only [lobby,List.mem_cons,List.not_mem_nil,or_false] at member
    rcases member with rfl | rfl | rfl
    · exact ⟨⟨"Home",by decide,rfl⟩,.inl rfl⟩
    · exact ⟨⟨"Cart",by decide,rfl⟩,.inr ⟨"",rfl⟩⟩
    · exact ⟨⟨"Home",by decide,rfl⟩,.inr ⟨"Shop",rfl⟩⟩
  have unmixed : Unmixed lobby := by
    simp [Unmixed,lobby]
  obtain ⟨placeholders,whole,_⟩ := generate_rooted ⟨"R4Mvc","MVC"⟩ rootable
  exact ⟨rootable,unmixed,placeholders.mpr unmixed,whole unmixed⟩

def twice : List Controller := [⟨.str "Home",.null,.null,.null⟩,⟨.str "Home",.null,.str "",.null⟩]

theorem generate_rooted_fails :
    Settings.default.validate = .ok ⟨"R4Mvc","MVC"⟩ ∧ (∀ c ∈ twice, c.Rootable) ∧
    (placeholderClasses ⟨"R4Mvc","MVC"⟩ (twice.map rooted)).outcome ≠
      (placeholderClasses ⟨"R4Mvc","MVC"⟩ twice).outcome ∧
    (∃ classes, (generate ⟨"R4Mvc","MVC"⟩ (twice.map rooted)).outcome = .ok classes) ∧
    ∀ classes, (generate ⟨"R4Mvc","MVC"⟩ twice).outcome ≠ .ok classes := by
  have rootable : ∀ c ∈ twice, c.Rootable := by
    intro c member
    simp only [twice,List.mem_cons,List.not_mem_nil,or_false] at member
    rcases member with rfl | rfl
    · exact ⟨⟨"Home",by decide,rfl⟩,.inl rfl⟩
    · exact ⟨⟨"Home",by decide,rfl⟩,.inr ⟨"",rfl⟩⟩
  have mixed : ¬ Unmixed twice := by
    intro unmixed
    exact unmixed ⟨.str "Home",.null,.null,.null⟩ (by simp [twice]) ⟨.str "Home",.null,.str "",.null⟩ (by simp [twice])
      rfl rfl rfl rfl rfl
  refine ⟨rfl,rootable,mt (placeholderClasses_rooted_iff _ rootable).mp mixed,?_,?_⟩
  · have shown : twice.map rooted = [.ofTexts "Home" none "" none,.ofTexts "Home" none "" none] := rfl
    rw [shown]
    refine ⟨_,generate_of_distinguished ⟨"R4Mvc","MVC"⟩ (by decide) (by decide) ?_ ?_ ?_⟩
    · simp [textual_ofTexts]
    · constructor <;> simp [Controller.ofTexts]
    · simp [PlaceholdersDiffer,Controller.ofTexts]
  · exact fun classes succeeded => mixed (generate_mixed rootable succeeded)

end Generation
end TypedMvc
