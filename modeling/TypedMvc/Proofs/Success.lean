import TypedMvc.Proofs.Collision

namespace TypedMvc.Generation

open CSharp Synthesis

variable {target : Target} {cs : List Controller}

-- Every controller has a name, and no name is taken by another field of the class that it gets a field in.
structure Distinguished (cs : List Controller) : Prop where
  named : ∀ c ∈ cs, c.name ≠ .str ""
  nameFree : ∀ c ∈ cs, c.area ≠ .str "" → c.name ≠ .str "Name"
  areasFree : ∀ c ∈ cs, c.area = .str "" → ∀ d ∈ cs, d.area ≠ .str "" → c.name ≠ d.area

-- View-only controllers with one placeholder identifier have one area and one name.
def PlaceholdersDiffer (cs : List Controller) : Prop :=
  ∀ c ∈ cs, ∀ d ∈ cs, c.isViewOnly = true → d.isViewOnly = true → ∀ identifier,
    c.viewOnlyClassName = .ok identifier → d.viewOnlyClassName = .ok identifier → (c.area,c.name) = (d.area,d.name)

theorem areasFault_eq_none {root : String} (texts : ∀ c ∈ cs, c.Textual) :
    areasFault root cs = none ↔
      ∀ c ∈ cs, c.area ≠ .str "" → c.name ≠ .str "" ∧ c.name ≠ .str "Name" := by
  have each : ∀ area, areaFault root area (inArea area cs) = none ↔
      ∀ c ∈ cs, c.area = .str area → c.name ≠ .str "" ∧ c.name ≠ .str "Name" := by
    intro area
    have distinct : (namesOf (inArea area cs)).Nodup := nodup_ascending _
    rw [areaFault,Option.or_eq_none_iff,unnamed_eq_none,repeatedMember_eq_none,List.nodup_cons,and_iff_left distinct,
      mem_namesOf]
    constructor
    · rintro ⟨named,free⟩ c member here
      have inside : c ∈ inArea area cs := mem_inArea.mpr ⟨member,((texts c member).area_eq_iff area).mp here⟩
      refine ⟨(texts c member).named_iff.mp (named c inside),?_⟩
      intro taken
      exact free ⟨c,inside,((texts c member).name_eq_iff "Name").mp taken⟩
    · intro each
      have inside : ∀ c ∈ inArea area cs, c.Textual ∧ c.name ≠ .str "" ∧ c.name ≠ .str "Name" := by
        intro c there
        obtain ⟨member,here⟩ := mem_inArea.mp there
        exact ⟨texts c member,each c member (((texts c member).area_eq_iff area).mpr here)⟩
      refine ⟨fun c there => (inside c there).1.named_iff.mpr (inside c there).2.1,?_⟩
      rintro ⟨c,there,taken⟩
      exact (inside c there).2.2 (((inside c there).1.name_eq_iff "Name").mpr taken)
  rw [areasFault,List.findSome?_eq_none_iff]
  constructor
  · intro clear c member away
    have given : c.area.text ≠ "" := fun empty => away (((texts c member).area_eq_iff "").mpr empty)
    exact (each c.area.text).mp (clear _ (mem_namedAreas.mpr ⟨given,c,member,rfl⟩)) c member (texts c member).area_eq
  · intro clear area present
    obtain ⟨given,_⟩ := mem_namedAreas.mp present
    refine (each area).mpr ?_
    intro c member here
    refine clear c member ?_
    rw [here]
    simpa using given

theorem helpersFault_eq_none (texts : ∀ c ∈ cs, c.Textual) :
    helpersFault target (namedAreas cs) (inArea "" cs) = none ↔
      ∀ c ∈ cs, c.area = .str "" → c.name ≠ .str "" ∧ ∀ d ∈ cs, d.area ≠ .str "" → c.name ≠ d.area := by
  have distinctAreas : (namedAreas cs).Nodup := nodup_ascending _
  have distinctNames : (namesOf (inArea "" cs)).Nodup := nodup_ascending _
  rw [helpersFault,Option.or_eq_none_iff,unnamed_eq_none,repeatedMember_eq_none,List.nodup_append]
  constructor
  · rintro ⟨named,_,_,apart⟩ c member here
    have inside : c ∈ inArea "" cs := mem_inArea.mpr ⟨member,((texts c member).area_eq_iff "").mp here⟩
    refine ⟨(texts c member).named_iff.mp (named c inside),?_⟩
    intro d other away taken
    have given : d.area.text ≠ "" := fun empty => away (((texts d other).area_eq_iff "").mpr empty)
    exact apart d.area.text (mem_namedAreas.mpr ⟨given,d,other,rfl⟩) c.name.text (mem_namesOf.mpr ⟨c,inside,rfl⟩)
      (by rw [taken])
  · intro each
    refine ⟨?_,distinctAreas,distinctNames,?_⟩
    · intro c there
      obtain ⟨member,here⟩ := mem_inArea.mp there
      exact (texts c member).named_iff.mpr (each c member (((texts c member).area_eq_iff "").mpr here)).1
    · intro area present name among equal
      obtain ⟨given,d,other,rfl⟩ := mem_namedAreas.mp present
      obtain ⟨c,there,rfl⟩ := mem_namesOf.mp among
      obtain ⟨member,here⟩ := mem_inArea.mp there
      have away : d.area ≠ .str "" := fun empty => given (((texts d other).area_eq_iff "").mp empty)
      refine (each c member (((texts c member).area_eq_iff "").mpr here)).2 d other away ?_
      rw [(texts c member).name_eq,(texts d other).area_eq,equal]

def earlyFault (target : Target) (cs : List Controller) : Option Failure :=
  (unnamed (cs.filter Controller.isViewOnly)).or
    ((areasFault target.root cs).or (helpersFault target (namedAreas cs) (inArea "" cs)))

theorem fault_eq (target : Target) (cs : List Controller) :
    fault target cs = (earlyFault target cs).or (repeatedClass (plan target cs)) := by
  rw [fault,earlyFault,Option.or_assoc,Option.or_assoc]

theorem earlyFault_eq_none (target : Target) (texts : ∀ c ∈ cs, c.Textual) :
    earlyFault target cs = none ↔ Distinguished cs := by
  rw [earlyFault,Option.or_eq_none_iff,Option.or_eq_none_iff,areasFault_eq_none texts,helpersFault_eq_none texts]
  constructor
  · rintro ⟨_,areas,helpers⟩
    refine ⟨?_,fun c member away => (areas c member away).2,fun c member here => (helpers c member here).2⟩
    intro c member
    by_cases here : c.area = .str ""
    · exact (helpers c member here).1
    · exact (areas c member here).1
  · intro distinguished
    refine ⟨unnamed_eq_none.mpr ?_,?_,?_⟩
    · intro c viewOnly
      have member : c ∈ cs := (List.mem_filter.mp viewOnly).1
      exact (texts c member).named_iff.mpr (distinguished.named c member)
    · intro c member away
      exact ⟨distinguished.named c member,distinguished.nameFree c member away⟩
    · intro c member here
      exact ⟨distinguished.named c member,distinguished.areasFree c member here⟩

theorem plan_distinct_iff (rooted : target.root ≠ "") (texts : ∀ c ∈ cs, c.Textual)
    (named : ∀ c ∈ cs, c.name ≠ .str "") : repeatedClass (plan target cs) = none ↔ PlaceholdersDiffer cs := by
  have identifiers : ∀ c ∈ cs, c.viewOnlyClassName = .ok (Controller.placeholderName c.area.text c.name.text) :=
    fun c member => (texts c member).viewOnlyClassName_named ((texts c member).named_iff.mpr (named c member))
  rw [repeatedClass_eq_none,plan_nodup_iff rooted]
  constructor
  · intro differ c left d right viewOnly otherViewOnly identifier identified otherIdentified
    rw [identifiers c left] at identified
    rw [identifiers d right] at otherIdentified
    have equal : Controller.placeholderName c.area.text c.name.text = Controller.placeholderName d.area.text d.name.text :=
      Except.ok.inj (identified.trans otherIdentified.symm)
    have keys : c.key = d.key := differ c.key (mem_placeholderKeys.mpr ⟨c,left,viewOnly,rfl⟩) d.key
      (mem_placeholderKeys.mpr ⟨d,right,otherViewOnly,rfl⟩) equal
    have values := congrArg Key.values keys
    rwa [(texts c left).key_values,(texts d right).key_values] at values
  · intro differ a left b right equal
    obtain ⟨c,member,viewOnly,rfl⟩ := mem_placeholderKeys.mp left
    obtain ⟨d,other,otherViewOnly,rfl⟩ := mem_placeholderKeys.mp right
    have same := differ c member d other viewOnly otherViewOnly _ (identifiers c member)
      ((identifiers d other).trans (congrArg Except.ok equal.symm))
    obtain ⟨areas,names⟩ := Prod.mk.inj same
    rw [Controller.key,Controller.key,areas,names]

theorem unnamed_kind {group : List Controller} {failure : Failure} (fault : unnamed group = some failure) :
    ∃ area ns, failure = .unnamedController area ns := by
  obtain ⟨c,_,rfl⟩ := Option.map_eq_some_iff.mp fault
  exact ⟨c.area,c.ns,rfl⟩

theorem repeatedMember_kind {identifier ns : String} {names : List String} {failure : Failure}
    (fault : repeatedMember identifier ns [] names = some failure) :
    ∃ member identifier ns, failure = .duplicateMember member identifier ns := by
  obtain ⟨name,_,rfl⟩ := Option.map_eq_some_iff.mp fault
  exact ⟨.str name,identifier,ns,rfl⟩

theorem earlyFault_kind {failure : Failure} (fault : earlyFault target cs = some failure) :
    (∃ area ns, failure = .unnamedController area ns) ∨
      ∃ member identifier ns, failure = .duplicateMember member identifier ns := by
  rcases Option.or_eq_some_iff.mp fault with missing | ⟨_,later⟩
  · exact .inl (unnamed_kind missing)
  · rcases Option.or_eq_some_iff.mp later with areas | ⟨_,helpers⟩
    · obtain ⟨area,_,found⟩ := List.exists_of_findSome?_eq_some areas
      rcases Option.or_eq_some_iff.mp found with missing | ⟨_,taken⟩
      · exact .inl (unnamed_kind missing)
      · exact .inr (repeatedMember_kind taken)
    · rcases Option.or_eq_some_iff.mp helpers with missing | ⟨_,taken⟩
      · exact .inl (unnamed_kind missing)
      · exact .inr (repeatedMember_kind taken)

theorem repeatedClass_kind {classes : List ClassDef} {failure : Failure}
    (fault : repeatedClass classes = some failure) : ∃ identifier ns, failure = .duplicateClass identifier ns := by
  obtain ⟨key,_,rfl⟩ := Option.map_eq_some_iff.mp fault
  exact ⟨key.2,key.1,rfl⟩

theorem fault_eq_none (rooted : target.root ≠ "") (texts : ∀ c ∈ cs, c.Textual) :
    fault target cs = none ↔ Distinguished cs ∧ PlaceholdersDiffer cs := by
  rw [fault_eq,Option.or_eq_none_iff,earlyFault_eq_none target texts]
  refine and_congr_right fun distinguished => ?_
  exact plan_distinct_iff rooted texts distinguished.named

theorem fault_kind {failure : Failure} (found : fault target cs = some failure) :
    (∃ area ns, failure = .unnamedController area ns) ∨
      (∃ member identifier ns, failure = .duplicateMember member identifier ns) ∨
      ∃ identifier ns, failure = .duplicateClass identifier ns := by
  rw [fault_eq] at found
  rcases Option.or_eq_some_iff.mp found with early | ⟨_,late⟩
  · rcases earlyFault_kind early with missing | taken
    · exact .inl missing
    · exact .inr (.inl taken)
  · exact .inr (.inr (repeatedClass_kind late))

-- A class repeats exactly where nothing failed before and two placeholders meet.
theorem fault_duplicateClass_iff (rooted : target.root ≠ "") (texts : ∀ c ∈ cs, c.Textual) :
    (∃ identifier ns, fault target cs = some (.duplicateClass identifier ns)) ↔
      Distinguished cs ∧ ¬ PlaceholdersDiffer cs := by
  rw [fault_eq]
  constructor
  · rintro ⟨identifier,ns,found⟩
    rcases Option.or_eq_some_iff.mp found with early | ⟨early,late⟩
    · rcases earlyFault_kind early with ⟨area,inner,other⟩ | ⟨member,name,inner,other⟩
      · cases other
      · cases other
    · have distinguished := (earlyFault_eq_none target texts).mp early
      refine ⟨distinguished,?_⟩
      intro differ
      rw [(plan_distinct_iff rooted texts distinguished.named).mpr differ] at late
      cases late
  · rintro ⟨distinguished,meet⟩
    rw [(earlyFault_eq_none target texts).mpr distinguished,Option.none_or]
    cases late : repeatedClass (plan target cs) with
    | none => exact absurd ((plan_distinct_iff rooted texts distinguished.named).mp late) meet
    | some failure =>
      obtain ⟨identifier,ns,rfl⟩ := repeatedClass_kind late
      exact ⟨identifier,ns,rfl⟩

theorem stages_apart (rooted : target.root ≠ "") (present : target.helpers ≠ "") {ds es : List Controller}
    (texts : ∀ c ∈ cs, c.Textual) (areaTexts : ∀ c ∈ ds, c.Textual) (helpersTexts : ∀ c ∈ es, c.Textual)
    {viewOnly areas : List ClassDef} {helpers : ClassDef} (placed : (placeholderClasses target cs).outcome = .ok viewOnly)
    (made : (areaClasses target ds).outcome = .ok areas) (helped : (helpersClass target es).outcome = .ok helpers) :
    [viewOnly,areas,[helpers],[actionResultClass target.root],[jsonResultClass target.root]].Pairwise Apart := by
  have viewOnlyEqual : (placeholderKeys cs).map (placeholderOf target.root) = viewOnly := by
    cases named : unnamed (cs.filter Controller.isViewOnly) with
    | some failure =>
      rw [placeholderClasses_unnamed target texts named] at placed
      cases placed
    | none =>
      rw [(placeholderClasses_named target texts named).1] at placed
      exact Except.ok.inj placed
  rw [(areaClasses_texts target areaTexts).1] at made
  rw [(helpersClass_plan target present helpersTexts).1] at helped
  obtain ⟨_,rfl⟩ := faultOr_ok_iff.mp made
  obtain ⟨_,rfl⟩ := faultOr_ok_iff.mp helped
  subst viewOnlyEqual
  exact kinds_apart target rooted (placeholderKeys cs) (namedAreas ds) (fun area => inArea area ds) (namedAreas es)
    (inArea "" es)

theorem generate_of_distinguished (target : Target) (rooted : target.root ≠ "") (present : target.helpers ≠ "")
    (texts : ∀ c ∈ cs, c.Textual) (distinguished : Distinguished cs) (differ : PlaceholdersDiffer cs) :
    (generate target cs).outcome = .ok (plan target (cs.map (Controller.prepared target.root))) := by
  rw [generate_outcome target present texts,(fault_eq_none rooted texts).mpr ⟨distinguished,differ⟩,faultOr_none]

-- A generation succeeds exactly on distinguished controllers whose placeholders differ, and it fails for a missing
-- name, a repeated member or a repeated class only; the last one needs two placeholders, since no other classes meet.
theorem generate_accepts_iff {s : Settings} (accepted : s.validate = .ok target) (texts : ∀ c ∈ cs, c.Textual) :
    ((∃ classes, (generate target cs).outcome = .ok classes) ↔ Distinguished cs ∧ PlaceholdersDiffer cs) ∧
    (∀ failure, (generate target cs).outcome = .error failure →
      (∃ area ns, failure = .unnamedController area ns) ∨
      (∃ member identifier ns, failure = .duplicateMember member identifier ns) ∨
      ∃ identifier ns, failure = .duplicateClass identifier ns) ∧
    ((∃ identifier ns, (generate target cs).outcome = .error (.duplicateClass identifier ns)) ↔
      Distinguished cs ∧ ¬ PlaceholdersDiffer cs) ∧
    ∀ ds es viewOnly areas helpers, (∀ c ∈ ds, c.Textual) → (∀ c ∈ es, c.Textual) →
      (placeholderClasses target cs).outcome = .ok viewOnly → (areaClasses target ds).outcome = .ok areas →
      (helpersClass target es).outcome = .ok helpers →
      [viewOnly,areas,[helpers],[actionResultClass target.root],[jsonResultClass target.root]].Pairwise Apart := by
  have rooted := Settings.root_ne_empty accepted
  have present := Settings.helpers_ne_empty accepted
  rw [generate_outcome target present texts]
  refine ⟨?_,?_,?_,?_⟩
  · rw [← fault_eq_none rooted texts]
    simp only [faultOr_ok_iff,exists_and_left,exists_eq',and_true]
  · intro failure failed
    exact fault_kind (faultOr_error_iff.mp failed)
  · rw [← fault_duplicateClass_iff rooted texts]
    simp only [faultOr_error_iff]
  · intro ds es viewOnly areas helpers areaTexts helpersTexts placed made helped
    exact stages_apart rooted present texts areaTexts helpersTexts placed made helped

-- Two view-only controllers that keep to all the rules but one: the second one is named like the placeholder of the
-- first one.
def meeting : List Controller :=
  [.ofTexts "Home" none "Shop" none,.ofTexts "ShopArea_Home" none "" none]

theorem meeting_textual : ∀ c ∈ meeting, c.Textual := by
  simp [meeting,Controller.textual_ofTexts]

theorem generate_accepts_iff_meeting :
    Settings.default.validate = .ok ⟨"R4Mvc","MVC"⟩ ∧ Distinguished meeting ∧ ¬ PlaceholdersDiffer meeting ∧
      ∃ identifier ns, (generate ⟨"R4Mvc","MVC"⟩ meeting).outcome = .error (.duplicateClass identifier ns) := by
  have accepted := Settings.default_accepted
  have distinguished : Distinguished meeting := by
    constructor <;> simp [meeting,Controller.ofTexts]
  have meet : ¬ PlaceholdersDiffer meeting := by
    intro differ
    have same := differ (.ofTexts "Home" none "Shop" none) (by simp [meeting])
      (.ofTexts "ShopArea_Home" none "" none) (by simp [meeting]) rfl rfl "ShopArea_HomeController" rfl rfl
    exact absurd (Prod.mk.inj same).1 (by simp [Controller.ofTexts])
  obtain ⟨_,_,repeats,_⟩ := generate_accepts_iff accepted meeting_textual
  exact ⟨accepted,distinguished,meet,repeats.mpr ⟨distinguished,meet⟩⟩

end TypedMvc.Generation
