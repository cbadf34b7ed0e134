import TypedMvc.Proofs.Reachability

namespace TypedMvc

open CSharp Synthesis

variable {target : Target} {cs ds : List Controller}

-- The type that a generation shows for a controller: whatever a view-only one was called before, it resolves its name,
-- and another one does so if it has no generated name.
def Controller.generatedType (root : String) (c : Controller) : Except Failure Value :=
  if c.isViewOnly then (c.resolve (.str root)).map .str else c.existingOrResolved (.str root)

theorem Controller.Textual.generatedType_named {c : Controller} (texts : c.Textual) (named : c.name ≠ .str "")
    (root : String) : c.generatedType root = .ok (.str ((c.prepared root).currentType root)) := by
  have present : c.name.truthy = true := texts.named_iff.mpr named
  cases viewOnly : c.isViewOnly with
  | true =>
    rw [generatedType,if_pos viewOnly,texts.resolve_named present root,prepared_viewOnly viewOnly,currentType,
      if_pos (Generation.renamed_truthy root c)]
    rfl
  | false =>
    rw [generatedType,viewOnly,prepared_backed viewOnly,← texts.existingOrResolved_named present root]
    rfl

namespace Generation

section Occurs

variable (occurs : ∀ c, c ∈ cs ↔ c ∈ ds)

include occurs

theorem namedAreas_occurs : namedAreas cs = namedAreas ds := by
  refine ascending_congr ?_
  intro area
  simp only [List.mem_filter,List.mem_map,occurs]

theorem placeholderKeys_occurs : placeholderKeys cs = placeholderKeys ds := by
  refine ascending_congr ?_
  intro key
  simp only [List.mem_map,List.mem_filter,occurs]

theorem namesOf_occurs (area : String) : namesOf (inArea area cs) = namesOf (inArea area ds) := by
  refine ascending_congr ?_
  intro name
  simp only [List.mem_map,mem_inArea,occurs]

theorem fault_occurs (texts : ∀ c ∈ cs, c.Textual) (named : ∀ c ∈ cs, c.name ≠ .str "") :
    fault target cs = fault target ds := by
  have allNamed : ∀ c ∈ cs, c.name.truthy = true := fun c member => (texts c member).named_iff.mpr (named c member)
  have noneMissing : ∀ group : List Controller, (∀ c ∈ group, c ∈ cs) → unnamed group = none :=
    fun group inside => unnamed_eq_none.mpr fun c member => allNamed c (inside c member)
  have left : ∀ area, unnamed (inArea area cs) = none :=
    fun area => noneMissing _ fun c member => (mem_inArea.mp member).1
  have right : ∀ area, unnamed (inArea area ds) = none :=
    fun area => noneMissing _ fun c member => (occurs c).mpr (mem_inArea.mp member).1
  have viewOnly : unnamed (cs.filter Controller.isViewOnly) = unnamed (ds.filter Controller.isViewOnly) := by
    rw [noneMissing _ fun c member => (List.mem_filter.mp member).1,
      noneMissing _ fun c member => (occurs c).mpr (List.mem_filter.mp member).1]
  have areas : areasFault target.root cs = areasFault target.root ds := by
    simp only [areasFault,areaFault,namedAreas_occurs occurs,left,right,namesOf_occurs occurs]
  have helpers : helpersFault target (namedAreas cs) (inArea "" cs) =
      helpersFault target (namedAreas ds) (inArea "" ds) := by
    simp only [helpersFault,namedAreas_occurs occurs,left,right,namesOf_occurs occurs]
  have classes : repeatedClass (plan target cs) = repeatedClass (plan target ds) := by
    rw [repeatedClass,repeatedClass,plan_keys,plan_keys,placeholderKeys_occurs occurs,namedAreas_occurs occurs]
  rw [fault,fault,viewOnly,areas,helpers,classes]

theorem plan_occurs
    (types : ∀ area name, typeOf target.root (inArea area cs) name = typeOf target.root (inArea area ds) name) :
    plan target cs = plan target ds := by
  have handles : ∀ area isStatic, (namesOf (inArea area cs)).map (handle target.root isStatic (inArea area cs)) =
      (namesOf (inArea area ds)).map (handle target.root isStatic (inArea area ds)) := by
    intro area isStatic
    rw [namesOf_occurs occurs]
    refine List.map_congr_left ?_
    intro name _
    rw [handle,types area name]
    rfl
  have areas : areaPlan target.root cs = areaPlan target.root ds := by
    simp only [areaPlan,areaClassOf,namedAreas_occurs occurs,handles]
  have helpers : helpersOf target (namedAreas cs) (inArea "" cs) = helpersOf target (namedAreas ds) (inArea "" ds) := by
    simp only [helpersOf,namedAreas_occurs occurs,handles]
  rw [plan,plan,placeholderKeys_occurs occurs,areas,helpers]

end Occurs

theorem firstAt_generatedType (root area name : String) (texts : ∀ c ∈ cs, c.Textual) (named : ∀ c ∈ cs, c.name ≠ .str "") :
    (firstAt area name cs).map (Controller.generatedType root) =
      (firstAt area name (cs.map (Controller.prepared root))).map fun c => .ok (.str (c.currentType root)) := by
  rw [firstAt_map (Controller.keeps_prepared root),Option.map_map]
  cases found : firstAt area name cs with
  | none => rfl
  | some c =>
    have member := List.mem_of_find?_eq_some found
    exact congrArg some ((texts c member).generatedType_named (named c member) root)

-- A generation gives the same classes, the same text or the same failure for each order of its controllers, as long as
-- the first controllers of every area and name have the same type.
theorem generate_perm {s : Settings} (accepted : s.validate = .ok target) (perm : cs.Perm ds)
    (texts : ∀ c ∈ cs, c.Textual) (named : ∀ c ∈ cs, c.name ≠ .str "")
    (sameTypes : ∀ area name, (firstAt area name cs).map (Controller.generatedType target.root) =
      (firstAt area name ds).map (Controller.generatedType target.root)) :
    (generate target cs).outcome = (generate target ds).outcome ∧
      ∀ layout, (source target layout cs).outcome = (source target layout ds).outcome := by
  have present := Settings.helpers_ne_empty accepted
  have occurs : ∀ c, c ∈ cs ↔ c ∈ ds := fun _ => perm.mem_iff
  have otherTexts : ∀ c ∈ ds, c.Textual := fun c member => texts c ((occurs c).mpr member)
  have otherNamed : ∀ c ∈ ds, c.name ≠ .str "" := fun c member => named c ((occurs c).mpr member)
  have preparedOccurs : ∀ c, c ∈ cs.map (Controller.prepared target.root) ↔ c ∈ ds.map (Controller.prepared target.root) :=
    fun _ => (perm.map _).mem_iff
  have types : ∀ area name, typeOf target.root (inArea area (cs.map (Controller.prepared target.root))) name =
      typeOf target.root (inArea area (ds.map (Controller.prepared target.root))) name := by
    intro area name
    have same := sameTypes area name
    rw [firstAt_generatedType target.root area name texts named,firstAt_generatedType target.root area name otherTexts otherNamed]
      at same
    rw [typeOf_inArea,typeOf_inArea]
    congr 1
    refine Option.map_injective (f := fun type : String => (.ok (.str type) : Except Failure Value)) ?_ ?_
    · intro a b equal
      simpa using equal
    · simpa only [Option.map_map,Function.comp_def] using same
  have outcomes : (generate target cs).outcome = (generate target ds).outcome := by
    rw [generate_outcome target present texts,generate_outcome target present otherTexts,
      fault_occurs occurs texts named,plan_occurs preparedOccurs types]
  refine ⟨outcomes,?_⟩
  intro layout
  rw [source_outcome,source_outcome,outcomes]

def homeThenCart : List Controller :=
  [.ofTexts "Home" (some "Shop.Controllers") "" (some "Shop.HomeController"),.ofTexts "Cart" none "Shop" none]

theorem generate_perm_homeThenCart :
    Settings.default.validate = .ok ⟨"R4Mvc","MVC"⟩ ∧ homeThenCart ≠ homeThenCart.reverse ∧
      (generate ⟨"R4Mvc","MVC"⟩ homeThenCart).outcome = (generate ⟨"R4Mvc","MVC"⟩ homeThenCart.reverse).outcome := by
  have accepted := Settings.default_accepted
  have texts : ∀ c ∈ homeThenCart, c.Textual := by
    simp [homeThenCart,Controller.textual_ofTexts]
  have named : ∀ c ∈ homeThenCart, c.name ≠ .str "" := by
    simp [homeThenCart,Controller.ofTexts]
  have sameFirst : ∀ area name, firstAt area name homeThenCart = firstAt area name homeThenCart.reverse := by
    intro area name
    by_cases root : area = ""
    · simp [firstAt,homeThenCart,Controller.ofTexts,List.find?_cons,root]
    · simp [firstAt,homeThenCart,Controller.ofTexts,List.find?_cons,Ne.symm root]
  have different : homeThenCart ≠ homeThenCart.reverse := by
    simp [homeThenCart,Controller.ofTexts]
  refine ⟨accepted,different,?_⟩
  exact (generate_perm accepted (List.reverse_perm homeThenCart).symm texts named fun area name => by
    rw [sameFirst area name]).1

def ownType (root : String) (c : Controller) : Except Failure Value :=
  if c.isViewOnly then (c.resolve (.str root)).map .str else .ok c.generatedName

def unlabelled (ns : String) : Controller := .ofTexts "A" (some ns) "" (some "")

theorem unlabelled_textual (ns other : String) : ∀ c ∈ [unlabelled ns,unlabelled other], c.Textual := by
  simp [unlabelled,Controller.textual_ofTexts]

theorem firstAt_unlabelled (ns other area name : String) :
    firstAt area name [unlabelled ns,unlabelled other] =
      if "" = area ∧ "A" = name then some (unlabelled ns) else none := by
  have fits : ∀ n, ((unlabelled n).area.text = area ∧ (unlabelled n).name.text = name) = ("" = area ∧ "A" = name) :=
    fun _ => rfl
  rw [firstAt,List.find?_cons,List.find?_cons]
  by_cases here : "" = area ∧ "A" = name
  · simp only [fits,decide_eq_true here,if_pos here]
  · simp only [fits,decide_eq_false here,if_neg here,List.find?_nil]

theorem typeOf_unlabelled {ns : String} (given : ns ≠ "") (other : String) :
    typeOf "R4Mvc" (inArea "" ([unlabelled ns,unlabelled other].map (Controller.prepared "R4Mvc"))) "A" =
      "R4Mvc" ++ "." ++ ns ++ "." ++ Controller.className "A" := by
  rw [typeOf_inArea,firstAt_map (Controller.keeps_prepared "R4Mvc"),firstAt_unlabelled]
  simp [Controller.prepared,Controller.currentType,Controller.resolvedName,Controller.isViewOnly,unlabelled,
    Controller.ofTexts,given]

theorem generate_unlabelled {ns other : String} (given : ns ≠ "") (otherGiven : other ≠ "") :
    (generate ⟨"R4Mvc","MVC"⟩ [unlabelled ns,unlabelled other]).outcome =
      .ok (plan ⟨"R4Mvc","MVC"⟩ ([unlabelled ns,unlabelled other].map (Controller.prepared "R4Mvc"))) := by
  have distinguished : Distinguished [unlabelled ns,unlabelled other] := by
    constructor <;> simp [unlabelled,Controller.ofTexts]
  have differ : PlaceholdersDiffer [unlabelled ns,unlabelled other] := by
    simp [PlaceholdersDiffer,unlabelled,Controller.ofTexts,Controller.isViewOnly,given,otherGiven]
  exact generate_of_distinguished _ (by decide) (by decide) (unlabelled_textual ns other) distinguished differ

theorem typeOf_of_plan (rooted : target.root ≠ "") (occurs : ∀ c, c ∈ cs ↔ c ∈ ds)
    (equal : plan target cs = plan target ds) {name : String} (among : name ∈ namesOf (inArea "" cs)) :
    typeOf target.root (inArea "" cs) name = typeOf target.root (inArea "" ds) name := by
  have helpers := congrArg (List.filter fun c => c.ns == "") equal
  rw [plan_helpers rooted,plan_helpers rooted,namedAreas_occurs occurs] at helpers
  have members := congrArg ClassDef.members (List.singleton_inj.mp helpers)
  have handles : (namesOf (inArea "" cs)).map (handle target.root true (inArea "" cs)) =
      (namesOf (inArea "" ds)).map (handle target.root true (inArea "" ds)) := List.append_cancel_left members
  rw [← namesOf_occurs occurs] at handles
  have field := List.map_inj_left.mp handles name among
  simpa [handle,instanceField,Member.fieldOf] using field

-- Two controllers with empty generated names resolve them, so the first one decides although both are called the same.
theorem generate_depends_on_unlabelled :
    Settings.default.validate = .ok ⟨"R4Mvc","MVC"⟩ ∧
    [unlabelled "X",unlabelled "Y"].Perm [unlabelled "Y",unlabelled "X"] ∧
    (∀ c ∈ [unlabelled "X",unlabelled "Y"], c.Textual) ∧ (∀ c ∈ [unlabelled "X",unlabelled "Y"], c.name ≠ .str "") ∧
    (∀ area name, (firstAt area name [unlabelled "X",unlabelled "Y"]).map (ownType "R4Mvc") =
      (firstAt area name [unlabelled "Y",unlabelled "X"]).map (ownType "R4Mvc")) ∧
    (generate ⟨"R4Mvc","MVC"⟩ [unlabelled "X",unlabelled "Y"]).outcome ≠
      (generate ⟨"R4Mvc","MVC"⟩ [unlabelled "Y",unlabelled "X"]).outcome := by
  have perm : [unlabelled "X",unlabelled "Y"].Perm [unlabelled "Y",unlabelled "X"] := List.Perm.swap _ _ _
  refine ⟨Settings.default_accepted,perm,unlabelled_textual "X" "Y",?_,?_,?_⟩
  · simp [unlabelled,Controller.ofTexts]
  · intro area name
    rw [firstAt_unlabelled,firstAt_unlabelled]
    by_cases here : "" = area ∧ "A" = name
    · rw [if_pos here,if_pos here]
      rfl
    · rw [if_neg here,if_neg here]
  · intro equal
    rw [generate_unlabelled (by decide) (by decide),generate_unlabelled (by decide) (by decide)] at equal
    have among : "A" ∈ namesOf (inArea "" ([unlabelled "X",unlabelled "Y"].map (Controller.prepared "R4Mvc"))) := by
      refine mem_namesOf.mpr ⟨_,mem_inArea.mpr ⟨List.mem_cons_self,?_⟩,?_⟩ <;> rfl
    have types := typeOf_of_plan (by decide) (fun _ => (perm.map _).mem_iff) (Except.ok.inj equal) among
    rw [typeOf_unlabelled (by decide),typeOf_unlabelled (by decide)] at types
    exact absurd types (by decide)

end Generation
end TypedMvc
