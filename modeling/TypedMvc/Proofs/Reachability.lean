import Mathlib.Data.List.Forall2
import TypedMvc.Proofs.Success

namespace TypedMvc.Generation

open CSharp Synthesis

variable {target : Target} {cs : List Controller}

theorem generate_clear (present : target.helpers ≠ "") (texts : ∀ c ∈ cs, c.Textual) {classes : List ClassDef}
    (succeeded : (generate target cs).outcome = .ok classes) :
    fault target cs = none ∧ classes = plan target (cs.map (Controller.prepared target.root)) := by
  rw [generate_outcome target present texts] at succeeded
  obtain ⟨clear,equal⟩ := faultOr_ok_iff.mp succeeded
  exact ⟨clear,equal.symm⟩

theorem firstAt_currentType (root area name : String) {ds : List Controller} (texts : ∀ c ∈ cs, c.Textual)
    (otherTexts : ∀ d ∈ ds, d.Textual)
    (same : ds.map (Controller.settled root) = cs.map (Controller.settled root)) :
    (firstAt area name ds).map (Controller.currentType root) =
      (firstAt area name cs).map (Controller.currentType root) := by
  have shown : ∀ l : List Controller, (∀ c ∈ l, c.Textual) →
      (firstAt area name (l.map (Controller.settled root))).map (Controller.currentType root) =
        (firstAt area name l).map (Controller.currentType root) := by
    intro l texts
    rw [firstAt_map (Controller.keeps_settled root),Option.map_map]
    cases found : firstAt area name l with
    | none => rfl
    | some c => exact congrArg some ((texts c (List.mem_of_find?_eq_some found)).currentType_settled root)
  rw [← shown ds otherTexts,same,shown cs texts]

theorem firstAt_final (present : target.helpers ≠ "") (texts : ∀ c ∈ cs, c.Textual) (clear : fault target cs = none)
    {area name : String} {d : Controller}
    (found : firstAt area name (written (generate target cs).trace cs) = some d) :
    d.generatedName =
      .str (typeOf target.root (inArea area (cs.map (Controller.prepared target.root))) name) := by
  have preparedTexts := prepared_texts target.root texts
  obtain ⟨areasOutcome,areasFill,areasComplete⟩ := areaClasses_texts target preparedTexts
  have middleTexts := written_texts (areaClasses target (cs.map (Controller.prepared target.root))).trace preparedTexts
  obtain ⟨helpersOutcome,helpersFill,helpersComplete⟩ := helpersClass_plan target present middleTexts
  have finalTexts := written_texts (helpersClass target (written
    (areaClasses target (cs.map (Controller.prepared target.root))).trace
    (cs.map (Controller.prepared target.root)))).trace middleTexts
  have sameHelpers := (helpers_settled target preparedTexts middleTexts areasFill.settled).2
  have parts := clear
  rw [← fault_map (Controller.keeps_prepared target.root)] at parts
  obtain ⟨viewOnly,areasClear,helpersClear,_⟩ := fault_parts parts
  rw [← sameHelpers] at helpersClear
  have named : unnamed (cs.filter Controller.isViewOnly) = none := by
    rwa [filter_map_kept _ (Controller.keeps_prepared target.root).isViewOnly,
      unnamed_map (Controller.keeps_prepared target.root)] at viewOnly
  rw [generate_written target texts named areasClear] at found
  have dTexts : d.Textual := finalTexts d (List.mem_of_find?_eq_some found)
  -- the last stage fills in the root area; the one before it fills in every other area, which is kept then
  have given : d.generatedName.truthy = true := by
    by_cases root : area = ""
    · subst root
      exact firstAt_filled helpersFill (helpersComplete helpersClear) found
    · refine firstAt_kept helpersFill ?_ found
      intro c before
      have here : c.area.text = area ∧ c.name.text = name := by simpa using List.find?_some before
      have areas : ∃ c ∈ cs.map (Controller.prepared target.root), c.area.text = area := by
        have kept := written_ignored (areaClasses target (cs.map (Controller.prepared target.root))).trace
          (fun c => c.area.text) (fun _ _ => rfl) (cs.map (Controller.prepared target.root))
        have member := List.mem_map_of_mem (f := fun c : Controller => c.area.text) (List.mem_of_find?_eq_some before)
        rw [kept] at member
        obtain ⟨e,inside,equal⟩ := List.mem_map.mp member
        exact ⟨e,inside,equal.trans here.1⟩
      exact firstAt_filled areasFill (areasComplete areasClear area (mem_namedAreas.mpr ⟨root,areas⟩)) before
  have types := firstAt_currentType target.root area name preparedTexts finalTexts
    (helpersFill.settled.trans areasFill.settled)
  rw [found,Option.map_some] at types
  rw [typeOf_inArea,← types,Option.getD_some,Controller.currentType,if_pos given]
  exact dTexts.generatedName_eq given

-- The classes of areas are those of the root namespace with their ending.
def isAreaClass (root : String) (c : ClassDef) : Bool :=
  c.ns == root && "AreaClass".toList.isSuffixOf c.identifier.toList

theorem isAreaClass_letter {root : String} {c : ClassDef} (found : isAreaClass root c = true) :
    lastLetter c.identifier = some 's' := by
  simp only [isAreaClass,Bool.and_eq_true,List.isSuffixOf_iff_suffix] at found
  obtain ⟨front,equal⟩ := found.2
  rw [lastLetter,← equal]
  simp

theorem not_isAreaClass {c : ClassDef} {letter : Char} (last : lastLetter c.identifier = some letter)
    (different : letter ≠ 's') (root : String) : isAreaClass root c = false := by
  rw [Bool.eq_false_iff]
  intro found
  rw [isAreaClass_letter found] at last
  exact different (Option.some.inj last).symm

theorem isAreaClass_areaClassOf (root area : String) (group : List Controller) :
    isAreaClass root (areaClassOf root area group) = true := by
  simp [isAreaClass,areaClassOf,marked,Controller.areaClassName]

theorem plan_areaClasses (rooted : target.root ≠ "") (cs : List Controller) :
    (plan target cs).filter (isAreaClass target.root) = areaPlan target.root cs := by
  have placeholders : ((placeholderKeys cs).map (placeholderOf target.root)).filter (isAreaClass target.root) = [] := by
    refine List.filter_eq_nil_iff.mpr ?_
    intro c member
    obtain ⟨key,_,rfl⟩ := List.mem_map.mp member
    have last : lastLetter (placeholderOf target.root key).identifier = some 'r' :=
      Controller.lastLetter_placeholderName key.area key.name
    rw [not_isAreaClass last (by decide) target.root]
    exact Bool.false_ne_true
  have areas : (areaPlan target.root cs).filter (isAreaClass target.root) = areaPlan target.root cs := by
    refine List.filter_eq_self.mpr ?_
    intro c member
    obtain ⟨area,_,rfl⟩ := List.mem_map.mp member
    exact isAreaClass_areaClassOf target.root area (inArea area cs)
  have helpers : isAreaClass target.root (helpersOf target (namedAreas cs) (inArea "" cs)) = false := by
    simp [isAreaClass,helpersOf,marked,rooted.symm]
  have action := not_isAreaClass (lastLetter_actionResult target.root) (by decide) target.root
  have json := not_isAreaClass (lastLetter_jsonResult target.root) (by decide) target.root
  simp [plan,wrappers,placeholders,areas,helpers,action,json]

theorem plan_helpers (rooted : target.root ≠ "") (cs : List Controller) :
    (plan target cs).filter (fun c => c.ns == "") = [helpersOf target (namedAreas cs) (inArea "" cs)] := by
  have away : ∀ c : ClassDef, c.ns = target.root → (c.ns == "") = false := by
    intro c inside
    rw [inside]
    simpa using rooted
  have placeholders : ((placeholderKeys cs).map (placeholderOf target.root)).filter (fun c => c.ns == "") = [] := by
    refine List.filter_eq_nil_iff.mpr ?_
    intro c member
    obtain ⟨key,_,rfl⟩ := List.mem_map.mp member
    simp [away (placeholderOf target.root key) rfl]
  have areas : (areaPlan target.root cs).filter (fun c => c.ns == "") = [] := by
    refine List.filter_eq_nil_iff.mpr ?_
    intro c member
    obtain ⟨area,_,rfl⟩ := List.mem_map.mp member
    simp [away (areaClassOf target.root area (inArea area cs)) rfl]
  have helpers : ((helpersOf target (namedAreas cs) (inArea "" cs)).ns == "") = true := rfl
  have action := away (actionResultClass target.root) rfl
  have json := away (jsonResultClass target.root) rfl
  simp [plan,wrappers,placeholders,areas,helpers,action,json]

def FirstCalled (cs final : List Controller) (area name type : String) : Prop :=
  ∃ before c after, cs = before ++ c :: after ∧ c.area = .str area ∧ c.name = .str name ∧
    (∀ d ∈ before, d.area = .str area → d.name ≠ .str name) ∧
    (final[before.length]?).map (fun d => d.generatedName) = some (.str type)

theorem firstCalled_of_final {trace : List Event} {area name type : String} (texts : ∀ c ∈ cs, c.Textual)
    (present : ∃ c ∈ cs, c.area = .str area ∧ c.name = .str name)
    (called : ∀ d, firstAt area name (written trace cs) = some d → d.generatedName = .str type) :
    FirstCalled cs (written trace cs) area name type := by
  have fits : ∀ c ∈ cs, (c.area.text = area ∧ c.name.text = name ↔ c.area = .str area ∧ c.name = .str name) := by
    intro c member
    rw [(texts c member).area_eq_iff,(texts c member).name_eq_iff]
  cases found : firstAt area name cs with
  | none =>
    obtain ⟨c,member,fit⟩ := present
    have missing := List.find?_eq_none.mp found c member
    simp only [decide_eq_true_eq] at missing
    exact absurd ((fits c member).mpr fit) missing
  | some c =>
    obtain ⟨here,before,after,rfl,earlier⟩ := List.find?_eq_some_iff_append.mp found
    simp only [decide_eq_true_eq] at here
    -- areas and names are kept, so the list after the run comes apart where the list before it does
    have kept := written_ignored trace (fun c => (c.area.text,c.name.text)) (fun _ _ => rfl) (before ++ c :: after)
    rw [List.map_append,List.map_cons] at kept
    obtain ⟨front,rest,split,frontKept,restKept⟩ := List.map_eq_append_iff.mp kept
    obtain ⟨d,back,restSplit,dKept,_⟩ := List.map_eq_cons_iff.mp restKept
    subst restSplit
    have sameLength : front.length = before.length := by simpa using congrArg List.length frontKept
    have first : firstAt area name (written trace (before ++ c :: after)) = some d := by
      rw [split,firstAt]
      refine List.find?_eq_some_iff_append.mpr ⟨?_,front,back,rfl,?_⟩
      · obtain ⟨areas,names⟩ := Prod.mk.inj dKept
        simpa [areas,names] using here
      · intro e member
        have keys : (e.area.text,e.name.text) ∈ before.map fun c => (c.area.text,c.name.text) := by
          rw [← frontKept]
          exact List.mem_map_of_mem member
        obtain ⟨b,inBefore,equal⟩ := List.mem_map.mp keys
        obtain ⟨areas,names⟩ := Prod.mk.inj equal
        simpa [areas,names] using earlier b inBefore
    have place : (written trace (before ++ c :: after))[before.length]? = some d := by
      rw [split,← sameLength]
      simp
    obtain ⟨inArea,named⟩ := (fits c (by simp)).mp here
    refine ⟨before,c,after,rfl,inArea,named,?_,by rw [place,Option.map_some,called d first]⟩
    intro b inBefore areas names
    have other := earlier b inBefore
    simp only [Bool.not_eq_true',decide_eq_false_iff_not] at other
    exact other ((fits b (by simp [inBefore])).mpr ⟨areas,names⟩)

def freshField (name type : String) (modifiers : List Modifier) : Member :=
  .fieldOf (.str name) (.str type) modifiers (some ("new " ++ type ++ "()"))

-- The classes lead to the controllers, each area and each name in it once and in order, and to nothing else. The
-- controllers are given as they went into the run and as they came out of it.
structure NavigatesBy (target : Target) (cs final : List Controller) (classes : List ClassDef) (areas : List String)
    (names : String → List String) (types : String → String → String) : Prop where
  areas_ascending : areas.Pairwise (· < ·)
  mem_areas : ∀ area, area ∈ areas ↔ area ≠ "" ∧ ∃ c ∈ cs, c.area = .str area
  names_ascending : ∀ area, (names area).Pairwise (· < ·)
  mem_names : ∀ area name, name ∈ names area ↔ ∃ c ∈ cs, c.area = .str area ∧ c.name = .str name
  names_free : ∀ area ∈ areas, "Name" ∉ names area
  helpers_distinct : (areas ++ names "").Nodup
  areaClasses : List.Forall₂ (fun area made => made.ns = target.root ∧ made.identifier = area ++ "AreaClass" ∧
      made.members = .fieldOf (.str "Name") (.str "string") [.publicAccess,.readOnly] (some (stringLiteral area)) ::
        (names area).map fun name => freshField name (types area name) [.publicAccess,.readOnly])
    areas (classes.filter (isAreaClass target.root))
  helpersClass : ∃ made, (classes.filter fun c => c.ns == "") = [made] ∧ made.identifier = target.helpers ∧
    made.members =
      areas.map (fun area => freshField area (target.root ++ "." ++ (area ++ "AreaClass"))
        [.publicAccess,.readOnly,.static]) ++
      (names "").map fun name => freshField name (types "" name) [.publicAccess,.readOnly,.static]
  types_called : ∀ area, ∀ name ∈ names area, FirstCalled cs final area name (types area name)

theorem namesOf_inArea (texts : ∀ c ∈ cs, c.Textual) {area name : String} :
    name ∈ namesOf (inArea area cs) ↔ ∃ c ∈ cs, c.area = .str area ∧ c.name = .str name := by
  rw [mem_namesOf]
  constructor
  · rintro ⟨c,there,equal⟩
    obtain ⟨member,here⟩ := mem_inArea.mp there
    exact ⟨c,member,((texts c member).area_eq_iff area).mpr here,((texts c member).name_eq_iff name).mpr equal⟩
  · rintro ⟨c,member,here,equal⟩
    exact ⟨c,mem_inArea.mpr ⟨member,((texts c member).area_eq_iff area).mp here⟩,
      ((texts c member).name_eq_iff name).mp equal⟩

-- Every controller can be reached in one way: the field of its area, if it has one, and the field of its name there.
theorem generate_navigates {s : Settings} (accepted : s.validate = .ok target) (texts : ∀ c ∈ cs, c.Textual)
    {classes : List ClassDef} (succeeded : (generate target cs).outcome = .ok classes) :
    ∃ areas names types,
      NavigatesBy target cs (written (generate target cs).trace cs) classes areas names types := by
  have rooted := Settings.root_ne_empty accepted
  have present := Settings.helpers_ne_empty accepted
  have keeps := Controller.keeps_prepared target.root
  obtain ⟨clear,rfl⟩ := generate_clear present texts succeeded
  have early : earlyFault target cs = none := (Option.or_eq_none_iff.mp ((fault_eq target cs).symm.trans clear)).1
  have distinguished := (earlyFault_eq_none target texts).mp early
  refine ⟨namedAreas cs,fun area => namesOf (inArea area cs),
    fun area name => typeOf target.root (inArea area (cs.map (Controller.prepared target.root))) name,?_⟩
  exact {
    areas_ascending := ascending_lt _
    mem_areas := by
      intro area
      rw [mem_namedAreas]
      refine and_congr_right fun _ => exists_congr fun c => and_congr_right fun member => ?_
      exact ((texts c member).area_eq_iff area).symm
    names_ascending := fun area => ascending_lt _
    mem_names := fun area name => namesOf_inArea texts
    names_free := by
      intro area present taken
      obtain ⟨given,_⟩ := mem_namedAreas.mp present
      obtain ⟨c,member,here,equal⟩ := (namesOf_inArea texts).mp taken
      refine distinguished.nameFree c member ?_ equal
      rw [here]
      simpa using given
    helpers_distinct := by
      have clearHelpers := (Option.or_eq_none_iff.mp (Option.or_eq_none_iff.mp early).2).2
      exact repeatedMember_eq_none.mp (Option.or_eq_none_iff.mp clearHelpers).2
    areaClasses := by
      rw [plan_areaClasses rooted,areaPlan,namedAreas_map keeps,List.forall₂_map_right_iff,List.forall₂_same]
      intro area _
      refine ⟨rfl,rfl,?_⟩
      rw [inArea_map keeps]
      simp only [areaClassOf,marked,namesOf_map keeps]
      rfl
    helpersClass := by
      refine ⟨_,plan_helpers rooted _,rfl,?_⟩
      rw [namedAreas_map keeps,inArea_map keeps]
      simp only [helpersOf,marked,namesOf_map keeps]
      rfl
    types_called := by
      intro area name among
      exact firstCalled_of_final texts ((namesOf_inArea texts).mp among) fun d found =>
        firstAt_final present texts clear found
  }

-- Two controllers of one area share a name; the one that comes first is view-only.
def storefront : List Controller :=
  [.ofTexts "Home" (some "Shop.Controllers") "" (some "Shop.HomeController"),.ofTexts "Cart" none "Shop" none,
    .ofTexts "Cart" (some "Shop.Carts") "Shop" none]

theorem storefront_textual : ∀ c ∈ storefront, c.Textual := by
  simp [storefront,Controller.textual_ofTexts]

theorem generate_navigates_storefront :
    Settings.default.validate = .ok ⟨"R4Mvc","MVC"⟩ ∧
    ∃ classes areas names types, (generate ⟨"R4Mvc","MVC"⟩ storefront).outcome = .ok classes ∧
      NavigatesBy ⟨"R4Mvc","MVC"⟩ storefront (written (generate ⟨"R4Mvc","MVC"⟩ storefront).trace storefront)
        classes areas names types := by
  have accepted := Settings.default_accepted
  have distinguished : Distinguished storefront := by
    constructor <;> simp [storefront,Controller.ofTexts]
  have differ : PlaceholdersDiffer storefront := by
    simp [PlaceholdersDiffer,storefront,Controller.ofTexts,Controller.isViewOnly]
  have succeeded := generate_of_distinguished ⟨"R4Mvc","MVC"⟩ (by decide) (by decide) storefront_textual
    distinguished differ
  obtain ⟨areas,names,types,navigates⟩ := generate_navigates accepted storefront_textual succeeded
  exact ⟨accepted,_,areas,names,types,succeeded,navigates⟩

end TypedMvc.Generation
