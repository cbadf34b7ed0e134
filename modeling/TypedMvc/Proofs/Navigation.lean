import TypedMvc.Generation
import TypedMvc.Proofs.Grouping
import TypedMvc.Proofs.Writing

namespace TypedMvc.Synthesis

open CSharp

def namesOf (group : List Controller) : List String := ascending (group.map fun c => c.name.text)

theorem mem_namesOf {group : List Controller} {name : String} :
    name ∈ namesOf group ↔ ∃ c ∈ group, c.name.text = name := by
  rw [namesOf,mem_ascending,List.mem_map]

-- The type of the first controller of a name.
def typeOf (root : String) (group : List Controller) (name : String) : String :=
  ((group.find? fun c => decide (c.name.text = name)).map (Controller.currentType root)).getD ""

def handle (root : String) (isStatic : Bool) (group : List Controller) (name : String) : Member :=
  instanceField (.str name) (.str (typeOf root group name)) isStatic

def unnamed (group : List Controller) : Option Failure :=
  (group.find? fun c => !c.name.truthy).map fun c => .unnamedController c.area c.ns

def areaClassOf (root area : String) (group : List Controller) : ClassDef :=
  marked (Controller.areaClassName area) root [.publicAccess,.partialClass]
    (textMember "Name" area :: (namesOf group).map (handle root false group))

def areaFault (root area : String) (group : List Controller) : Option Failure :=
  (unnamed group).or (repeatedMember (Controller.areaClassName area) root [] ("Name" :: namesOf group))

def helpersOf (target : Target) (areas : List String) (group : List Controller) : ClassDef :=
  marked target.helpers "" [.publicAccess,.static,.partialClass]
    (areas.map (fun area => areaField target.root (.str area)) ++ (namesOf group).map (handle target.root true group))

def helpersFault (target : Target) (areas : List String) (group : List Controller) : Option Failure :=
  (unnamed group).or (repeatedMember target.helpers "" [] (areas ++ namesOf group))

theorem areaFault_named {root area : String} {group : List Controller} (clear : areaFault root area group = none) :
    unnamed group = none := (Option.or_eq_none_iff.mp clear).1

theorem unnamed_eq_none {group : List Controller} :
    unnamed group = none ↔ ∀ c ∈ group, c.name.truthy = true := by
  simp [unnamed]

theorem areaClassName_ne_empty (area : String) : Controller.areaClassName area ≠ "" := by
  intro empty
  have shown := congrArg String.toList empty
  simp [Controller.areaClassName] at shown

theorem filterMap_name (names : List String) (made : String → Member)
    (each : ∀ name, (made name).name? = some (.str name)) :
    (names.map made).filterMap Member.name? = names.map .str := by
  rw [List.filterMap_map,← List.filterMap_eq_map (f := Value.str)]
  refine List.filterMap_congr ?_
  intro name _
  exact each name

-- What is written for controllers that have no generated name.
def fills (root : String) (l : List (Controller × Nat)) : List (Nat × String) :=
  (l.filter fun p => !p.1.generatedName.truthy).map fun p => (p.2,p.1.resolvedName root)

theorem mem_fills {root : String} {l : List (Controller × Nat)} {entry : Nat × String} :
    entry ∈ fills root l ↔
      ∃ p ∈ l, p.1.generatedName.truthy = false ∧ entry = (p.2,p.1.resolvedName root) := by
  unfold fills
  rw [List.mem_map]
  constructor
  · rintro ⟨p,member,rfl⟩
    obtain ⟨present,empty⟩ := List.mem_filter.mp member
    exact ⟨p,present,by simpa using empty,rfl⟩
  · rintro ⟨p,present,empty,rfl⟩
    exact ⟨p,List.mem_filter.mpr ⟨present,by simpa using empty⟩,rfl⟩

variable {l : List (Controller × Nat)}

theorem instanceFields_texts (root : String) (isStatic : Bool) (texts : ∀ p ∈ l, p.1.Textual)
    (named : ∀ p ∈ l, p.1.name.truthy = true) :
    (instanceFields root isStatic l).outcome =
      .ok (l.map fun p => instanceField (.str p.1.name.text) (.str (p.1.currentType root)) isStatic) ∧
    namings (instanceFields root isStatic l).trace = fills root l := by
  induction l with
  | nil => exact ⟨rfl,rfl⟩
  | cons p rest ih =>
    obtain ⟨outcome,names⟩ := ih (fun q member => texts q (List.mem_cons_of_mem _ member))
      (fun q member => named q (List.mem_cons_of_mem _ member))
    have pTexts := texts p List.mem_cons_self
    have pNamed := named p List.mem_cons_self
    have field : instanceFieldOf root isStatic p =
        ⟨.ok (instanceField (.str p.1.name.text) (.str (p.1.currentType root)) isStatic),
          if p.1.generatedName.truthy then [] else [.named p.2 (p.1.resolvedName root)]⟩ := by
      rw [instanceFieldOf,pTexts.resolve_named pNamed root,Controller.currentType]
      cases given : p.1.generatedName.truthy with
      | true =>
        simp only [if_true]
        rw [← pTexts.generatedName_eq given,← pTexts.name_eq]
        rfl
      | false =>
        rw [← pTexts.name_eq]
        rfl
    rw [instanceFields,field,Run.bind_of_ok _ rfl,Run.bind_of_ok _ outcome]
    refine ⟨rfl,?_⟩
    cases given : p.1.generatedName.truthy <;> simp [fills,given,names]

theorem handles_firstsByName (root : String) (isStatic : Bool) (l : List (Controller × Nat)) :
    (firstsByName (·.1) l).map
        (fun p => instanceField (.str p.1.name.text) (.str (p.1.currentType root)) isStatic) =
      (namesOf (l.map (·.1))).map (handle root isStatic (l.map (·.1))) := by
  have names : (l.map (·.1)).map (fun c : Controller => c.name.text) = l.map fun p => p.1.name.text := by
    rw [List.map_map]
    rfl
  rw [namesOf,names]
  refine map_firstsByName _ _ ?_
  intro name p found
  have equal : p.1.name.text = name := by simpa using List.find?_some found
  have first : (l.map (·.1)).find? (fun c : Controller => decide (c.name.text = name)) = some p.1 := by
    rw [List.find?_map]
    exact congrArg (Option.map Prod.fst) found
  rw [handle,typeOf,first,equal]
  rfl

theorem firstsByName_subset {p : Controller × Nat} (member : p ∈ firstsByName (·.1) l) : p ∈ l :=
  List.mem_of_find?_eq_some (mem_firstsByName.mp member)

-- Choosing by name in a group, and the fields of those chosen: a missing name is the only fault.
theorem chosen_texts (texts : ∀ p ∈ l, p.1.Textual) :
    (∃ failure, unnamed (l.map (·.1)) = some failure ∧ uniqueByName (·.1) l = .error failure) ∨
      unnamed (l.map (·.1)) = none ∧ uniqueByName (·.1) l = .ok (firstsByName (·.1) l) ∧
        ∀ root isStatic,
          (instanceFields root isStatic (firstsByName (·.1) l)).outcome =
            .ok ((namesOf (l.map (·.1))).map (handle root isStatic (l.map (·.1)))) ∧
          namings (instanceFields root isStatic (firstsByName (·.1) l)).trace =
            fills root (firstsByName (·.1) l) := by
  have shifted : (l.map (·.1)).find? (fun c : Controller => !c.name.truthy) =
      (l.find? fun p => !p.1.name.truthy).map (·.1) := List.find?_map
  cases found : l.find? (fun p => !p.1.name.truthy) with
  | some p =>
    refine .inl ⟨_,?_,uniqueByName_unnamed found texts⟩
    rw [unnamed,shifted,found]
    rfl
  | none =>
    have named : ∀ p ∈ l, p.1.name.truthy = true := by simpa using found
    have texted : ∀ p ∈ l, p.1.name = .str p.1.name.text := fun p member => (texts p member).name_eq
    refine .inr ⟨by rw [unnamed,shifted,found]; rfl,uniqueByName_named texted named,?_⟩
    intro root isStatic
    have fields := instanceFields_texts root isStatic (l := firstsByName (·.1) l)
      (fun p member => texts p (firstsByName_subset member)) (fun p member => named p (firstsByName_subset member))
    rwa [handles_firstsByName] at fields

theorem areaClass_texts (root area : String) (texts : ∀ p ∈ l, p.1.Textual) :
    (areaClass root (.str area) l).outcome =
      faultOr (areaFault root area (l.map (·.1))) (areaClassOf root area (l.map (·.1))) ∧
    (∀ entry ∈ namings (areaClass root (.str area) l).trace,
      unnamed (l.map (·.1)) = none ∧ entry ∈ fills root (firstsByName (·.1) l)) ∧
    (unnamed (l.map (·.1)) = none →
      namings (areaClass root (.str area) l).trace = fills root (firstsByName (·.1) l)) := by
  rcases chosen_texts texts with ⟨failure,fault,ran⟩ | ⟨fault,ran,fields⟩
  · rw [areaClass,ran,Run.settled_error_bind,areaFault,fault]
    exact ⟨rfl,by simp,nofun⟩
  · obtain ⟨outcome,names⟩ := fields root false
    have made := markedClass_texts (textMember "Name" area :: (namesOf (l.map (·.1))).map (handle root false (l.map (·.1))))
      ("Name" :: namesOf (l.map (·.1)))
      (by rw [List.filterMap_cons_some (textMember_name _ _),filterMap_name _ _ fun _ => rfl,List.map_cons])
      (areaClassName_ne_empty area) root [.publicAccess,.partialClass]
    rw [areaClass,ran,Run.settled_ok_bind,textField_str,Run.settled_ok_bind,Run.bind_of_ok _ outcome,Value.text_str,
      areaFault,fault,Option.none_or]
    simp only [made]
    cases repeatedMember (Controller.areaClassName area) root [] ("Name" :: namesOf (l.map (·.1))) with
    | some failure => simp [names]
    | none => simp [names,areaClassOf]

def groupAt (area : String) (l : List (Controller × Nat)) : List (Controller × Nat) :=
  l.filter fun p => decide (p.1.area.text = area)

def inArea (area : String) (controllers : List Controller) : List Controller :=
  controllers.filter fun c => decide (c.area.text = area)

theorem mem_inArea {area : String} {controllers : List Controller} {c : Controller} :
    c ∈ inArea area controllers ↔ c ∈ controllers ∧ c.area.text = area := by
  rw [inArea,List.mem_filter,decide_eq_true_eq]

theorem groupAt_map (area : String) (l : List (Controller × Nat)) :
    (groupAt area l).map (·.1) = inArea area (l.map (·.1)) := by
  rw [inArea,List.filter_map]
  rfl

theorem groupAt_texts (texts : ∀ p ∈ l, p.1.Textual) (area : String) : ∀ p ∈ groupAt area l, p.1.Textual :=
  fun p member => texts p (List.mem_filter.mp member).1

-- The first faulty area ends the stage; what was written for the areas before it stays.
theorem areaClassesFrom_texts (root : String) (texts : ∀ p ∈ l, p.1.Textual) {groups : Grouping}
    (grouped : ∀ area, groupOf (.str area) groups = groupAt area l) (areas : List String) :
    (areaClassesFrom root groups (areas.map .str)).outcome =
      faultOr (areas.findSome? fun area => areaFault root area (inArea area (l.map (·.1))))
        (areas.map fun area => areaClassOf root area (inArea area (l.map (·.1)))) ∧
    (∀ entry ∈ namings (areaClassesFrom root groups (areas.map .str)).trace,
      ∃ area ∈ areas, unnamed (inArea area (l.map (·.1))) = none ∧
        entry ∈ fills root (firstsByName (·.1) (groupAt area l))) ∧
    ((areas.findSome? fun area => areaFault root area (inArea area (l.map (·.1)))) = none →
      ∀ area ∈ areas, ∀ entry ∈ fills root (firstsByName (·.1) (groupAt area l)),
        entry ∈ namings (areaClassesFrom root groups (areas.map .str)).trace) := by
  induction areas with
  | nil => exact ⟨rfl,by simp [areaClassesFrom],by simp⟩
  | cons area rest ih =>
    obtain ⟨outcome,sound,complete⟩ := areaClass_texts root area (groupAt_texts texts area)
    obtain ⟨outcomes,sounds,completes⟩ := ih
    rw [groupAt_map] at outcome sound complete
    rw [List.map_cons,areaClassesFrom,grouped,List.findSome?_cons,List.map_cons]
    cases fault : areaFault root area (inArea area (l.map (·.1))) with
    | some failure =>
      rw [fault,faultOr_some] at outcome
      rw [Run.bind_of_error _ outcome]
      refine ⟨rfl,?_,by simp⟩
      intro entry member
      exact ⟨area,List.mem_cons_self,sound entry member⟩
    | none =>
      rw [fault,faultOr_none] at outcome
      rw [Run.bind_of_ok _ outcome]
      refine ⟨?_,?_,?_⟩
      · simp only [Run.outcome_bind,outcomes]
        cases rest.findSome? fun area => areaFault root area (inArea area (l.map (·.1))) <;> rfl
      · intro entry member
        rw [namings_append,List.mem_append,namings_bind_quiet _ _ fun _ => rfl] at member
        rcases member with first | later
        · exact ⟨area,List.mem_cons_self,sound entry first⟩
        · obtain ⟨other,present,written⟩ := sounds entry later
          exact ⟨other,List.mem_cons_of_mem _ present,written⟩
      · intro clear other present entry written
        rw [namings_append,List.mem_append,namings_bind_quiet _ _ fun _ => rfl]
        rcases List.mem_cons.mp present with rfl | later
        · exact .inl (by rwa [complete (areaFault_named fault)])
        · exact .inr (completes clear other later entry written)

theorem helpersClass_texts (target : Target) (present : target.helpers ≠ "") (texts : ∀ p ∈ l, p.1.Textual)
    {groups : Grouping} (grouped : ∀ area, groupOf (.str area) groups = groupAt area l) {areas : List String}
    (sorted : sortedAreas groups = .ok (areas.map .str)) :
    (helpersClass target groups).outcome =
      faultOr (helpersFault target areas (inArea "" (l.map (·.1)))) (helpersOf target areas (inArea "" (l.map (·.1)))) ∧
    (∀ entry ∈ namings (helpersClass target groups).trace,
      unnamed (inArea "" (l.map (·.1))) = none ∧ entry ∈ fills target.root (firstsByName (·.1) (groupAt "" l))) ∧
    (unnamed (inArea "" (l.map (·.1))) = none →
      namings (helpersClass target groups).trace = fills target.root (firstsByName (·.1) (groupAt "" l))) := by
  rw [← groupAt_map]
  rcases chosen_texts (groupAt_texts texts "") with ⟨failure,fault,ran⟩ | ⟨fault,ran,fields⟩
  · rw [helpersClass,sorted,Run.settled_ok_bind,grouped,ran,Run.settled_error_bind,helpersFault,fault]
    exact ⟨rfl,by simp,nofun⟩
  · obtain ⟨outcome,names⟩ := fields target.root true
    have members : ((areas.map fun area => areaField target.root (.str area)) ++
        (namesOf ((groupAt "" l).map (·.1))).map (handle target.root true ((groupAt "" l).map (·.1)))).filterMap
          Member.name? = (areas ++ namesOf ((groupAt "" l).map (·.1))).map .str := by
      rw [List.filterMap_append,filterMap_name _ _ fun _ => rfl,filterMap_name _ _ fun _ => rfl,List.map_append]
    have made := markedClass_texts _ _ members present "" [.publicAccess,.static,.partialClass]
    rw [helpersClass,sorted,Run.settled_ok_bind,grouped,ran,Run.settled_ok_bind,Run.bind_of_ok _ outcome,List.map_map,
      helpersFault,fault,Option.none_or]
    simp only [Function.comp_def,made]
    cases repeatedMember target.helpers "" [] (areas ++ namesOf ((groupAt "" l).map (·.1))) with
    | some failure => simp [names]
    | none => simp [names,helpersOf]

end TypedMvc.Synthesis
