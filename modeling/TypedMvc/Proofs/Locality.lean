import TypedMvc.Proofs.Reachability

namespace TypedMvc.Generation

open CSharp Synthesis

variable {target : Target} {cs before after : List Controller} {c : Controller}

theorem mem_insert {d : Controller} : d ∈ before ++ c :: after ↔ d = c ∨ d ∈ before ++ after := by
  rw [List.mem_append,List.mem_cons,List.mem_append,or_left_comm]

theorem filter_insert {P : Controller → Bool} (skipped : P c = false) :
    (before ++ c :: after).filter P = (before ++ after).filter P := by
  rw [List.filter_append,List.filter_append,List.filter_cons_of_neg (by simp [skipped])]

theorem inArea_insert {area : String} (elsewhere : c.area.text ≠ area) :
    inArea area (before ++ c :: after) = inArea area (before ++ after) :=
  filter_insert (by simpa using elsewhere)

theorem firstAt_insert {area name : String} (other : ¬(c.area.text = area ∧ c.name.text = name)) :
    firstAt area name (before ++ c :: after) = firstAt area name (before ++ after) := by
  rw [firstAt,firstAt,List.find?_append,List.find?_append,List.find?_cons_of_neg (by simpa using other)]

-- The area and the name of the controller do not occur together in the list.
def Fresh (c : Controller) (cs : List Controller) : Prop := ∀ d ∈ cs, d.key ≠ c.key

theorem Fresh.name (fresh : Fresh c (before ++ after)) : c.name.text ∉ (inArea c.area.text (before ++ after)).map
    fun d => d.name.text := by
  intro taken
  obtain ⟨d,there,names⟩ := List.mem_map.mp taken
  obtain ⟨member,areas⟩ := mem_inArea.mp there
  exact fresh d member (Key.ext areas names)

theorem placeholderKeys_insert (fresh : Fresh c (before ++ after)) (viewOnly : c.isViewOnly = true) :
    Inserted c.key (placeholderKeys (before ++ after)) (placeholderKeys (before ++ c :: after)) := by
  refine ascending_insert ?_ ?_
  · intro taken
    obtain ⟨d,inFilter,equal⟩ := List.mem_map.mp taken
    exact fresh d (List.mem_filter.mp inFilter).1 equal
  · intro key
    rw [List.filter_append,List.filter_append,List.filter_cons_of_pos viewOnly]
    simp only [List.map_append,List.map_cons,List.mem_append,List.mem_cons,or_left_comm]

theorem placeholderKeys_insert_backed (backed : c.isViewOnly = false) :
    placeholderKeys (before ++ c :: after) = placeholderKeys (before ++ after) := by
  rw [placeholderKeys,filter_insert backed,placeholderKeys]

theorem namedAreas_insert (given : c.area.text ≠ "") (fresh : c.area.text ∉ namedAreas (before ++ after)) :
    Inserted c.area.text (namedAreas (before ++ after)) (namedAreas (before ++ c :: after)) := by
  refine ascending_insert (fun taken => fresh (mem_ascending.mpr taken)) ?_
  intro area
  rw [List.map_append,List.map_cons,List.map_append,List.filter_append,List.filter_append,
    List.filter_cons_of_pos (by simpa using given),List.mem_append,List.mem_cons,List.mem_append,or_left_comm]

theorem namedAreas_insert_known (known : c.area.text = "" ∨ c.area.text ∈ namedAreas (before ++ after)) :
    namedAreas (before ++ c :: after) = namedAreas (before ++ after) := by
  refine ascending_unique (ascending_lt _) (ascending_lt _) ?_
  intro area
  rw [mem_namedAreas,mem_namedAreas]
  refine and_congr_right fun given => ?_
  simp only [mem_insert,exists_eq_or_imp]
  refine or_iff_right_of_imp ?_
  rintro rfl
  rcases known with root | present
  · exact absurd root given
  · exact (mem_namedAreas.mp present).2

theorem namesOf_insert (fresh : Fresh c (before ++ after)) :
    Inserted c.name.text (namesOf (inArea c.area.text (before ++ after)))
      (namesOf (inArea c.area.text (before ++ c :: after))) := by
  refine ascending_insert fresh.name ?_
  intro name
  have here : inArea c.area.text (before ++ c :: after) =
      inArea c.area.text before ++ c :: inArea c.area.text after := by
    rw [inArea,List.filter_append,List.filter_cons_of_pos (by simp)]
    rfl
  have rest : inArea c.area.text (before ++ after) = inArea c.area.text before ++ inArea c.area.text after :=
    List.filter_append ..
  rw [here,rest]
  simp only [List.map_append,List.map_cons,List.mem_append,List.mem_cons,or_left_comm]

theorem handles_insert (fresh : Fresh c (before ++ after)) (root : String) (isStatic : Bool) :
    Inserted (handle root isStatic (inArea c.area.text (before ++ c :: after)) c.name.text)
      ((namesOf (inArea c.area.text (before ++ after))).map (handle root isStatic (inArea c.area.text (before ++ after))))
      ((namesOf (inArea c.area.text (before ++ c :: after))).map
        (handle root isStatic (inArea c.area.text (before ++ c :: after)))) := by
  have kept : (namesOf (inArea c.area.text (before ++ after))).map
        (handle root isStatic (inArea c.area.text (before ++ after))) =
      (namesOf (inArea c.area.text (before ++ after))).map
        (handle root isStatic (inArea c.area.text (before ++ c :: after))) := by
    refine List.map_congr_left ?_
    intro name among
    have other : ¬(c.area.text = c.area.text ∧ c.name.text = name) := by
      rintro ⟨_,rfl⟩
      exact fresh.name (mem_ascending.mp among)
    rw [handle,handle,typeOf_inArea,typeOf_inArea,firstAt_insert other]
  rw [kept]
  exact (namesOf_insert fresh).map _

-- The classes of a generation by kind; that of an area is found by the area.
structure Sections where
  viewOnly : List ClassDef
  areas : List String
  ofArea : String → ClassDef
  helpers : ClassDef

def sectionsOf (target : Target) (cs : List Controller) : Sections :=
  ⟨(placeholderKeys cs).map (placeholderOf target.root),namedAreas cs,
    fun area => areaClassOf target.root area (inArea area cs),helpersOf target (namedAreas cs) (inArea "" cs)⟩

structure Sections.Of (target : Target) (cs : List Controller) (classes : List ClassDef) (parts : Sections) : Prop where
  classes : classes = parts.viewOnly ++ parts.areas.map parts.ofArea ++ parts.helpers :: wrappers target.root
  viewOnly : (placeholderClasses target cs).outcome = .ok parts.viewOnly
  ascending : parts.areas.Pairwise (· < ·)
  mem_areas : ∀ area, area ∈ parts.areas ↔ area ≠ "" ∧ ∃ c ∈ cs, c.area = .str area
  ofArea : ∀ area ∈ parts.areas, (parts.ofArea area).ns = target.root ∧ (parts.ofArea area).identifier = area ++ "AreaClass"
  helpers : parts.helpers.ns = "" ∧ parts.helpers.identifier = target.helpers

def FieldAdded (name : Value) (smaller larger : ClassDef) : Prop :=
  ∃ field members, field.name = name ∧ Inserted (.field field) smaller.members members ∧
    larger = { smaller with members }

-- What the controller adds to the classes. Its area is the root area, one that was there, or a new one.
structure Sections.Grow (c : Controller) (smaller larger : Sections) : Prop where
  placeholder : c.isViewOnly = true →
    ∃ made, c.viewOnlyClassName = .ok made.identifier ∧ Inserted made smaller.viewOnly larger.viewOnly
  noPlaceholder : c.isViewOnly = false → larger.viewOnly = smaller.viewOnly
  otherAreas : ∀ area ∈ smaller.areas, c.area ≠ .str area → larger.ofArea area = smaller.ofArea area
  rootArea : c.area = .str "" → larger.areas = smaller.areas ∧ FieldAdded c.name smaller.helpers larger.helpers
  knownArea : ∀ area ∈ smaller.areas, c.area = .str area →
    larger.areas = smaller.areas ∧ FieldAdded c.name (smaller.ofArea area) (larger.ofArea area) ∧
      larger.helpers = smaller.helpers
  newArea : ∀ area, area ≠ "" → area ∉ smaller.areas → c.area = .str area →
    Inserted area smaller.areas larger.areas ∧ FieldAdded c.area smaller.helpers larger.helpers

theorem fieldAdded_marked {field : Field} {members larger : List Member} (inserted : Inserted (.field field) members larger)
    (identifier ns : String) (modifiers : List Modifier) :
    FieldAdded field.name (marked identifier ns modifiers members) (marked identifier ns modifiers larger) :=
  ⟨field,larger,rfl,inserted,rfl⟩

theorem areaClassOf_insert (texts : c.Textual) (fresh : Fresh c (before ++ after)) (root : String) :
    FieldAdded c.name (areaClassOf root c.area.text (inArea c.area.text (before ++ after)))
      (areaClassOf root c.area.text (inArea c.area.text (before ++ c :: after))) := by
  rw [texts.name_eq]
  exact fieldAdded_marked ((handles_insert fresh root false).append_left [textMember "Name" c.area.text]) _ _ _

theorem helpersOf_insert_name (texts : c.Textual) (fresh : Fresh c (before ++ after)) (here : c.area.text = "")
    (target : Target) :
    FieldAdded c.name (helpersOf target (namedAreas (before ++ after)) (inArea "" (before ++ after)))
      (helpersOf target (namedAreas (before ++ c :: after)) (inArea "" (before ++ c :: after))) := by
  have inserted := handles_insert fresh target.root true
  rw [here] at inserted
  rw [texts.name_eq,namedAreas_insert_known (.inl here)]
  exact fieldAdded_marked (inserted.append_left _) _ _ _

theorem helpersOf_insert_area (texts : c.Textual) (given : c.area.text ≠ "")
    (absent : c.area.text ∉ namedAreas (before ++ after)) (target : Target) :
    FieldAdded c.area (helpersOf target (namedAreas (before ++ after)) (inArea "" (before ++ after)))
      (helpersOf target (namedAreas (before ++ c :: after)) (inArea "" (before ++ c :: after))) := by
  have inserted := (namedAreas_insert given absent).map fun area => areaField target.root (.str area)
  rw [texts.area_eq,inArea_insert given]
  exact fieldAdded_marked (inserted.append_right _) _ _ _

theorem sectionsOf_grow (target : Target) (texts : c.Textual) (named : c.name.truthy = true)
    (fresh : Fresh c (before ++ after)) :
    Sections.Grow c (sectionsOf target (before ++ after)) (sectionsOf target (before ++ c :: after)) := by
  exact {
    placeholder := by
      intro viewOnly
      refine ⟨placeholderOf target.root c.key,texts.viewOnlyClassName_named named,?_⟩
      exact (placeholderKeys_insert fresh viewOnly).map _
    noPlaceholder := by
      intro backed
      simp only [sectionsOf,placeholderKeys_insert_backed backed]
    otherAreas := by
      intro area _ elsewhere
      rw [ne_eq,texts.area_eq_iff] at elsewhere
      simp only [sectionsOf,inArea_insert elsewhere]
    rootArea := by
      intro here
      rw [texts.area_eq_iff] at here
      exact ⟨namedAreas_insert_known (.inl here),helpersOf_insert_name texts fresh here target⟩
    knownArea := by
      intro area present here
      rw [texts.area_eq_iff] at here
      subst here
      have same := namedAreas_insert_known (.inr present)
      refine ⟨same,areaClassOf_insert texts fresh target.root,?_⟩
      simp only [sectionsOf,same,inArea_insert (mem_namedAreas.mp present).1]
    newArea := by
      intro area given absent here
      rw [texts.area_eq_iff] at here
      subst here
      exact ⟨namedAreas_insert given absent,helpersOf_insert_area texts given absent target⟩
  }

theorem sectionsOf_of {s : Settings} (accepted : s.validate = .ok target) (texts : ∀ c ∈ cs, c.Textual)
    {classes : List ClassDef} (succeeded : (generate target cs).outcome = .ok classes) :
    Sections.Of target cs classes (sectionsOf target (cs.map (Controller.prepared target.root))) := by
  have keeps := Controller.keeps_prepared target.root
  obtain ⟨clear,rfl⟩ := generate_clear (Settings.helpers_ne_empty accepted) texts succeeded
  have named : unnamed (cs.filter Controller.isViewOnly) = none := (fault_parts clear).1
  exact {
    classes := rfl
    viewOnly := by
      rw [(placeholderClasses_named target texts named).1,sectionsOf,placeholderKeys_map keeps]
    ascending := ascending_lt _
    mem_areas := by
      intro area
      rw [sectionsOf,namedAreas_map keeps,mem_namedAreas]
      refine and_congr_right fun _ => exists_congr fun c => and_congr_right fun member => ?_
      exact ((texts c member).area_eq_iff area).symm
    ofArea := fun _ _ => ⟨rfl,rfl⟩
    helpers := ⟨rfl,rfl⟩
  }

theorem Sections.Grow.of_prepared {root : String} {smaller larger : Sections}
    (grow : Sections.Grow (c.prepared root) smaller larger) : Sections.Grow c smaller larger := by
  have identifier : (c.prepared root).viewOnlyClassName = c.viewOnlyClassName := by
    unfold Controller.prepared
    split <;> rfl
  obtain ⟨placeholder,noPlaceholder,otherAreas,rootArea,knownArea,newArea⟩ := grow
  rw [identifier] at placeholder
  simp only [Controller.prepared_isViewOnly,Controller.prepared_area,Controller.prepared_name] at *
  exact ⟨placeholder,noPlaceholder,otherAreas,rootArea,knownArea,newArea⟩

-- Two generations whose controllers differ by one that brings a new area and name: their classes differ by what stands
-- for it, whatever place it has among the others.
theorem generate_grows {s : Settings} (accepted : s.validate = .ok target)
    (texts : ∀ d ∈ before ++ c :: after, d.Textual) (fresh : ∀ d ∈ before ++ after, (d.area,d.name) ≠ (c.area,c.name))
    {classes larger : List ClassDef} (succeeded : (generate target (before ++ after)).outcome = .ok classes)
    (extended : (generate target (before ++ c :: after)).outcome = .ok larger) :
    ∃ parts more, Sections.Of target (before ++ after) classes parts ∧
      Sections.Of target (before ++ c :: after) larger more ∧ Sections.Grow c parts more := by
  have cTexts : c.Textual := texts c (mem_insert.mpr (.inl rfl))
  have otherTexts : ∀ d ∈ before ++ after, d.Textual := fun d member => texts d (mem_insert.mpr (.inr member))
  have named : c.name.truthy = true := by
    obtain ⟨clear,_⟩ := generate_clear (Settings.helpers_ne_empty accepted) texts extended
    obtain ⟨distinguished,_⟩ := (fault_eq_none (Settings.root_ne_empty accepted) texts).mp clear
    exact cTexts.named_iff.mpr (distinguished.named c (mem_insert.mpr (.inl rfl)))
  have preparedFresh : Fresh (c.prepared target.root)
      (before.map (Controller.prepared target.root) ++ after.map (Controller.prepared target.root)) := by
    intro e member equal
    rw [← List.map_append] at member
    obtain ⟨d,present,rfl⟩ := List.mem_map.mp member
    have values := congrArg Key.values equal
    rw [((otherTexts d present).prepared target.root).key_values,(cTexts.prepared target.root).key_values] at values
    simp only [Controller.prepared_area,Controller.prepared_name] at values
    exact fresh d present values
  have small := sectionsOf_of accepted otherTexts succeeded
  have large := sectionsOf_of accepted texts extended
  rw [List.map_append] at small
  rw [List.map_append,List.map_cons] at large
  have grow := sectionsOf_grow target (cTexts.prepared target.root) (by simpa using named) preparedFresh
  exact ⟨_,_,small,large,grow.of_prepared⟩

def users : Controller := .ofTexts "Users" none "Admin" none

def home : List Controller := [.ofTexts "Home" (some "Shop.Controllers") "" (some "Shop.HomeController")]

def cart : Controller := .ofTexts "Cart" none "Shop" none

def carts : List Controller := [cart,.ofTexts "Cart" (some "Shop.Carts") "Shop" none]

theorem generate_grows_users :
    Settings.default.validate = .ok ⟨"R4Mvc","MVC"⟩ ∧ (∀ d ∈ home ++ users :: carts, d.Textual) ∧
    (∀ d ∈ home ++ carts, (d.area,d.name) ≠ (users.area,users.name)) ∧
    ∃ classes larger, (generate ⟨"R4Mvc","MVC"⟩ (home ++ carts)).outcome = .ok classes ∧
      (generate ⟨"R4Mvc","MVC"⟩ (home ++ users :: carts)).outcome = .ok larger ∧
      ∃ parts more, Sections.Of ⟨"R4Mvc","MVC"⟩ (home ++ carts) classes parts ∧
        Sections.Of ⟨"R4Mvc","MVC"⟩ (home ++ users :: carts) larger more ∧ Sections.Grow users parts more := by
  have texts : ∀ d ∈ home ++ users :: carts, d.Textual := by
    simp [home,users,cart,carts,Controller.textual_ofTexts]
  have fresh : ∀ d ∈ home ++ carts, (d.area,d.name) ≠ (users.area,users.name) := by
    simp [home,users,cart,carts,Controller.ofTexts]
  have distinguished : Distinguished (home ++ users :: carts) := by
    constructor <;> simp [home,users,cart,carts,Controller.ofTexts]
  have differ : PlaceholdersDiffer (home ++ users :: carts) := by
    have usersName : users.viewOnlyClassName = .ok "AdminArea_UsersController" := rfl
    have cartName : cart.viewOnlyClassName = .ok "ShopArea_CartController" := rfl
    have two : ∀ d ∈ home ++ users :: carts, d.isViewOnly = true → d = users ∨ d = cart := by
      simp [home,carts,Controller.ofTexts,Controller.isViewOnly]
    intro d member e other viewOnly alsoViewOnly identifier called alsoCalled
    rcases two d member viewOnly with rfl | rfl <;> rcases two e other alsoViewOnly with rfl | rfl
    · rfl
    · rw [usersName,← alsoCalled,cartName] at called
      simp at called
    · rw [cartName,← alsoCalled,usersName] at called
      simp at called
    · rfl
  have extended := generate_of_distinguished ⟨"R4Mvc","MVC"⟩ (by decide) (by decide) texts distinguished differ
  have without : ∀ d ∈ home ++ carts, d ∈ home ++ users :: carts := fun d member => mem_insert.mpr (.inr member)
  have succeeded := generate_of_distinguished ⟨"R4Mvc","MVC"⟩ (by decide) (by decide)
    (fun d member => texts d (without d member))
    ⟨fun d member => distinguished.named d (without d member),fun d member => distinguished.nameFree d (without d member),
      fun d member away e other => distinguished.areasFree d (without d member) away e (without e other)⟩
    fun d member e other => differ d (without d member) e (without e other)
  exact ⟨Settings.default_accepted,texts,fresh,_,_,succeeded,extended,
    generate_grows Settings.default_accepted texts fresh succeeded extended⟩

end TypedMvc.Generation
