import TypedMvc.Proofs.Coverage
import TypedMvc.Proofs.Reachability

namespace TypedMvc

open CSharp Synthesis

def OnlyOne (P : α → Prop) (l : List α) (a : α) : Prop :=
  ∃ before after, l = before ++ a :: after ∧ P a ∧ ∀ b ∈ before ++ after, ¬P b

theorem OnlyOne.eq {P : α → Prop} {l : List α} {a b : α} (only : OnlyOne P l a) (member : b ∈ l) (holds : P b) :
    b = a := by
  obtain ⟨before,after,rfl,_,others⟩ := only
  by_contra different
  have other : b ∈ before ++ after := by simpa [different] using member
  exact others b other holds

-- Where keys tell the elements apart, the property only has to tell the key.
theorem onlyOne_of_nodup {P : α → Prop} {l : List α} {a : α} (key : α → κ) (distinct : (l.map key).Nodup)
    (member : a ∈ l) (holds : P a) (tells : ∀ b ∈ l, P b → key b = key a) : OnlyOne P l a := by
  obtain ⟨before,after,rfl⟩ := List.append_of_mem member
  rw [List.map_append,List.map_cons,List.nodup_middle,List.nodup_cons,← List.map_append] at distinct
  refine ⟨before,after,rfl,holds,?_⟩
  intro b other again
  have inside : b ∈ before ++ a :: after := by
    rcases List.mem_append.mp other with front | back
    · exact List.mem_append_left _ front
    · exact List.mem_append_right _ (List.mem_cons_of_mem a back)
  exact distinct.1 (List.mem_map.mpr ⟨b,other,tells b inside again⟩)

def CSharp.ClassDef.fullName (c : ClassDef) : String := c.ns ++ "." ++ c.identifier

theorem Controller.currentType_prepared {c : Controller} (free : c.isViewOnly = true ∨ c.generatedName.truthy = false)
    (root : String) : (c.prepared root).currentType root = c.resolvedName root := by
  cases viewOnly : c.isViewOnly with
  | true =>
    rw [prepared_viewOnly viewOnly,currentType,if_pos (Generation.renamed_truthy root c)]
    rfl
  | false =>
    rw [viewOnly] at free
    have empty : c.generatedName.truthy = false := free.resolve_left (by simp)
    rw [prepared_backed viewOnly,currentType,empty]
    rfl

-- A full name in a namespace that starts with a word is not one in the global namespace.
theorem fullName_key {root : String} (headed : root.toList.head? ≠ some '.') (rooted : root ≠ "") {c d : ClassDef}
    (inside : c.ns = root) (either : d.ns = root ∨ d.ns = "") (equal : d.fullName = c.fullName) : d.key = c.key := by
  have shown := congrArg String.toList equal
  simp only [ClassDef.fullName,inside,String.toList_append] at shown
  rcases either with same | global
  · rw [same] at shown
    have identifiers := String.toList_inj.mp (List.append_cancel_left shown)
    rw [ClassDef.key,ClassDef.key,same,inside,identifiers]
  · have letters : root.toList ≠ [] := by simpa using rooted
    rw [global] at shown
    have heads := congrArg List.head? shown
    obtain ⟨first,rest,split⟩ := List.exists_cons_of_ne_nil letters
    rw [split] at heads headed
    exact absurd (by simpa using heads.symm) headed

namespace Generation

variable {target : Target} {cs : List Controller}

theorem plan_ns {d : ClassDef} (member : d ∈ plan target cs) : d.ns = target.root ∨ d.ns = "" := by
  have key := List.mem_map_of_mem (f := ClassDef.key) member
  rw [plan_keys] at key
  simp only [wrappers,List.map_cons,List.map_nil,List.mem_append,List.mem_cons,List.mem_map,List.not_mem_nil,
    or_false] at key
  rcases key with (⟨_,_,equal⟩ | ⟨_,_,equal⟩) | equal | equal | equal
  · exact .inl (congrArg Prod.fst equal).symm
  · exact .inl (congrArg Prod.fst equal).symm
  · exact .inr (congrArg Prod.fst equal)
  · exact .inl (congrArg Prod.fst equal)
  · exact .inl (congrArg Prod.fst equal)

def placeOf (target : Target) (area : String) : String × String :=
  if area = "" then ("",target.helpers) else (target.root,area ++ "AreaClass")

def holderOf (target : Target) (cs : List Controller) (area : String) : ClassDef :=
  if area = "" then helpersOf target (namedAreas cs) (inArea "" cs)
  else areaClassOf target.root area (inArea area cs)

def newField (name type : String) (isStatic : Bool) : Field :=
  ⟨.str name,.str type,Modifier.ordered ([.publicAccess,.readOnly] ++ if isStatic then [.static] else []),
    some ("new " ++ type ++ "()")⟩

def fieldFor (root : String) (isStatic : Bool) (group : List Controller) (name : String) : Field :=
  newField name (typeOf root group name) isStatic

theorem fields_of_members {c : ClassDef} {fields : List Field} (members : c.members = fields.map .field) :
    c.fields = fields := by
  rw [ClassDef.fields,members,List.filterMap_map]
  exact List.filterMap_some

theorem fields_helpersOf (target : Target) (areas : List String) (group : List Controller) :
    (helpersOf target areas group).fields =
      areas.map (fun area => newField area (target.root ++ "." ++ (area ++ "AreaClass")) true) ++
        (namesOf group).map (fieldFor target.root true group) := by
  refine fields_of_members ?_
  rw [List.map_append,List.map_map,List.map_map]
  rfl

theorem fields_areaClassOf (root area : String) (group : List Controller) :
    ∃ label, label.name = .str "Name" ∧
      (areaClassOf root area group).fields = label :: (namesOf group).map (fieldFor root false group) := by
  refine ⟨⟨.str "Name",.str "string",Modifier.ordered [.publicAccess,.readOnly],some (stringLiteral area)⟩,rfl,
    fields_of_members ?_⟩
  rw [List.map_cons,List.map_map]
  rfl

theorem holderOf_key (target : Target) (cs : List Controller) (area : String) :
    (holderOf target cs area).key = placeOf target area := by
  unfold holderOf placeOf
  split <;> rfl

theorem holderOf_mem {area : String} (occurs : area = "" ∨ area ∈ namedAreas cs) :
    holderOf target cs area ∈ plan target cs := by
  unfold holderOf plan
  rcases occurs with rfl | present
  · rw [if_pos rfl]
    exact List.mem_append_right _ List.mem_cons_self
  · rw [if_neg (mem_namedAreas.mp present).1]
    exact List.mem_append_left _ (List.mem_append_right _ (List.mem_map_of_mem present))

theorem fieldFor_mem {area name : String} (among : name ∈ namesOf (inArea area cs)) :
    fieldFor target.root (decide (area = "")) (inArea area cs) name ∈ (holderOf target cs area).fields := by
  by_cases root : area = ""
  · subst root
    rw [holderOf,if_pos rfl,fields_helpersOf]
    exact List.mem_append_right _ (List.mem_map_of_mem among)
  · obtain ⟨label,_,fields⟩ := fields_areaClassOf target.root area (inArea area cs)
    rw [holderOf,if_neg root,fields,decide_eq_false root]
    exact List.mem_cons_of_mem label (List.mem_map_of_mem among)

theorem areaField_mem {area : String} (present : area ∈ namedAreas cs) :
    newField area (target.root ++ "." ++ (area ++ "AreaClass")) true ∈ (holderOf target cs "").fields := by
  rw [holderOf,if_pos rfl,fields_helpersOf]
  exact List.mem_append_left _ (List.mem_map_of_mem present)

theorem areaClassOf_mem {area : String} (present : area ∈ namedAreas cs) :
    areaClassOf target.root area (inArea area cs) ∈ plan target cs := by
  have planned : holderOf target cs area ∈ plan target cs := holderOf_mem (.inr present)
  rwa [holderOf,if_neg (mem_namedAreas.mp present).1] at planned

theorem str_injective : Function.Injective Value.str := fun _ _ equal => Value.str.inj equal

theorem helpersFields_nodup (clear : fault target cs = none) :
    (namedAreas cs ++ namesOf (inArea "" cs)).Nodup := by
  obtain ⟨_,_,helpers,_⟩ := fault_parts clear
  exact repeatedMember_eq_none.mp (Option.or_eq_none_iff.mp helpers).2

theorem areaFields_nodup (clear : fault target cs = none) {area : String} (present : area ∈ namedAreas cs) :
    ("Name" :: namesOf (inArea area cs)).Nodup := by
  obtain ⟨_,areas,_,_⟩ := fault_parts clear
  have here := List.findSome?_eq_none_iff.mp areas area present
  exact repeatedMember_eq_none.mp (Option.or_eq_none_iff.mp here).2

theorem holderOf_nodup (clear : fault target cs = none) {area : String} (occurs : area = "" ∨ area ∈ namedAreas cs) :
    ((holderOf target cs area).fields.map Field.name).Nodup := by
  rcases occurs with rfl | present
  · have names : (holderOf target cs "").fields.map Field.name = (namedAreas cs ++ namesOf (inArea "" cs)).map .str := by
      rw [holderOf,if_pos rfl,fields_helpersOf,List.map_append,List.map_map,List.map_map,List.map_append]
      rfl
    rw [names]
    exact (helpersFields_nodup clear).map str_injective
  · obtain ⟨label,labelled,fields⟩ := fields_areaClassOf target.root area (inArea area cs)
    have names : (holderOf target cs area).fields.map Field.name = ("Name" :: namesOf (inArea area cs)).map .str := by
      rw [holderOf,if_neg (mem_namedAreas.mp present).1,fields,List.map_cons,List.map_cons,List.map_map,labelled]
      rfl
    rw [names]
    exact (areaFields_nodup clear present).map str_injective

-- One class stands at the place, one field of it has the name, and one class, which is as wanted, is the field's type.
def Points (classes : List ClassDef) (place : String × String) (name : String) (Wanted : ClassDef → Prop) : Prop :=
  ∃ holder field made, OnlyOne (fun c => c.key = place) classes holder ∧
    OnlyOne (fun f => f.name = .str name) holder.fields field ∧
    OnlyOne (fun c => field.type = .str c.fullName) classes made ∧ Wanted made

-- The field is for a controller of the root area with a namespace, which had a generated name before.
def NamedBefore (cs : List Controller) (f : Field) : Prop :=
  ∃ name c, f.name = .str name ∧ firstAt "" name cs = some c ∧ c.isViewOnly = false ∧ c.generatedName.truthy = true

-- No reference is left open, and no class of an area is left alone. A generated name that was there before can be any
-- text, also the full name of such a class.
structure References (target : Target) (cs : List Controller) (classes : List ClassDef) : Prop where
  areas : ∀ c ∈ cs, ∀ area, area ≠ "" → c.area = .str area →
    Points classes (placeOf target "") area fun made => made.key = placeOf target area
  viewOnly : ∀ area name c, firstAt area name cs = some c → c.isViewOnly = true →
    Points classes (placeOf target area) name (StandsFor target.root (toLex (area,name)))
  areaClasses : ∀ made ∈ classes, isAreaClass target.root made = true →
    ∃ area holder field, area ≠ "" ∧ made.key = placeOf target area ∧
      OnlyOne (fun c => c.key = placeOf target "") classes holder ∧
      OnlyOne (fun f => f.type = .str made.fullName ∧ ¬NamedBefore cs f) holder.fields field ∧ field.name = .str area

theorem plan_nodup (clear : fault target cs = none) : ((plan target cs).map ClassDef.key).Nodup := by
  obtain ⟨_,_,_,classes⟩ := fault_parts clear
  exact repeatedClass_eq_none.mp classes

theorem holderOf_onlyOne (clear : fault target cs = none) {area : String} (occurs : area = "" ∨ area ∈ namedAreas cs) :
    OnlyOne (fun c => c.key = placeOf target area) (plan target cs) (holderOf target cs area) := by
  refine onlyOne_of_nodup ClassDef.key (plan_nodup clear) (holderOf_mem occurs) (holderOf_key target cs area) ?_
  intro other _ there
  rw [there,holderOf_key]

-- A field whose type is the full name of a class in the root namespace refers to this class and no other.
theorem points_of_field (headed : target.root.toList.head? ≠ some '.') (rooted : target.root ≠ "")
    (clear : fault target cs = none) {area : String} (occurs : area = "" ∨ area ∈ namedAreas cs) {field : Field}
    (among : field ∈ (holderOf target cs area).fields) {made : ClassDef} (planned : made ∈ plan target cs)
    (inside : made.ns = target.root) (typed : field.type = .str made.fullName) {name : String}
    (named : field.name = .str name) {Wanted : ClassDef → Prop} (wanted : Wanted made) :
    Points (plan target cs) (placeOf target area) name Wanted := by
  refine ⟨holderOf target cs area,field,made,holderOf_onlyOne clear occurs,?_,?_,wanted⟩
  · refine onlyOne_of_nodup Field.name (holderOf_nodup clear occurs) among named ?_
    intro other _ same
    rw [same,named]
  · refine onlyOne_of_nodup ClassDef.key (plan_nodup clear) planned typed ?_
    intro other present refers
    rw [typed,Value.str.injEq] at refers
    exact fullName_key headed rooted inside (plan_ns present) refers.symm

theorem typeOf_prepared {area name : String} {c : Controller} (first : firstAt area name cs = some c) (root : String) :
    typeOf root (inArea area (cs.map (Controller.prepared root))) name = (c.prepared root).currentType root := by
  rw [typeOf_inArea,firstAt_map (Controller.keeps_prepared root),first]
  rfl

theorem firstAt_mem {area name : String} {c : Controller} (first : firstAt area name cs = some c) :
    c ∈ cs ∧ c.area.text = area ∧ c.name.text = name :=
  ⟨List.mem_of_find?_eq_some first,by simpa using List.find?_some first⟩

theorem firstAt_isSome {area name : String} (among : name ∈ namesOf (inArea area cs)) :
    ∃ c, firstAt area name cs = some c := by
  obtain ⟨c,there,named⟩ := mem_namesOf.mp among
  obtain ⟨member,here⟩ := mem_inArea.mp there
  refine Option.isSome_iff_exists.mp (List.find?_isSome.mpr ⟨c,member,?_⟩)
  simp [here,named]

-- A field with the type of an area's class is the field of the area, unless the type was there before.
theorem helpersField_area {area : String} {f : Field}
    (among : f ∈ (holderOf target (cs.map (Controller.prepared target.root)) "").fields)
    (typed : f.type = .str (target.root ++ "." ++ (area ++ "AreaClass"))) (before : ¬NamedBefore cs f) :
    f.name = .str area := by
  have keeps := Controller.keeps_prepared target.root
  rw [holderOf,if_pos rfl,fields_helpersOf,List.mem_append,List.mem_map,List.mem_map] at among
  rcases among with ⟨other,_,rfl⟩ | ⟨name,among,rfl⟩
  · have same := congrArg String.toList (Value.str.inj typed)
    simp only [String.toList_append] at same
    have areas := List.append_cancel_right (List.append_cancel_left same)
    exact congrArg Value.str (String.toList_inj.mp areas)
  · rw [inArea_map keeps,namesOf_map keeps] at among
    obtain ⟨c,first⟩ := firstAt_isSome among
    have free : c.isViewOnly = true ∨ c.generatedName.truthy = false := by
      by_contra given
      rw [not_or,Bool.not_eq_true,Bool.not_eq_false] at given
      exact before ⟨name,c,rfl,first,given⟩
    have last : lastLetter (area ++ "AreaClass") = some 's' := Controller.lastLetter_areaClassName area
    have letters := congrArg lastLetter (Value.str.inj typed)
    rw [typeOf_prepared first,Controller.currentType_prepared free,Controller.lastLetter_resolvedName,
      lastLetter_append _ last] at letters
    exact absurd letters (by decide)

theorem points_viewOnly (headed : target.root.toList.head? ≠ some '.') (rooted : target.root ≠ "")
    (clear : fault target (cs.map (Controller.prepared target.root)) = none) (texts : ∀ c ∈ cs, c.Textual)
    {area name : String} {c : Controller} (first : firstAt area name cs = some c) (viewOnly : c.isViewOnly = true) :
    Points (plan target (cs.map (Controller.prepared target.root))) (placeOf target area) name
      (StandsFor target.root (toLex (area,name))) := by
  have keeps := Controller.keeps_prepared target.root
  obtain ⟨member,here,called⟩ := firstAt_mem first
  have given : name ≠ "" := by
    have named := (fault_parts clear).1
    rw [filter_map_kept _ keeps.isViewOnly,unnamed_map keeps,unnamed_viewOnly_eq_none texts] at named
    have own := named c member viewOnly
    rwa [ne_eq,(texts c member).name_eq_iff,called] at own
  have among : name ∈ namesOf (inArea area (cs.map (Controller.prepared target.root))) := by
    rw [inArea_map keeps,namesOf_map keeps]
    exact mem_namesOf.mpr ⟨c,mem_inArea.mpr ⟨member,here⟩,called⟩
  have occurs : area = "" ∨ area ∈ namedAreas (cs.map (Controller.prepared target.root)) := by
    rw [namedAreas_map keeps]
    by_cases root : area = ""
    · exact .inl root
    · exact .inr (mem_namedAreas.mpr ⟨root,c,member,here⟩)
  have planned : placeholderOf target.root (toLex (area,name)) ∈
      plan target (cs.map (Controller.prepared target.root)) := by
    have keys : toLex (area,name) ∈ placeholderKeys cs :=
      mem_placeholderKeys.mpr ⟨c,member,viewOnly,Key.ext here called⟩
    rw [plan,placeholderKeys_map keeps]
    exact List.mem_append_left _ (List.mem_append_left _ (List.mem_map_of_mem keys))
  have typed : typeOf target.root (inArea area (cs.map (Controller.prepared target.root))) name =
      (placeholderOf target.root (toLex (area,name))).fullName := by
    rw [typeOf_prepared first,Controller.currentType_prepared (.inl viewOnly),Controller.resolvedName,if_pos viewOnly,
      here,called]
    rfl
  exact points_of_field headed rooted clear occurs (fieldFor_mem among) planned rfl (congrArg Value.str typed) rfl
    (placeholderOf_standsFor target.root given)

-- An area has no name of a controller of the root area, so its field was not there before in another's name.
theorem areaField_onlyOne (clear : fault target (cs.map (Controller.prepared target.root)) = none) {area : String}
    (present : area ∈ namedAreas cs) :
    OnlyOne (fun f => f.type = .str (target.root ++ "." ++ (area ++ "AreaClass")) ∧ ¬NamedBefore cs f)
      (holderOf target (cs.map (Controller.prepared target.root)) "").fields
      (newField area (target.root ++ "." ++ (area ++ "AreaClass")) true) := by
  have keeps := Controller.keeps_prepared target.root
  have there : area ∈ namedAreas (cs.map (Controller.prepared target.root)) := by rwa [namedAreas_map keeps]
  refine onlyOne_of_nodup Field.name (holderOf_nodup clear (.inl rfl)) (areaField_mem there) ⟨rfl,?_⟩ ?_
  · rintro ⟨name,c,shown,first,_⟩
    obtain ⟨member,here,called⟩ := firstAt_mem first
    have same : area = name := Value.str.inj shown
    have distinct := helpersFields_nodup clear
    rw [namedAreas_map keeps,inArea_map keeps,namesOf_map keeps] at distinct
    refine (List.nodup_append.mp distinct).2.2 area present name ?_ same
    exact mem_namesOf.mpr ⟨c,mem_inArea.mpr ⟨member,here⟩,called⟩
  · rintro other among ⟨typed,before⟩
    exact helpersField_area among typed before

theorem generate_references {s : Settings} (accepted : s.validate = .ok target) (texts : ∀ c ∈ cs, c.Textual)
    {classes : List ClassDef} (succeeded : (generate target cs).outcome = .ok classes) :
    References target cs classes := by
  have rooted := Settings.root_ne_empty accepted
  have headed := Settings.root_head accepted
  have keeps := Controller.keeps_prepared target.root
  obtain ⟨clear,rfl⟩ := generate_clear (Settings.helpers_ne_empty accepted) texts succeeded
  rw [← fault_map keeps] at clear
  exact {
    areas := by
      intro c member area given here
      have present : area ∈ namedAreas (cs.map (Controller.prepared target.root)) := by
        rw [namedAreas_map keeps]
        exact mem_namedAreas.mpr ⟨given,c,member,((texts c member).area_eq_iff area).mp here⟩
      refine points_of_field headed rooted clear (.inl rfl) (areaField_mem present) (areaClassOf_mem present) rfl rfl rfl ?_
      rw [placeOf,if_neg given]
      rfl
    viewOnly := fun area name c first viewOnly => points_viewOnly headed rooted clear texts first viewOnly
    areaClasses := by
      intro made planned found
      have inPlan : made ∈ areaPlan target.root (cs.map (Controller.prepared target.root)) := by
        rw [← plan_areaClasses rooted]
        exact List.mem_filter.mpr ⟨planned,found⟩
      obtain ⟨area,there,rfl⟩ := List.mem_map.mp inPlan
      rw [namedAreas_map keeps] at there
      have given := (mem_namedAreas.mp there).1
      refine ⟨area,_,_,given,?_,holderOf_onlyOne clear (.inl rfl),areaField_onlyOne clear there,rfl⟩
      rw [placeOf,if_neg given]
      rfl
  }

theorem generate_references_doubled :
    Settings.default.validate = .ok ⟨"R4Mvc","MVC"⟩ ∧ (∀ c ∈ doubled, c.Textual) ∧
    ∃ classes, (generate ⟨"R4Mvc","MVC"⟩ doubled).outcome = .ok classes ∧
      References ⟨"R4Mvc","MVC"⟩ doubled classes := by
  have accepted := Settings.default_accepted
  have distinguished : Distinguished doubled := by
    constructor <;> simp [doubled,Controller.ofTexts]
  have differ : PlaceholdersDiffer doubled := by
    have called : ∀ d ∈ doubled, d.isViewOnly = true →
        (d.area,d.name) = (.str "Shop",.str "Cart") ∧ d.viewOnlyClassName = .ok "ShopArea_CartController" ∨
          (d.area,d.name) = (.str "",.str "About") ∧ d.viewOnlyClassName = .ok "AboutController" := by
      simp [doubled,Controller.ofTexts,Controller.isViewOnly]
      exact ⟨rfl,rfl,rfl⟩
    intro c member d other viewOnly alsoViewOnly identifier named alsoNamed
    have same := named.trans alsoNamed.symm
    rcases called c member viewOnly with ⟨cKey,cName⟩ | ⟨cKey,cName⟩ <;>
      rcases called d other alsoViewOnly with ⟨dKey,dName⟩ | ⟨dKey,dName⟩ <;>
      rw [cName,dName] at same
    · rw [cKey,dKey]
    · simp at same
    · simp at same
    · rw [cKey,dKey]
  have succeeded := generate_of_distinguished ⟨"R4Mvc","MVC"⟩ (by decide) (by decide) doubled_textual
    distinguished differ
  exact ⟨accepted,doubled_textual,_,succeeded,generate_references accepted doubled_textual succeeded⟩

-- The generated name of one of the controllers is the full name of the class of an area.
def impostor : List Controller :=
  [.ofTexts "Cart" none "Shop" none,.ofTexts "Home" (some "Site") "" (some "R4Mvc.ShopAreaClass")]

theorem generate_refers_twice :
    Settings.default.validate = .ok ⟨"R4Mvc","MVC"⟩ ∧ (∀ c ∈ impostor, c.Textual) ∧
    ∃ classes, (generate ⟨"R4Mvc","MVC"⟩ impostor).outcome = .ok classes ∧
      ∃ helpers ∈ classes, ∃ made ∈ classes, helpers.key = ("","MVC") ∧ isAreaClass "R4Mvc" made = true ∧
        ¬∃ field, OnlyOne (fun f => f.type = .str made.fullName) helpers.fields field := by
  have texts : ∀ c ∈ impostor, c.Textual := by
    simp [impostor,Controller.textual_ofTexts]
  have distinguished : Distinguished impostor := by
    constructor <;> simp [impostor,Controller.ofTexts]
  have differ : PlaceholdersDiffer impostor := by
    simp [PlaceholdersDiffer,impostor,Controller.ofTexts,Controller.isViewOnly]
  have succeeded := generate_of_distinguished ⟨"R4Mvc","MVC"⟩ (by decide) (by decide) texts distinguished differ
  have shop : "Shop" ∈ namedAreas (impostor.map (Controller.prepared "R4Mvc")) :=
    mem_namedAreas.mpr ⟨by decide,by simp [impostor,Controller.ofTexts]⟩
  have home : "Home" ∈ namesOf (inArea "" (impostor.map (Controller.prepared "R4Mvc"))) :=
    mem_namesOf.mpr (by simp [inArea,impostor,Controller.ofTexts])
  refine ⟨Settings.default_accepted,texts,_,succeeded,_,holderOf_mem (.inl rfl),_,areaClassOf_mem shop,holderOf_key _ _ _,
    isAreaClass_areaClassOf _ _ _,?_⟩
  rintro ⟨field,only⟩
  have forArea := only.eq (areaField_mem shop) rfl
  have forHome := only.eq (fieldFor_mem home) rfl
  have names := congrArg Field.name (forArea.trans forHome.symm)
  exact absurd (Value.str.inj names) (by decide)

end Generation
end TypedMvc
