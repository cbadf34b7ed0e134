import TypedMvc.Proofs.Grammar
import TypedMvc.Proofs.Reachability

namespace TypedMvc

open CSharp Synthesis

-- A language of names and one of types, closed under everything that a generation puts together.
structure Vocabulary (W D : String → Prop) : Prop where
  labels : W "Name" ∧ W "Area"
  className : ∀ {name}, W name → W (Controller.className name)
  areaClassName : ∀ {area}, W area → W (Controller.areaClassName area)
  inArea : ∀ {area name}, W area → W name → W (area ++ Controller.areaMark ++ Controller.className name)
  single : ∀ {name}, W name → D name
  member : ∀ {outer inner}, D outer → D inner → D (outer ++ "." ++ inner)

-- A controller of texts whose name is taken from the one language, and its namespace and generated name from the other.
structure Controller.Within (W D : String → Prop) (c : Controller) : Prop where
  name : ∃ s, c.name = .str s ∧ W s
  area : ∃ s, c.area = .str s ∧ (s = "" ∨ W s)
  ns : c.ns = .null ∨ ∃ s, c.ns = .str s ∧ (s = "" ∨ D s)
  generatedName : c.generatedName = .null ∨ ∃ s, c.generatedName = .str s ∧ (s = "" ∨ D s)

variable {W D : String → Prop} {c : Controller}

namespace Controller

theorem Within.textual (within : c.Within W D) : c.Textual := by
  obtain ⟨name,named,_⟩ := within.name
  obtain ⟨area,inside,_⟩ := within.area
  refine ⟨⟨name,named⟩,⟨area,inside⟩,?_,?_⟩
  · exact within.ns.imp_right fun ⟨s,equal,_⟩ => ⟨s,equal⟩
  · exact within.generatedName.imp_right fun ⟨s,equal,_⟩ => ⟨s,equal⟩

theorem Within.name_text (within : c.Within W D) : W c.name.text := by
  obtain ⟨s,equal,known⟩ := within.name
  rwa [equal,Value.text_str]

theorem Within.area_text (within : c.Within W D) : c.area.text = "" ∨ W c.area.text := by
  obtain ⟨s,equal,known⟩ := within.area
  rwa [equal,Value.text_str]

theorem Within.mono {V E : String → Prop} (within : c.Within W D) (names : ∀ s, W s → V s)
    (types : ∀ s, D s → E s) : c.Within V E where
  name := within.name.imp fun s both => ⟨both.1,names s both.2⟩
  area := within.area.imp fun s both => ⟨both.1,both.2.imp_right (names s)⟩
  ns := within.ns.imp_right fun given => given.imp fun s both => ⟨both.1,both.2.imp_right (types s)⟩
  generatedName := within.generatedName.imp_right fun given => given.imp fun s both => ⟨both.1,both.2.imp_right (types s)⟩

theorem known_of_truthy {v : Value} (optional : v = .null ∨ ∃ s, v = .str s ∧ (s = "" ∨ D s))
    (given : v.truthy = true) : D v.text := by
  rcases optional with rfl | ⟨s,rfl,empty | known⟩
  · simp at given
  · simp [empty] at given
  · exact known

theorem Vocabulary.placeholderName (closed : Vocabulary W D) {area name : String} (inside : area = "" ∨ W area)
    (named : W name) : W (Controller.placeholderName area name) := by
  unfold Controller.placeholderName
  split
  · exact closed.className named
  · rename_i given
    exact closed.inArea (inside.resolve_left given) named

theorem Within.resolvedName (within : c.Within W D) (closed : Vocabulary W D) {root : String} (rooted : D root) :
    D (c.resolvedName root) := by
  unfold Controller.resolvedName
  split
  · exact closed.member rooted (closed.single (Vocabulary.placeholderName closed within.area_text within.name_text))
  · rename_i backed
    have given : c.ns.truthy = true := by simpa [isViewOnly] using backed
    have own := known_of_truthy within.ns given
    exact closed.member (closed.member rooted own) (closed.single (closed.className within.name_text))

theorem Within.currentType (within : c.Within W D) (closed : Vocabulary W D) {root : String} (rooted : D root) :
    D (c.currentType root) := by
  unfold Controller.currentType
  split
  · rename_i given
    exact known_of_truthy within.generatedName given
  · exact within.resolvedName closed rooted

theorem Within.prepared (within : c.Within W D) (closed : Vocabulary W D) {root : String} (rooted : D root) :
    (c.prepared root).Within W D := by
  refine ⟨by simpa using within.name,by simpa using within.area,by simpa using within.ns,?_⟩
  unfold Controller.prepared
  split
  · exact .inr ⟨_,rfl,.inr (within.resolvedName closed rooted)⟩
  · exact within.generatedName

end Controller

-- What a member can be, those of the wrappers apart.
inductive MadeMember (W D : String → Prop) : Member → Prop where
  | bare : MadeMember W D (.constructorOf [] [.publicAccess] none [])
  | label {name value : String} : W name → W value → MadeMember W D (textMember name value)
  | handle {name type : String} (isStatic : Bool) :
    W name → D type → MadeMember W D (instanceField (.str name) (.str type) isStatic)

inductive Made (W D : String → Prop) (target : Target) : ClassDef → Prop where
  | grouping {identifier ns : String} {members : List Member} : W identifier → ns = "" ∨ ns = target.root →
    (∀ m ∈ members, MadeMember W D m) → ∀ isStatic : Bool, Made W D target
      (marked identifier ns (if isStatic then [.publicAccess,.static,.partialClass] else [.publicAccess,.partialClass])
        members)
  | wrapper {c : ClassDef} : c ∈ wrappers target.root → Made W D target c

section Wrappers

open Identifier

-- A member of a wrapper is a constructor of one statement or a property, and everything in it that has a name has a word.
inductive WrapperMember : Member → Prop where
  | constructor {k : Constructor} (modifiers : k.modifiers ≠ [])
    (parameters : ∀ p ∈ k.parameters, WordText p.name ∧ WordText p.type ∧ ∀ value, p.default = some value → WordText value)
    (arguments : ∀ own, k.baseArguments = some own → ∀ a ∈ own, WordText a)
    (body : k.body = ["this.InitMVCT4Result(area, controller, action, protocol);"]) : WrapperMember (.constructor k)
  | property {p : Property} (modifiers : p.modifiers ≠ []) (name : ∃ name, p.name = .str name ∧ WordText name)
    (type : ∃ type, p.type = .str type ∧ WordText type) : WrapperMember (.property p)

structure Wrapper (root : String) (c : ClassDef) : Prop where
  identifier : WordText c.identifier
  ns : c.ns = root
  modifiers : c.modifiers ≠ []
  baseTypes : ∀ type ∈ c.baseTypes, WordText type
  attributes : c.attributes = generatedCodeMarks
  members : ∀ m ∈ c.members, WrapperMember m

theorem wrapperClass_words {root identifier baseType : String} {baseArguments : Option (List String)}
    (named : WordText identifier) (based : WordText baseType)
    (arguments : ∀ own, baseArguments = some own → ∀ a ∈ own, WordText a) :
    Wrapper root (wrapperClass root identifier baseType baseArguments) where
  identifier := named
  ns := rfl
  modifiers := List.cons_ne_nil _ _
  baseTypes := by
    intro type member
    simp only [wrapperClass,List.mem_cons,List.not_mem_nil,or_false] at member
    rcases member with rfl | rfl
    · exact based
    · decide
  attributes := rfl
  members := by
    intro m member
    rcases List.mem_cons.mp member with rfl | property
    · refine .constructor (List.cons_ne_nil _ _) ?_ arguments rfl
      intro p among
      simp only [wrapperParameters,List.mem_cons,List.not_mem_nil,or_false] at among
      rcases among with rfl | rfl | rfl | rfl <;> exact ⟨by decide,by decide,by decide⟩
    · simp only [wrapperProperties,List.map_cons,List.map_nil,List.mem_cons,List.not_mem_nil,or_false] at property
      rcases property with rfl | rfl | rfl | rfl <;>
        exact .property (List.cons_ne_nil _ _) ⟨_,rfl,by decide⟩ ⟨_,rfl,by decide⟩

theorem wrapper_words {root : String} {c : ClassDef} (among : c ∈ wrappers root) : Wrapper root c := by
  rcases List.mem_cons.mp among with rfl | last
  · exact wrapperClass_words (by decide) (by decide) (by simp)
  · rw [List.mem_singleton.mp last]
    refine wrapperClass_words (by decide) (by decide) ?_
    rintro _ ⟨⟩
    decide

end Wrappers

theorem Made.ns {target : Target} {c : ClassDef} (made : Made W D target c) : c.ns = "" ∨ c.ns = target.root := by
  cases made with
  | grouping _ inside _ _ => exact inside
  | wrapper among => exact .inr (wrapper_words among).ns

namespace Generation

variable {target : Target} {cs : List Controller}

theorem typeOf_within (closed : Vocabulary W D) (rooted : D target.root) {group : List Controller}
    (within : ∀ c ∈ group, c.Within W D) {name : String} (among : name ∈ namesOf group) :
    D (typeOf target.root group name) := by
  obtain ⟨c,member,called⟩ := mem_namesOf.mp among
  unfold typeOf
  cases found : group.find? fun c => decide (c.name.text = name) with
  | none =>
    have missing := List.find?_eq_none.mp found c member
    simp [called] at missing
  | some first => exact (within first (List.mem_of_find?_eq_some found)).currentType closed rooted

theorem handles_made (closed : Vocabulary W D) (rooted : D target.root) {group : List Controller}
    (within : ∀ c ∈ group, c.Within W D) (isStatic : Bool) :
    ∀ m ∈ (namesOf group).map (handle target.root isStatic group), MadeMember W D m := by
  intro m member
  obtain ⟨name,among,rfl⟩ := List.mem_map.mp member
  obtain ⟨c,inside,rfl⟩ := mem_namesOf.mp among
  exact .handle isStatic (within c inside).name_text (typeOf_within closed rooted within among)

theorem namedAreas_within (within : ∀ c ∈ cs, c.Within W D) {area : String} (among : area ∈ namedAreas cs) :
    W area := by
  obtain ⟨given,c,member,rfl⟩ := mem_namedAreas.mp among
  exact (within c member).area_text.resolve_left given

theorem placeholderOf_made (closed : Vocabulary W D) (target : Target) {key : Key}
    (inside : key.area = "" ∨ W key.area) (named : W key.name) : Made W D target (placeholderOf target.root key) := by
  refine .grouping (Controller.Vocabulary.placeholderName closed inside named) (.inr rfl) ?_ false
  intro m member
  rcases List.mem_cons.mp member with rfl | more
  · exact .bare
  · rcases List.mem_cons.mp more with rfl | last
    · exact .label closed.labels.1 named
    · by_cases root : key.area = ""
      · simp [root] at last
      · rw [if_neg root,List.mem_singleton] at last
        subst last
        exact .label closed.labels.2 (inside.resolve_left root)

theorem areaClassOf_made (closed : Vocabulary W D) (rooted : D target.root) {area : String} (known : W area)
    {group : List Controller} (within : ∀ c ∈ group, c.Within W D) :
    Made W D target (areaClassOf target.root area group) := by
  refine .grouping (closed.areaClassName known) (.inr rfl) ?_ false
  intro m member
  rcases List.mem_cons.mp member with rfl | later
  · exact .label closed.labels.1 known
  · exact handles_made closed rooted within false m later

theorem helpersOf_made (closed : Vocabulary W D) (rooted : D target.root) (named : W target.helpers)
    {areas : List String} (known : ∀ area ∈ areas, W area) {group : List Controller}
    (within : ∀ c ∈ group, c.Within W D) : Made W D target (helpersOf target areas group) := by
  refine .grouping named (.inl rfl) ?_ true
  intro m member
  rcases List.mem_append.mp member with forArea | forName
  · obtain ⟨area,among,rfl⟩ := List.mem_map.mp forArea
    exact .handle true (known area among)
      (closed.member rooted (closed.single (closed.areaClassName (known area among))))
  · exact handles_made closed rooted within true m forName

-- The classes of a plan are made of what its controllers and its target are made of.
theorem plan_made (closed : Vocabulary W D) (rooted : D target.root) (named : W target.helpers)
    (within : ∀ c ∈ cs, c.Within W D) : ∀ c ∈ plan target cs, Made W D target c := by
  have inGroup : ∀ area, ∀ c ∈ inArea area cs, c.Within W D :=
    fun area c there => within c (mem_inArea.mp there).1
  intro made member
  rcases List.mem_append.mp member with front | back
  · rcases List.mem_append.mp front with placeholder | grouping
    · obtain ⟨key,among,rfl⟩ := List.mem_map.mp placeholder
      obtain ⟨c,inside,_,rfl⟩ := mem_placeholderKeys.mp among
      exact placeholderOf_made closed target (within c inside).area_text (within c inside).name_text
    · obtain ⟨area,among,rfl⟩ := List.mem_map.mp grouping
      exact areaClassOf_made closed rooted (namedAreas_within within among) (inGroup area)
  · rcases List.mem_cons.mp back with rfl | wrapper
    · exact helpersOf_made closed rooted named (fun area among => namedAreas_within within among) (inGroup "")
    · exact .wrapper wrapper

theorem generate_made (closed : Vocabulary W D) (rooted : D target.root) (named : W target.helpers)
    (present : target.helpers ≠ "") (within : ∀ c ∈ cs, c.Within W D) {classes : List ClassDef}
    (succeeded : (generate target cs).outcome = .ok classes) : ∀ c ∈ classes, Made W D target c := by
  obtain ⟨_,rfl⟩ := generate_clear present (fun c member => (within c member).textual) succeeded
  refine plan_made closed rooted named ?_
  intro c member
  obtain ⟨d,old,rfl⟩ := List.mem_map.mp member
  exact (within d old).prepared closed rooted

end Generation

namespace Identifier

theorem vocabulary : Vocabulary WordText DottedText where
  labels := ⟨by decide,by decide⟩
  className := fun word => word.append (List.all_eq_true.mp (by decide))
  areaClassName := fun word => word.append (List.all_eq_true.mp (by decide))
  inArea := by
    intro area name word inner
    refine WordText.append (word.append (List.all_eq_true.mp (by decide))) ?_
    exact (WordText.append inner (List.all_eq_true.mp (by decide))).continues
  single := WordText.dotted
  member := DottedText.append

end Identifier

namespace CSharp

open Identifier

-- The names of a class and of its fields and properties are words, and its namespace and the types of its fields are
-- dotted names; a class without a namespace is in the global one.
structure ClassDef.WellFormed (c : ClassDef) : Prop where
  identifier : WordText c.identifier
  ns : c.ns = "" ∨ DottedText c.ns
  fieldNames : ∀ f ∈ c.fields, ∃ name, f.name = .str name ∧ WordText name
  fieldTypes : ∀ f ∈ c.fields, ∃ type, f.type = .str type ∧ DottedText type
  propertyNames : ∀ p ∈ c.properties, ∃ name, p.name = .str name ∧ WordText name

theorem mem_of_kind {kind : Member → Option α} {make : α → Member} (own : ∀ m a, kind m = some a ↔ m = make a)
    {members : List Member} {a : α} : a ∈ members.filterMap kind ↔ make a ∈ members := by
  rw [List.mem_filterMap]
  constructor
  · rintro ⟨m,member,shown⟩
    rwa [← (own m a).mp shown]
  · exact fun member => ⟨_,member,(own _ a).mpr rfl⟩

theorem mem_fields {c : ClassDef} {f : Field} : f ∈ c.fields ↔ .field f ∈ c.members :=
  mem_of_kind fun m f => by cases m <;> simp

theorem mem_properties {c : ClassDef} {p : Property} : p ∈ c.properties ↔ .property p ∈ c.members :=
  mem_of_kind fun m p => by cases m <;> simp

end CSharp

section Grammar

open Identifier

theorem MadeMember.of_field {m : Member} (made : MadeMember WordText DottedText m) {f : Field} (shown : m = .field f) :
    (∃ name, f.name = .str name ∧ WordText name) ∧ ∃ type, f.type = .str type ∧ DottedText type := by
  cases made with
  | bare => cases shown
  | label word _ =>
    cases shown
    exact ⟨⟨_,rfl,word⟩,_,rfl,.single (by decide)⟩
  | handle _ word dotted =>
    cases shown
    exact ⟨⟨_,rfl,word⟩,_,rfl,dotted⟩

theorem MadeMember.ne_property {m : Member} (made : MadeMember W D m) (p : Property) : m ≠ .property p := by
  intro shown
  cases made <;> cases shown

theorem Made.wellFormed {target : Target} {c : ClassDef} (rooted : DottedText target.root)
    (made : Made WordText DottedText target c) : c.WellFormed := by
  cases made with
  | grouping word inside members isStatic =>
    refine ⟨word,?_,?_,?_,?_⟩
    · rcases inside with rfl | rfl
      · exact .inl rfl
      · exact .inr rooted
    · intro f among
      exact ((members _ (mem_fields.mp among)).of_field rfl).1
    · intro f among
      exact ((members _ (mem_fields.mp among)).of_field rfl).2
    · intro p among
      exact absurd rfl ((members _ (mem_properties.mp among)).ne_property p)
  | wrapper among =>
    have wrapper := wrapper_words among
    have fieldless : ∀ f, .field f ∉ c.members := fun f member => nomatch wrapper.members _ member
    refine ⟨wrapper.identifier,.inr (wrapper.ns ▸ rooted),?_,?_,?_⟩
    · exact fun f among => absurd (mem_fields.mp among) (fieldless f)
    · exact fun f among => absurd (mem_fields.mp among) (fieldless f)
    · intro p among
      cases wrapper.members _ (mem_properties.mp among) with
      | property _ name _ => exact name

end Grammar

namespace Generation

open Identifier

variable {target : Target} {cs : List Controller}

-- Under accepted settings generated code is well-formed exactly where the two names of the settings have no line feed:
-- validation lets one pass at their ends.
theorem generate_wellFormed_iff {s : Settings} (accepted : s.validate = .ok target)
    (within : ∀ c ∈ cs, c.Within WordText DottedText) {classes : List ClassDef}
    (succeeded : (generate target cs).outcome = .ok classes) :
    (∀ c ∈ classes, c.WellFormed) ↔ '\n' ∉ target.root.toList ∧ '\n' ∉ target.helpers.toList := by
  have present := Settings.helpers_ne_empty accepted
  constructor
  · intro correct
    obtain ⟨_,rfl⟩ := generate_clear present (fun c member => (within c member).textual) succeeded
    have helpers := correct (helpersOf target _ _) (List.mem_append_right _ List.mem_cons_self)
    have wrapper := correct (actionResultClass target.root)
      (List.mem_append_right _ (List.mem_cons_of_mem _ List.mem_cons_self))
    have rooted : DottedText target.root := wrapper.ns.resolve_left (Settings.root_ne_empty accepted)
    exact ⟨rooted.newline_free,(WordText.dotted helpers.identifier).newline_free⟩
  · rintro ⟨rootFree,helpersFree⟩
    have rooted := Settings.root_dotted accepted rootFree
    have named := Settings.helpers_word accepted helpersFree
    intro c member
    exact (generate_made vocabulary rooted named present within succeeded c member).wellFormed rooted

theorem storefront_within : ∀ c ∈ storefront, c.Within WordText DottedText := by
  have word : ∀ name ∈ ["Home","Cart","Shop"], WordText name := by
    intro name member
    simp only [List.mem_cons,List.not_mem_nil,or_false] at member
    rcases member with rfl | rfl | rfl <;> decide
  have dotted : ∀ name ∈ ["Shop.Controllers","Shop.HomeController","Shop.Carts"], DottedText name := by
    intro name member
    simp only [List.mem_cons,List.not_mem_nil,or_false] at member
    rcases member with rfl | rfl | rfl <;> exact dotted_of_isDotted (by decide)
  intro c member
  simp only [storefront,List.mem_cons,List.not_mem_nil,or_false] at member
  rcases member with rfl | rfl | rfl
  · exact ⟨⟨_,rfl,word _ (by simp)⟩,⟨_,rfl,.inl rfl⟩,.inr ⟨_,rfl,.inr (dotted _ (by simp))⟩,
      .inr ⟨_,rfl,.inr (dotted _ (by simp))⟩⟩
  · exact ⟨⟨_,rfl,word _ (by simp)⟩,⟨_,rfl,.inr (word _ (by simp))⟩,.inl rfl,.inl rfl⟩
  · exact ⟨⟨_,rfl,word _ (by simp)⟩,⟨_,rfl,.inr (word _ (by simp))⟩,
      .inr ⟨_,rfl,.inr (dotted _ (by simp))⟩,.inl rfl⟩

theorem storefront_generate (target : Target) (rooted : target.root ≠ "") (present : target.helpers ≠ "") :
    (generate target storefront).outcome = .ok (plan target (storefront.map (Controller.prepared target.root))) := by
  refine generate_of_distinguished target rooted present storefront_textual ?_ ?_
  · constructor <;> simp [storefront,Controller.ofTexts]
  · simp [PlaceholdersDiffer,storefront,Controller.ofTexts,Controller.isViewOnly]

theorem generate_wellFormed_storefront :
    Settings.default.validate = .ok ⟨"R4Mvc","MVC"⟩ ∧ (∀ c ∈ storefront, c.Within WordText DottedText) ∧
    ∃ classes, (generate ⟨"R4Mvc","MVC"⟩ storefront).outcome = .ok classes ∧ ∀ c ∈ classes, c.WellFormed := by
  have accepted := Settings.default_accepted
  have succeeded := storefront_generate ⟨"R4Mvc","MVC"⟩ (by decide) (by decide)
  refine ⟨accepted,storefront_within,_,succeeded,?_⟩
  exact (generate_wellFormed_iff accepted storefront_within succeeded).mpr (by decide)

theorem generate_wellFormed_fails :
    (Settings.ofTexts "R4Mvc" "MVC\n" Settings.defaultReferences 4).validate = .ok ⟨"R4Mvc","MVC\n"⟩ ∧
    ∃ classes, (generate ⟨"R4Mvc","MVC\n"⟩ storefront).outcome = .ok classes ∧ ∃ c ∈ classes, ¬ c.WellFormed := by
  refine ⟨rfl,_,storefront_generate ⟨"R4Mvc","MVC\n"⟩ (by decide) (by decide),_,
    List.mem_append_right _ List.mem_cons_self,?_⟩
  intro correct
  exact (WordText.dotted correct.identifier).newline_free (by decide)

end Generation
end TypedMvc
