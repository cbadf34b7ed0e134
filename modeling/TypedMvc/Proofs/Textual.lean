import TypedMvc.Controller

namespace TypedMvc.Controller

structure Textual (c : Controller) : Prop where
  name : ∃ s, c.name = .str s
  area : ∃ s, c.area = .str s
  ns : c.ns = .null ∨ ∃ s, c.ns = .str s
  generatedName : c.generatedName = .null ∨ ∃ s, c.generatedName = .str s

theorem textual_ofTexts (name : String) (ns : Option String) (area : String) (generatedName : Option String) :
    (ofTexts name ns area generatedName).Textual := by
  refine ⟨⟨name,rfl⟩,⟨area,rfl⟩,?_,?_⟩
  · cases ns with
    | none => exact .inl rfl
    | some s => exact .inr ⟨s,rfl⟩
  · cases generatedName with
    | none => exact .inl rfl
    | some s => exact .inr ⟨s,rfl⟩

variable {c : Controller}

theorem Textual.name_eq (texts : c.Textual) : c.name = .str c.name.text := by
  obtain ⟨s,equal⟩ := texts.name
  rw [equal,Value.text_str]

theorem Textual.area_eq (texts : c.Textual) : c.area = .str c.area.text := by
  obtain ⟨s,equal⟩ := texts.area
  rw [equal,Value.text_str]

theorem Textual.area_truthy (texts : c.Textual) : c.area.truthy = (c.area.text != "") := by
  rw [texts.area_eq,Value.truthy_str,Value.text_str]

theorem Textual.named_iff (texts : c.Textual) : c.name.truthy = true ↔ c.name ≠ .str "" := by
  obtain ⟨s,equal⟩ := texts.name
  simp [equal]

theorem Textual.name_eq_iff (texts : c.Textual) (s : String) : c.name = .str s ↔ c.name.text = s := by
  rw [texts.name_eq,Value.text_str,Value.str.injEq]

theorem Textual.area_eq_iff (texts : c.Textual) (s : String) : c.area = .str s ↔ c.area.text = s := by
  rw [texts.area_eq,Value.text_str,Value.str.injEq]

theorem Textual.areaKey_eq (texts : c.Textual) : c.areaKey = .str c.area.text := by
  obtain ⟨s,equal⟩ := texts.area
  by_cases empty : s = "" <;> simp [areaKey,Value.orElse,equal,empty]

theorem Textual.isViewOnly_iff (texts : c.Textual) : c.isViewOnly = true ↔ c.ns = .null ∨ c.ns = .str "" := by
  rcases texts.ns with absent | ⟨s,equal⟩
  · simp [isViewOnly,absent]
  · simp [isViewOnly,equal]

theorem Textual.generatedName_eq (texts : c.Textual) (given : c.generatedName.truthy = true) :
    c.generatedName = .str c.generatedName.text := by
  rcases texts.generatedName with absent | ⟨s,equal⟩
  · simp [absent] at given
  · rw [equal,Value.text_str]

theorem requireName_named (named : c.name.truthy = true) : c.requireName = .ok c.name := by
  simp [requireName,named]

theorem requireName_unnamed (unnamed : c.name.truthy = false) :
    c.requireName = .error (.unnamedController c.area c.ns) := by
  simp [requireName,unnamed]

theorem sortKey_unnamed (unnamed : c.name.truthy = false) :
    c.sortKey = .error (.unnamedController c.area c.ns) := by
  simp [sortKey,requireName_unnamed unnamed,bind,Except.bind]

theorem Textual.sortKey_named (texts : c.Textual) (named : c.name.truthy = true) :
    c.sortKey = .ok (.str c.area.text,.str c.name.text) := by
  rw [sortKey,requireName_named named,texts.areaKey_eq,texts.name_eq]
  rfl

def placeholderName (area name : String) : String :=
  if area = "" then className name else area ++ areaMark ++ className name

theorem viewOnlyClassName_texts {area name : String} (named : name ≠ "") (areas : c.area = .str area)
    (names : c.name = .str name) : c.viewOnlyClassName = .ok (placeholderName area name) := by
  have present : c.name.truthy = true := by simpa [names] using named
  rw [viewOnlyClassName,requireName_named present,areas,names]
  by_cases root : area = "" <;> simp [root,placeholderName,bind,Except.bind,pure,Except.pure]

theorem Textual.viewOnlyClassName_named (texts : c.Textual) (named : c.name.truthy = true) :
    c.viewOnlyClassName = .ok (placeholderName c.area.text c.name.text) := by
  refine viewOnlyClassName_texts ?_ texts.area_eq texts.name_eq
  rw [texts.name_eq] at named
  simpa using named

def resolvedName (root : String) (c : Controller) : String :=
  if c.isViewOnly then root ++ "." ++ placeholderName c.area.text c.name.text
  else root ++ "." ++ c.ns.text ++ "." ++ className c.name.text

theorem Textual.resolve_named (texts : c.Textual) (named : c.name.truthy = true) (root : String) :
    c.resolve (.str root) = .ok (c.resolvedName root) := by
  cases backed : c.ns.truthy with
  | false =>
    simp [resolve,generatedNamespace,generatedClassName,resolvedName,isViewOnly,backed,
      texts.viewOnlyClassName_named named,bind,Except.bind,pure,Except.pure]
  | true =>
    have inner : c.generatedNamespace (.str root) = .ok (.str (root ++ "." ++ c.ns.text)) := by
      rcases texts.ns with absent | ⟨s,equal⟩
      · simp [absent] at backed
      · simp [generatedNamespace,equal] at backed ⊢
        simp [backed]
    have simple : c.generatedClassName = .ok (className c.name.text) := by
      rw [generatedClassName,isViewOnly,backed,requireName_named named,texts.name_eq]
      rfl
    simp [resolve,inner,simple,resolvedName,isViewOnly,backed,bind,Except.bind,pure,Except.pure]

theorem resolvedName_ne_empty (root : String) (c : Controller) : c.resolvedName root ≠ "" := by
  intro empty
  have shown := congrArg String.toList empty
  unfold resolvedName at shown
  split at shown <;> simp at shown

-- The type that a field for the controller gets: the generated name, or the resolved one if there is none.
def currentType (root : String) (c : Controller) : String :=
  if c.generatedName.truthy then c.generatedName.text else c.resolvedName root

theorem Textual.existingOrResolved_named (texts : c.Textual) (named : c.name.truthy = true) (root : String) :
    c.existingOrResolved (.str root) = .ok (.str (c.currentType root)) := by
  cases given : c.generatedName.truthy with
  | false => simp [existingOrResolved,currentType,given,texts.resolve_named named root,Except.map]
  | true =>
    simp only [existingOrResolved,currentType,given,if_true]
    rw [← texts.generatedName_eq given]

theorem Textual.currentType_ne_empty (texts : c.Textual) (root : String) : c.currentType root ≠ "" := by
  unfold currentType
  split
  · rename_i given
    rw [texts.generatedName_eq given] at given
    simpa using given
  · exact resolvedName_ne_empty root c

def renamed (root : String) (c : Controller) : Controller :=
  { c with generatedName := .str (c.resolvedName root) }

theorem renamed_renamed (root : String) (c : Controller) : (c.renamed root).renamed root = c.renamed root := rfl

-- What the placeholder stage makes of a controller: whatever a view-only one was called before is forgotten.
def prepared (root : String) (c : Controller) : Controller := if c.isViewOnly then c.renamed root else c

def settled (root : String) (c : Controller) : Controller :=
  { c with generatedName := .str (c.currentType root) }

@[simp] theorem prepared_name (root : String) (c : Controller) : (c.prepared root).name = c.name := by
  unfold prepared; split <;> rfl

@[simp] theorem prepared_area (root : String) (c : Controller) : (c.prepared root).area = c.area := by
  unfold prepared; split <;> rfl

@[simp] theorem prepared_ns (root : String) (c : Controller) : (c.prepared root).ns = c.ns := by
  unfold prepared; split <;> rfl

@[simp] theorem prepared_isViewOnly (root : String) (c : Controller) :
    (c.prepared root).isViewOnly = c.isViewOnly := by
  simp [isViewOnly]

theorem prepared_viewOnly (viewOnly : c.isViewOnly = true) (root : String) : c.prepared root = c.renamed root := by
  simp [prepared,viewOnly]

theorem prepared_backed (backed : c.isViewOnly = false) (root : String) : c.prepared root = c := by
  simp [prepared,backed]

theorem prepared_congr {d : Controller} (viewOnly : d.isViewOnly = true) (names : c.name = d.name)
    (namespaces : c.ns = d.ns) (areas : c.area = d.area) (root : String) : c.prepared root = d.prepared root := by
  have alsoViewOnly : c.isViewOnly = true := by rwa [isViewOnly,namespaces]
  rw [prepared_viewOnly alsoViewOnly,prepared_viewOnly viewOnly]
  cases c
  cases d
  subst names namespaces areas
  rfl

theorem Textual.prepared (texts : c.Textual) (root : String) : (c.prepared root).Textual := by
  refine ⟨by simpa using texts.name,by simpa using texts.area,by simpa using texts.ns,?_⟩
  unfold Controller.prepared
  split
  · exact .inr ⟨_,rfl⟩
  · exact texts.generatedName

theorem Textual.settled (texts : c.Textual) (root : String) : (c.settled root).Textual :=
  ⟨texts.name,texts.area,texts.ns,.inr ⟨_,rfl⟩⟩

theorem Textual.currentType_settled (texts : c.Textual) (root : String) :
    (c.settled root).currentType root = c.currentType root := by
  have given : (c.settled root).generatedName.truthy = true := by
    simpa [Controller.settled] using texts.currentType_ne_empty root
  rw [currentType,if_pos given]
  rfl

end TypedMvc.Controller
