import TypedMvc.Proofs.Textual
import TypedMvc.Settings

namespace TypedMvc

section Marks

variable {c : α} {tail front back before after : List α}

-- A mark whose first element does not come again within it cannot begin inside itself, and in what is free of it it
-- cannot begin at all.
theorem mark_leads (once : c ∉ tail) (free : ¬ c :: tail <:+: back)
    (same : (c :: tail) ++ back = before ++ ((c :: tail) ++ after)) : before = [] := by
  cases before with
  | nil => rfl
  | cons d rest =>
    obtain ⟨_,later⟩ := List.cons.inj same
    rcases List.append_eq_append_iff.mp later with ⟨gap,_,shown⟩ | ⟨overlap,shown,rests⟩
    · exact absurd ⟨gap,after,by rw [shown,List.append_assoc]⟩ free
    · cases overlap with
      | nil => exact absurd ⟨[],after,by rw [List.nil_append,rests,List.nil_append]⟩ free
      | cons e more =>
        obtain ⟨rfl,_⟩ := List.cons.inj rests
        exact absurd (by simp [shown]) once

-- So a mark divides a list in one way, if what stands behind it is free of it.
theorem mark_divides (once : c ∉ tail) (free : ¬ c :: tail <:+: back) (freeToo : ¬ c :: tail <:+: after)
    (same : front ++ ((c :: tail) ++ back) = before ++ ((c :: tail) ++ after)) : front = before ∧ back = after := by
  have ends : front = before → front = before ∧ back = after := by
    rintro rfl
    exact ⟨rfl,List.append_cancel_left (List.append_cancel_left same)⟩
  rcases List.append_eq_append_iff.mp same with ⟨gap,shown,marks⟩ | ⟨gap,shown,marks⟩
  · rw [mark_leads once free marks,List.append_nil] at shown
    exact ends shown.symm
  · rw [mark_leads once freeToo marks,List.append_nil] at shown
    exact ends shown

end Marks

namespace Controller

def Marked (name : String) : Prop := areaMark.toList <:+: name.toList

def Dotless (s : String) : Prop := '.' ∉ s.toList

instance (name : String) : Decidable (Marked name) := inferInstanceAs (Decidable (areaMark.toList <:+: name.toList))

instance (s : String) : Decidable (Dotless s) := inferInstanceAs (Decidable ('.' ∉ s.toList))

theorem className_injective : Function.Injective className := by
  intro name other same
  have shown := congrArg String.toList same
  simp only [className,String.toList_append] at shown
  exact String.toList_injective (List.append_cancel_right shown)

theorem placeholderName_root (name : String) : placeholderName "" name = className name := if_pos rfl

theorem placeholderName_area {area : String} (given : area ≠ "") (name : String) :
    (placeholderName area name).toList = area.toList ++ (areaMark.toList ++ name.toList) ++ suffix.toList := by
  rw [placeholderName,if_neg given,className]
  simp only [String.toList_append,List.append_assoc]

-- An identifier with an area in front is that of a name in the root area only if that name holds the mark.
theorem marked_of_placeholderName {area name other : String} (given : area ≠ "")
    (same : placeholderName area name = placeholderName "" other) : Marked other := by
  have shown := congrArg String.toList same
  rw [placeholderName_area given,placeholderName_root,className,String.toList_append] at shown
  exact ⟨area.toList,name.toList,by rw [List.append_assoc,List.append_cancel_right shown]⟩

theorem placeholderName_unique {area other name otherName : String} (unmarked : ¬ Marked name)
    (unmarkedToo : ¬ Marked otherName) (same : placeholderName area name = placeholderName other otherName) :
    area = other ∧ name = otherName := by
  by_cases root : area = ""
  · by_cases rootToo : other = ""
    · rw [root,rootToo,placeholderName_root,placeholderName_root] at same
      exact ⟨root.trans rootToo.symm,className_injective same⟩
    · rw [root] at same
      exact absurd (marked_of_placeholderName rootToo same.symm) unmarked
  · by_cases rootToo : other = ""
    · rw [rootToo] at same
      exact absurd (marked_of_placeholderName root same) unmarkedToo
    · have shown := congrArg String.toList same
      rw [placeholderName_area root,placeholderName_area rootToo] at shown
      have mark : areaMark.toList = 'A' :: "rea_".toList := by decide
      rw [mark] at shown
      obtain ⟨areas,names⟩ := mark_divides (by decide) (by rwa [← mark]) (by rwa [← mark])
        (List.append_cancel_right shown)
      exact ⟨String.toList_injective areas,String.toList_injective names⟩

theorem className_dotless {name : String} (dotless : Dotless name) : Dotless (className name) := by
  simpa [Dotless,className,suffix] using dotless

theorem placeholderName_dotless {area name : String} (inArea : Dotless area) (dotless : Dotless name) :
    Dotless (placeholderName area name) := by
  unfold placeholderName
  split
  · exact className_dotless dotless
  · have parts := className_dotless dotless
    simp only [Dotless,String.toList_append,List.mem_append,not_or] at parts ⊢
    exact ⟨⟨inArea,by decide⟩,parts⟩

theorem dot_divides {ns other name otherName : String} (dotless : Dotless name) (dotlessToo : Dotless otherName)
    (same : ns ++ "." ++ name = other ++ "." ++ otherName) : ns = other ∧ name = otherName := by
  have free : ∀ s : String, Dotless s → ¬ ['.'] <:+: s.toList := by
    rintro s without ⟨front,back,shown⟩
    exact without (by simp [← shown])
  have once : '.' ∉ ([] : List Char) := List.not_mem_nil
  have shown := congrArg String.toList same
  simp only [String.toList_append,List.append_assoc] at shown
  obtain ⟨outer,inner⟩ := mark_divides once (free name dotless) (free otherName dotlessToo) shown
  exact ⟨String.toList_injective outer,String.toList_injective inner⟩

-- A controller with a name, whose name and area hold no dot, and whose name holds no mark if it is view-only.
structure Distinguishable (c : Controller) : Prop where
  texts : c.Textual
  named : c.name ≠ .str ""
  name : Dotless c.name.text
  area : Dotless c.area.text
  unmarked : c.isViewOnly = true → ¬ Marked c.name.text

def Alike (c d : Controller) : Prop :=
  (c.isViewOnly = true ∧ d.isViewOnly = true ∧ c.area = d.area ∧ c.name = d.name) ∨
    (c.ns.truthy = true ∧ c.ns = d.ns ∧ c.name = d.name)

variable {c d : Controller}

theorem resolvedName_viewOnly (viewOnly : c.isViewOnly = true) (root : String) :
    c.resolvedName root = root ++ "." ++ placeholderName c.area.text c.name.text := if_pos viewOnly

theorem resolvedName_backed (backed : c.isViewOnly = false) (root : String) :
    c.resolvedName root = root ++ "." ++ c.ns.text ++ "." ++ className c.name.text := if_neg (by simp [backed])

theorem ns_truthy_iff : c.ns.truthy = true ↔ c.isViewOnly = false := by
  simp [isViewOnly]

theorem Textual.ns_eq (texts : c.Textual) (backed : c.isViewOnly = false) : c.ns = .str c.ns.text := by
  rcases texts.ns with absent | ⟨s,given⟩
  · simp [isViewOnly,absent] at backed
  · rw [given,Value.text_str]

-- A placeholder stands right in the root namespace, where no controller with a namespace of its own has its type.
theorem resolvedName_apart (left : c.Distinguishable) (viewOnly : c.isViewOnly = true) (backed : d.isViewOnly = false)
    (root : String) : c.resolvedName root ≠ d.resolvedName root := by
  intro same
  rw [resolvedName_viewOnly viewOnly,resolvedName_backed backed] at same
  have shown := congrArg String.toList same
  simp only [String.toList_append,List.append_assoc] at shown
  have inner := List.append_cancel_left (List.append_cancel_left shown)
  have dotless := placeholderName_dotless left.area left.name
  rw [Dotless,inner] at dotless
  exact dotless (by simp)

theorem resolvedName_eq_iff (left : c.Distinguishable) (right : d.Distinguishable) (root : String) :
    c.resolvedName root = d.resolvedName root ↔ Alike c d := by
  cases viewOnly : c.isViewOnly with
  | true =>
    cases viewOnlyToo : d.isViewOnly with
    | true =>
      have backless : ¬ c.ns.truthy = true := by simp [ns_truthy_iff,viewOnly]
      rw [Alike,or_iff_left fun both => backless both.1,resolvedName_viewOnly viewOnly,resolvedName_viewOnly viewOnlyToo,
        left.texts.area_eq,right.texts.area_eq,left.texts.name_eq,right.texts.name_eq]
      simp only [Value.text_str,Value.str.injEq,viewOnly,viewOnlyToo,true_and]
      constructor
      · intro same
        have identifiers := (dot_divides (placeholderName_dotless left.area left.name)
          (placeholderName_dotless right.area right.name) same).2
        exact placeholderName_unique (left.unmarked viewOnly) (right.unmarked viewOnlyToo) identifiers
      · rintro ⟨areas,names⟩
        rw [areas,names]
    | false =>
      refine iff_of_false (resolvedName_apart left viewOnly viewOnlyToo root) ?_
      rintro (⟨_,alsoViewOnly,_⟩ | ⟨backed,_⟩)
      · simp [viewOnlyToo] at alsoViewOnly
      · simp [ns_truthy_iff,viewOnly] at backed
  | false =>
    cases viewOnlyToo : d.isViewOnly with
    | true =>
      refine iff_of_false (resolvedName_apart right viewOnlyToo viewOnly root).symm ?_
      rintro (⟨alsoViewOnly,_⟩ | ⟨_,sameNs,_⟩)
      · simp [viewOnly] at alsoViewOnly
      · rw [isViewOnly,← sameNs,ns_truthy_iff.mpr viewOnly] at viewOnlyToo
        cases viewOnlyToo
    | false =>
      have notPlaceholders : ¬ (c.isViewOnly = true ∧ d.isViewOnly = true ∧ c.area = d.area ∧ c.name = d.name) := by
        simp [viewOnly]
      rw [Alike,or_iff_right notPlaceholders,and_iff_right (ns_truthy_iff.mpr viewOnly),resolvedName_backed viewOnly,
        resolvedName_backed viewOnlyToo,left.texts.ns_eq viewOnly,right.texts.ns_eq viewOnlyToo,left.texts.name_eq,
        right.texts.name_eq]
      simp only [Value.text_str,Value.str.injEq]
      constructor
      · intro same
        obtain ⟨namespaces,identifiers⟩ := dot_divides (className_dotless left.name) (className_dotless right.name) same
        have shown := congrArg String.toList namespaces
        simp only [String.toList_append] at shown
        exact ⟨String.toList_injective (List.append_cancel_left shown),className_injective identifiers⟩
      · rintro ⟨namespaces,names⟩
        rw [namespaces,names]

theorem Textual.viewOnlyClassName_ok (texts : c.Textual) {identifier : String}
    (identified : c.viewOnlyClassName = .ok identifier) :
    identifier = placeholderName c.area.text c.name.text := by
  cases named : c.name.truthy with
  | false =>
    rw [viewOnlyClassName,requireName_unnamed named] at identified
    cases identified
  | true =>
    rw [texts.viewOnlyClassName_named named] at identified
    exact (Except.ok.inj identified).symm

-- Under any settings, controllers that can be told apart resolve to one name exactly if they are alike; and view-only
-- controllers that are not alike can only share the identifier of a placeholder through a mark in a name.
theorem resolve_unambiguous {s : Settings} {root : String} (rooted : s.generatedNamespace = .str root) :
    (∀ c d : Controller, c.Distinguishable → d.Distinguishable → ∃ first second,
      c.resolve s.generatedNamespace = .ok first ∧ d.resolve s.generatedNamespace = .ok second ∧
        (first = second ↔ Alike c d)) ∧
    (∀ c d : Controller, c.Textual → d.Textual → c.isViewOnly = true → d.isViewOnly = true →
      (c.area,c.name) ≠ (d.area,d.name) → ∀ identifier, c.viewOnlyClassName = .ok identifier →
        d.viewOnlyClassName = .ok identifier → Marked c.name.text ∨ Marked d.name.text) := by
  constructor
  · intro c d left right
    rw [rooted]
    exact ⟨_,_,left.texts.resolve_named (left.texts.named_iff.mpr left.named) root,
      right.texts.resolve_named (right.texts.named_iff.mpr right.named) root,resolvedName_eq_iff left right root⟩
  · intro c d left right _ _ different identifier own another
    by_cases marked : Marked c.name.text
    · exact .inl marked
    · by_cases markedToo : Marked d.name.text
      · exact .inr markedToo
      · have same := (left.viewOnlyClassName_ok own).symm.trans (right.viewOnlyClassName_ok another)
        obtain ⟨areas,names⟩ := placeholderName_unique marked markedToo same
        refine absurd ?_ different
        rw [left.area_eq,right.area_eq,left.name_eq,right.name_eq,areas,names]

theorem distinguishable_ofTexts {name area : String} (ns generatedName : Option String) (named : name ≠ "")
    (dotless : Dotless name) (inArea : Dotless area) (unmarked : ¬ Marked name) :
    (ofTexts name ns area generatedName).Distinguishable where
  texts := textual_ofTexts name ns area generatedName
  named := by simpa [ofTexts] using named
  name := dotless
  area := inArea
  unmarked := fun _ => unmarked

theorem resolve_unambiguous_users :
    Settings.default.generatedNamespace = .str "R4Mvc" ∧
    (∃ first second,
      (ofTexts "Users" none "Admin" none).resolve Settings.default.generatedNamespace = .ok first ∧
      (ofTexts "Users" (some "") "Admin" (some "Stale")).resolve Settings.default.generatedNamespace = .ok second ∧
      first = second) ∧
    (Marked "Users" ∨ Marked "AdminArea_Users") := by
  have given : Settings.default.generatedNamespace = .str "R4Mvc" := rfl
  have each : ∀ ns generatedName, (ofTexts "Users" ns "Admin" generatedName).Distinguishable :=
    fun ns generatedName => distinguishable_ofTexts ns generatedName (by decide) (by decide) (by decide) (by decide)
  obtain ⟨alike,shared⟩ := resolve_unambiguous given
  obtain ⟨first,second,resolved,resolvedToo,same⟩ := alike _ _ (each none none) (each (some "") (some "Stale"))
  refine ⟨given,⟨first,second,resolved,resolvedToo,same.mpr (.inl ⟨rfl,rfl,rfl,rfl⟩)⟩,?_⟩
  exact shared (ofTexts "Users" none "Admin" none) (ofTexts "AdminArea_Users" none "" none) (textual_ofTexts ..)
    (textual_ofTexts ..) rfl rfl (by simp [ofTexts]) "AdminArea_UsersController" rfl rfl

end Controller
end TypedMvc
