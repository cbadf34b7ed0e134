import TypedMvc.Proofs.Misfit
import TypedMvc.Proofs.Rows
import TypedMvc.Proofs.Vocabulary

namespace TypedMvc

open CSharp Synthesis

namespace Controller

-- The controller with the text of its namespace, or none where it has none. A namespace is shown once, when a name is
-- resolved, and after that it only matters whether there is one.
def spelled (c : Controller) : Controller := { c with ns := if c.ns.truthy then .str c.ns.text else .null }

-- A controller with a name of its own and an area that is a text. Its namespace may be anything, but then its generated
-- name is there already.
structure Spellable (c : Controller) : Prop where
  name : ∃ s, s ≠ "" ∧ c.name = .str s
  area : ∃ s, c.area = .str s
  ns : c.ns = .null ∨ c.ns.truthy = true ∧ c.generatedName.truthy = true
  generatedName : c.generatedName = .null ∨ ∃ s, c.generatedName = .str s

@[simp] theorem spelled_name (c : Controller) : c.spelled.name = c.name := rfl

@[simp] theorem spelled_area (c : Controller) : c.spelled.area = c.area := rfl

@[simp] theorem spelled_generatedName (c : Controller) : c.spelled.generatedName = c.generatedName := rfl

@[simp] theorem spelled_isViewOnly (c : Controller) : c.spelled.isViewOnly = c.isViewOnly := by
  unfold isViewOnly spelled
  cases present : c.ns.truthy with
  | false => rfl
  | true => simpa using Value.text_ne_empty present

variable {c : Controller}

theorem Spellable.textual (spellable : c.Spellable) : c.spelled.Textual where
  name := spellable.name.imp fun _ both => both.2
  area := spellable.area
  ns := by
    unfold spelled
    split
    · exact .inr ⟨_,rfl⟩
    · exact .inl rfl
  generatedName := spellable.generatedName

theorem Spellable.named (spellable : c.Spellable) : c.name.truthy = true := by
  obtain ⟨s,given,equal⟩ := spellable.name
  simpa [equal] using given

theorem Spellable.spelled_eq (spellable : c.Spellable) (viewOnly : c.isViewOnly = true) : c.spelled = c := by
  have absent : c.ns = .null := by
    refine spellable.ns.resolve_right ?_
    rintro ⟨present,_⟩
    simp [isViewOnly,present] at viewOnly
  cases c
  subst absent
  rfl

theorem Spellable.renamed (spellable : c.Spellable) {name : String} (given : name ≠ "") :
    Spellable { c with generatedName := .str name } where
  name := spellable.name
  area := spellable.area
  ns := spellable.ns.imp_right fun both => ⟨both.1,by simpa using given⟩
  generatedName := .inr ⟨name,rfl⟩

end Controller

open Controller

theorem written_spelled (trace : List Event) (cs : List Controller) :
    written trace (cs.map spelled) = (written trace cs).map spelled :=
  written_commutes (fun _ _ => rfl) trace cs

theorem written_spellable {trace : List Event} {cs : List Controller}
    (given : ∀ entry ∈ namings trace, entry.2 ≠ "") (spellable : ∀ c ∈ cs, c.Spellable) :
    ∀ c ∈ written trace cs, c.Spellable :=
  written_each (fun entry member _ old => old.renamed (given entry member)) spellable

namespace Generation

variable {target : Target} {cs : List Controller}

theorem spelled_textual (spellable : ∀ c ∈ cs, c.Spellable) : ∀ c ∈ cs.map spelled, c.Textual := by
  intro c member
  obtain ⟨d,old,rfl⟩ := List.mem_map.mp member
  exact (spellable d old).textual

-- The placeholder stage only sees view-only controllers, and those have no namespace to be spelled.
theorem placeholderClasses_spelled (target : Target) (spellable : ∀ c ∈ cs, c.Spellable) :
    placeholderClasses target (cs.map spelled) = placeholderClasses target cs := by
  have viewOnly : ((cs.map spelled).zipIdx.filter fun p => p.1.isViewOnly) = cs.zipIdx.filter fun p => p.1.isViewOnly := by
    rw [List.zipIdx_map,List.filter_map]
    have same : ((fun p : Controller × Nat => p.1.isViewOnly) ∘ Prod.map spelled id) = fun p => p.1.isViewOnly := by
      funext p
      exact spelled_isViewOnly p.1
    rw [same]
    refine (List.map_congr_left ?_).trans (List.map_id _)
    intro p member
    obtain ⟨present,alone⟩ := List.mem_filter.mp member
    exact Prod.ext ((spellable p.1 (List.fst_mem_of_mem_zipIdx present)).spelled_eq alone) rfl
  simp only [placeholderClasses,placeholders,candidates,viewOnly]

theorem hidden_spelled {c : Controller} (spellable : c.Spellable) (root : String) : Hidden root spelled c where
  named := spellable.name
  name := rfl
  area := by
    obtain ⟨area,inside⟩ := spellable.area
    have key : c.areaKey = .str area := by
      rw [areaKey,inside]
      by_cases empty : area = "" <;> simp [Value.orElse,empty]
    exact ⟨area,key,key⟩
  field := by
    intro isStatic position
    cases viewOnly : c.isViewOnly with
    | true => rw [spellable.spelled_eq viewOnly]
    | false =>
      have given : c.generatedName.truthy = true := by
        rcases spellable.ns with absent | ⟨_,given⟩
        · simp [isViewOnly,absent] at viewOnly
        · exact given
      simp only [instanceFieldOf,spelled_generatedName,given,if_true,spelled_name]

theorem placeholderClasses_given (target : Target) (spellable : ∀ c ∈ cs, c.Spellable) :
    ∀ entry ∈ namings (placeholderClasses target cs).trace, entry.2 ≠ "" := by
  have named : unnamed ((cs.map spelled).filter isViewOnly) = none := by
    refine unnamed_eq_none.mpr ?_
    intro c member
    obtain ⟨d,old,rfl⟩ := List.mem_map.mp (List.mem_filter.mp member).1
    exact (spellable d old).named
  intro entry member
  rw [← placeholderClasses_spelled target spellable] at member
  obtain ⟨c,_,_,equal⟩ := (mem_namings_placeholders target (spelled_textual spellable) named).mp member
  rw [equal]
  exact resolvedName_ne_empty target.root c

theorem areaClasses_spelled (target : Target) (spellable : ∀ c ∈ cs, c.Spellable) :
    areaClasses target (cs.map spelled) = areaClasses target cs :=
  areaClasses_changed fun c member => hidden_spelled (spellable c member) target.root

theorem areaClasses_given (target : Target) (spellable : ∀ c ∈ cs, c.Spellable) :
    ∀ entry ∈ namings (areaClasses target cs).trace, entry.2 ≠ "" := by
  intro entry member
  rw [← areaClasses_spelled target spellable] at member
  obtain ⟨_,fills,_⟩ := areaClasses_texts target (spelled_textual spellable)
  obtain ⟨c,_,_,equal⟩ := fills entry member
  rw [equal]
  exact resolvedName_ne_empty target.root c

theorem helpersClass_spelled (target : Target) (spellable : ∀ c ∈ cs, c.Spellable) :
    helpersClass target (cs.map spelled) = helpersClass target cs :=
  helpersClass_changed fun c member => hidden_spelled (spellable c member) target.root

theorem generate_spelled (target : Target) (spellable : ∀ c ∈ cs, c.Spellable) :
    (generate target (cs.map spelled)).outcome = (generate target cs).outcome := by
  have first := written_spellable (placeholderClasses_given target spellable) spellable
  have second := written_spellable (areaClasses_given target first) first
  rw [generate_eq,generate_eq,placeholderClasses_spelled target spellable,written_spelled]
  congr 1
  funext viewOnly
  simp only [afterPlaceholders,sequenced,areaClasses_spelled target first,written_spelled,
    helpersClass_spelled target second]

theorem anything : Vocabulary (fun _ => True) (fun _ => True) := by
  constructor <;> simp

theorem made_typed {c : ClassDef} (made : Made (fun _ => True) (fun _ => True) target c) : ∀ m ∈ c.members, m.Typed := by
  cases made with
  | grouping _ _ members isStatic =>
    intro m member
    cases members m member with
    | bare => trivial
    | label _ _ => exact ⟨_,rfl⟩
    | handle _ _ _ => exact ⟨_,rfl⟩
  | wrapper among =>
    have properties : ∀ m ∈ wrapperProperties, m.Typed := by
      intro m member
      obtain ⟨entry,_,rfl⟩ := List.mem_map.mp member
      exact ⟨_,rfl⟩
    have members : ∀ own ∈ wrappers target.root, ∀ m ∈ own.members, m.Typed := by
      intro own inside m member
      simp only [wrappers,List.mem_cons,List.not_mem_nil,or_false] at inside
      rcases inside with rfl | rfl <;>
      · rcases List.mem_cons.mp member with rfl | property
        · trivial
        · exact properties m property
    exact members c among

theorem generate_typed (present : target.helpers ≠ "") (texts : ∀ c ∈ cs, c.Textual) {classes : List ClassDef}
    (succeeded : (generate target cs).outcome = .ok classes) : ∀ c ∈ classes, ∀ m ∈ c.members, m.Typed := by
  have within : ∀ c ∈ cs, c.Within (fun _ => True) fun _ => True := by
    intro c member
    obtain ⟨name,area,ns,generatedName⟩ := texts c member
    exact ⟨name.imp fun _ equal => ⟨equal,trivial⟩,area.imp fun _ equal => ⟨equal,.inr trivial⟩,
      ns.imp_right fun given => given.imp fun _ equal => ⟨equal,.inr trivial⟩,
      generatedName.imp_right fun given => given.imp fun _ equal => ⟨equal,.inr trivial⟩⟩
  exact fun c member => made_typed (generate_made anything trivial trivial present within succeeded c member)

theorem printFile_generated (present : target.helpers ≠ "") (texts : ∀ c ∈ cs, c.Textual) {classes : List ClassDef}
    (succeeded : (generate target cs).outcome = .ok classes) (layout : Layout) :
    ∃ text, printFile layout classes = .ok text := by
  rw [printFile,fileText_typed (generate_typed present texts succeeded)]
  exact ⟨_,rfl⟩

end Generation
end TypedMvc
