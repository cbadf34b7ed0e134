import Mathlib.Data.List.Forall2
import TypedMvc.Proofs.Grammar
import TypedMvc.Proofs.Outcome

namespace TypedMvc

open CSharp Synthesis

-- The controller is left alone, or it had no generated name and has the one that it resolves to.
def Filled (root : String) (c d : Controller) : Prop :=
  d = c ∨ c.generatedName.truthy = false ∧ c.name.truthy = true ∧ d = c.renamed root

theorem Filled.trans {root : String} {c d e : Controller} (first : Filled root c d) (second : Filled root d e) :
    Filled root c e := by
  rcases first with rfl | ⟨empty,named,rfl⟩
  · exact second
  · rcases second with rfl | ⟨again,_,_⟩
    · exact .inr ⟨empty,named,rfl⟩
    · rw [Generation.renamed_truthy] at again
      cases again

theorem filled_trans {root : String} {cs ds es : List Controller} (first : List.Forall₂ (Filled root) cs ds)
    (second : List.Forall₂ (Filled root) ds es) : List.Forall₂ (Filled root) cs es := by
  induction first generalizing es with
  | nil => exact second
  | cons step _ ih =>
    cases second with
    | cons next rest => exact .cons (step.trans next) (ih rest)

namespace Generation

variable {target : Target} {cs : List Controller}

theorem FillsOnly.filled {root : String} {trace : List Event} (fills : FillsOnly root cs trace)
    (named : NamesNamed cs trace) : List.Forall₂ (Filled root) cs (written trace cs) := by
  refine List.forall₂_iff_get.mpr ⟨(length_written trace cs).symm,?_⟩
  intro position inside after
  have new := List.getElem?_eq_getElem after
  have old := List.getElem?_eq_getElem inside
  rw [written_getElem? fills.resolved,old,Option.map_some,Option.some.injEq] at new
  rw [List.get_eq_getElem,List.get_eq_getElem,← new]
  by_cases renamed : position ∈ (namings trace).map Prod.fst
  · obtain ⟨entry,member,rfl⟩ := List.mem_map.mp renamed
    obtain ⟨c,found,empty,_⟩ := fills entry member
    obtain ⟨d,again,present⟩ := named entry member
    rw [old] at found again
    cases found
    cases again
    rw [if_pos renamed]
    exact .inr ⟨empty,present,rfl⟩
  · rw [if_neg renamed]
    exact .inl rfl

theorem generate_unnamed (target : Target) (texts : ∀ c ∈ cs, c.Textual) {failure : Failure}
    (missing : unnamed (cs.filter Controller.isViewOnly) = some failure) :
    (generate target cs).outcome = .error failure ∧ written (generate target cs).trace cs = cs := by
  rw [generate,Run.note_bind,sequenced,placeholderClasses_unnamed target texts missing]
  exact ⟨rfl,rfl⟩

-- Otherwise all view-only controllers are renamed, and no later stage does more than fill in, wherever it ends.
theorem generate_filled (target : Target) (present : target.helpers ≠ "") (texts : ∀ c ∈ cs, c.Textual)
    (named : unnamed (cs.filter Controller.isViewOnly) = none) :
    List.Forall₂ (Filled target.root) (cs.map (Controller.prepared target.root))
      (written (generate target cs).trace cs) := by
  obtain ⟨outcome,wrote⟩ := placeholderClasses_named target texts named
  have preparedTexts := prepared_texts target.root texts
  obtain ⟨areasOutcome,areasFill,_⟩ := areaClasses_texts target preparedTexts
  have areasFilled := areasFill.filled (areaClasses_named target preparedTexts)
  cases fault : areasFault target.root (cs.map (Controller.prepared target.root)) with
  | some failure =>
    rw [fault,faultOr_some] at areasOutcome
    rw [generate,Run.note_bind,written_cons,Event.applied,sequenced,Run.bind_of_ok _ outcome,written_append,wrote,
      sequenced,Run.bind_of_error _ areasOutcome]
    exact areasFilled
  | none =>
    have middleTexts := written_texts (areaClasses target (cs.map (Controller.prepared target.root))).trace preparedTexts
    obtain ⟨_,helpersFill,_⟩ := helpersClass_plan target present middleTexts
    rw [generate_written target texts named fault]
    exact filled_trans areasFilled (helpersFill.filled (helpersClass_named target present middleTexts))

end Generation

-- All that counts as metadata stays, and so does the generated name of a controller with a namespace and such a name.
def Preserved (c d : Controller) : Prop :=
  d.name = c.name ∧ d.ns = c.ns ∧ d.area = c.area ∧
    (c.ns.truthy = true → c.generatedName.truthy = true → d.generatedName = c.generatedName)

def CalledAsResolved (root : Value) (c d : Controller) : Prop :=
  ∃ name, c.resolve root = .ok name ∧ d.generatedName = .str name

variable {root : String} {c d : Controller}

theorem Filled.preserved (filled : Filled root (c.prepared root) d) : Preserved c d := by
  have backed : c.ns.truthy = true → c.prepared root = c := by
    intro given
    refine Controller.prepared_backed ?_ root
    rw [Controller.isViewOnly,given]
    rfl
  rcases filled with rfl | ⟨empty,_,rfl⟩
  · refine ⟨c.prepared_name root,c.prepared_ns root,c.prepared_area root,?_⟩
    intro given _
    rw [backed given]
  · refine ⟨c.prepared_name root,c.prepared_ns root,c.prepared_area root,?_⟩
    intro given labelled
    rw [backed given,labelled] at empty
    cases empty

theorem Filled.called (filled : Filled root (c.prepared root) d) (texts : c.Textual) (viewOnly : c.isViewOnly = true)
    (named : c.name.truthy = true) : CalledAsResolved (.str root) c d := by
  rw [Controller.prepared_viewOnly viewOnly] at filled
  rcases filled with rfl | ⟨empty,_,_⟩
  · exact ⟨_,texts.resolve_named named root,rfl⟩
  · rw [Generation.renamed_truthy] at empty
    cases empty

theorem Filled.kept_or_called (filled : Filled root (c.prepared root) d) (texts : c.Textual)
    (backed : c.isViewOnly = false) : d.generatedName = c.generatedName ∨ CalledAsResolved (.str root) c d := by
  rw [Controller.prepared_backed backed] at filled
  rcases filled with rfl | ⟨_,named,rfl⟩
  · exact .inl rfl
  · exact .inr ⟨_,texts.resolve_named named root,rfl⟩

namespace Generation

variable {target : Target} {cs : List Controller}

-- What is known of the controllers after a run from what they were before it and how the run ended.
structure Leaves (root : Value) (outcome : Except Failure (List ClassDef)) (cs final : List Controller) : Prop where
  preserved : List.Forall₂ Preserved cs final
  succeeded : ∀ classes, outcome = .ok classes →
    List.Forall₂ (fun c d => c.isViewOnly = true → CalledAsResolved root c d) cs final
  missing : (∃ c ∈ cs, c.isViewOnly = true ∧ c.name = .str "") →
    (∃ area ns, outcome = .error (.unnamedController area ns)) ∧ final = cs
  failed : ∀ failure, outcome = .error failure → (∀ c ∈ cs, c.isViewOnly = true → c.name ≠ .str "") →
    List.Forall₂ (fun c d => (c.isViewOnly = true → CalledAsResolved root c d) ∧
      (c.isViewOnly = false → c.generatedName.truthy = false →
        d.generatedName = c.generatedName ∨ CalledAsResolved root c d)) cs final

theorem generate_leaves {s : Settings} (accepted : s.validate = .ok target) (texts : ∀ c ∈ cs, c.Textual) :
    Leaves s.generatedNamespace (generate target cs).outcome cs (written (generate target cs).trace cs) := by
  rw [Settings.generatedNamespace_eq accepted]
  -- without a name to sort by nothing is written, and otherwise no stage does more than fill in, wherever the run ends
  cases missing : unnamed (cs.filter Controller.isViewOnly) with
  | some failure =>
    obtain ⟨outcome,wrote⟩ := generate_unnamed target texts missing
    obtain ⟨c,_,rfl⟩ := Option.map_eq_some_iff.mp missing
    rw [outcome,wrote]
    exact {
      preserved := List.forall₂_same.mpr fun _ _ => ⟨rfl,rfl,rfl,fun _ _ => rfl⟩
      succeeded := by
        intro classes succeeded
        cases succeeded
      missing := fun _ => ⟨⟨c.area,c.ns,rfl⟩,rfl⟩
      failed := by
        intro failure _ named
        rw [(unnamed_viewOnly_eq_none texts).mpr named] at missing
        cases missing
    }
  | none =>
    have named := (unnamed_viewOnly_eq_none texts).mp missing
    have filled := generate_filled target (Settings.helpers_ne_empty accepted) texts missing
    rw [List.forall₂_map_left_iff] at filled
    have known : ∀ c ∈ cs, c.Textual ∧ (c.isViewOnly = true → c.name.truthy = true) :=
      fun c member => ⟨texts c member,fun viewOnly => (texts c member).named_iff.mpr (named c member viewOnly)⟩
    have each : List.Forall₂ (fun c d => (c.isViewOnly = true → CalledAsResolved (.str target.root) c d) ∧
        (c.isViewOnly = false → d.generatedName = c.generatedName ∨ CalledAsResolved (.str target.root) c d)) cs
        (written (generate target cs).trace cs) := by
      refine ((List.forall₂_and_left cs _).mpr ⟨known,filled⟩).imp ?_
      rintro c d ⟨⟨cTexts,cNamed⟩,cFilled⟩
      exact ⟨fun viewOnly => cFilled.called cTexts viewOnly (cNamed viewOnly),cFilled.kept_or_called cTexts⟩
    exact {
      preserved := filled.imp fun _ _ cFilled => cFilled.preserved
      succeeded := fun _ _ => each.imp fun _ _ both => both.1
      missing := by
        rintro ⟨c,member,viewOnly,nameless⟩
        exact absurd nameless (named c member viewOnly)
      failed := fun _ _ _ => each.imp fun _ _ both => ⟨both.1,fun backed _ => both.2 backed⟩
    }

-- The first area goes well and fills in a name; the field that tells the second one is taken by a controller.
def interrupted : List Controller :=
  [.ofTexts "Cart" none "Admin" (some "Stale"),.ofTexts "Users" (some "Shop.Admin") "Admin" none,
    .ofTexts "Name" (some "Shop.Carts") "Shop" none]

theorem interrupted_textual : ∀ c ∈ interrupted, c.Textual := by
  simp [interrupted,Controller.textual_ofTexts]

theorem interrupted_fault : fault ⟨"R4Mvc","MVC"⟩ interrupted =
    some (.duplicateMember (.str "Name") "ShopAreaClass" "R4Mvc") := by
  have viewOnly : unnamed (interrupted.filter Controller.isViewOnly) = none := rfl
  have areas : namedAreas interrupted = ["Admin","Shop"] := by
    refine ascending_unique (ascending_lt _) (by decide) ?_
    intro area
    have occurs : (∃ c ∈ interrupted, c.area.text = area) ↔ area = "Admin" ∨ area = "Shop" := by
      simp [interrupted,Controller.ofTexts,eq_comm]
    rw [List.mem_cons,List.mem_singleton,← occurs]
    refine mem_namedAreas.trans (and_iff_right_of_imp ?_)
    intro present
    rcases occurs.mp present with rfl | rfl <;> decide
  have admin : areaFault "R4Mvc" "Admin" (inArea "Admin" interrupted) = none := by
    have free : "Name" ∉ namesOf (inArea "Admin" interrupted) := by
      simp [mem_namesOf,mem_inArea,interrupted,Controller.ofTexts]
    rw [areaFault,Option.or_eq_none_iff,repeatedMember_eq_none,List.nodup_cons]
    exact ⟨rfl,free,nodup_ascending _⟩
  have shop : areaFault "R4Mvc" "Shop" (inArea "Shop" interrupted) =
      some (.duplicateMember (.str "Name") "ShopAreaClass" "R4Mvc") := by
    have alone : inArea "Shop" interrupted = [.ofTexts "Name" (some "Shop.Carts") "Shop" none] := rfl
    have names : namesOf (inArea "Shop" interrupted) = ["Name"] := by
      simp [alone,namesOf,ascending,Controller.ofTexts]
    rw [areaFault,names]
    rfl
  rw [fault,viewOnly,areasFault,areas,List.findSome?_cons,admin,List.findSome?_cons,shop]
  rfl

theorem generate_leaves_interrupted :
    Settings.default.validate = .ok ⟨"R4Mvc","MVC"⟩ ∧ (∀ c ∈ interrupted, c.Textual) ∧
    (generate ⟨"R4Mvc","MVC"⟩ interrupted).outcome = .error (.duplicateMember (.str "Name") "ShopAreaClass" "R4Mvc") ∧
    Leaves Settings.default.generatedNamespace (generate ⟨"R4Mvc","MVC"⟩ interrupted).outcome interrupted
      (written (generate ⟨"R4Mvc","MVC"⟩ interrupted).trace interrupted) := by
  have failed : (generate ⟨"R4Mvc","MVC"⟩ interrupted).outcome =
      .error (.duplicateMember (.str "Name") "ShopAreaClass" "R4Mvc") := by
    rw [generate_outcome ⟨"R4Mvc","MVC"⟩ (by decide) interrupted_textual,interrupted_fault,faultOr_some]
  exact ⟨Settings.default_accepted,interrupted_textual,failed,
    generate_leaves Settings.default_accepted interrupted_textual⟩

end Generation
end TypedMvc
