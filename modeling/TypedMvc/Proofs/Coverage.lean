import Mathlib.Data.List.Forall2
import TypedMvc.Proofs.Grammar
import TypedMvc.Proofs.Plan

namespace TypedMvc

open CSharp Synthesis

-- The class stands for the view-only controllers of an area and a name: it can be made without arguments and tells both.
structure StandsFor (root : String) (key : Key) (made : ClassDef) : Prop where
  identifier : ∀ c : Controller, c.area = .str key.area → c.name = .str key.name →
    c.viewOnlyClassName = .ok made.identifier
  ns : made.ns = root
  constructors : made.constructors.map (fun k => (k.isPublic,k.arity)) = [(true,0)]
  fields : made.fields.map (fun f => (f.name,f.initializer)) =
    (.str "Name",some (stringLiteral key.name)) ::
      if key.area = "" then [] else [(.str "Area",some (stringLiteral key.area))]

theorem placeholderOf_standsFor (root : String) {key : Key} (named : key.name ≠ "") :
    StandsFor root key (placeholderOf root key) := by
  refine ⟨fun c areas names => Controller.viewOnlyClassName_texts named areas names,rfl,?_,?_⟩
  · by_cases inRoot : key.area = ""
    · simp only [placeholderOf,if_pos inRoot]
      rfl
    · simp only [placeholderOf,if_neg inRoot]
      rfl
  · by_cases inRoot : key.area = ""
    · simp only [placeholderOf,if_pos inRoot]
      rfl
    · simp only [placeholderOf,if_neg inRoot]
      rfl

theorem not_lt_empty (s : String) : ¬ s < "" := by
  intro less
  rw [String.lt_iff_toList_lt] at less
  exact List.not_lt_nil _ less

namespace Generation

variable {target : Target} {cs : List Controller}

-- The classes cover the view-only controllers and nothing else. The controllers are given as they went into the stage
-- and as they came out of it.
structure Covers (root : String) (cs final : List Controller) (keys : List Key) (made : Key → ClassDef) : Prop where
  ascending : keys.Pairwise fun k l => k.area < l.area ∨ k.area = l.area ∧ k.name < l.name
  rootFirst : keys.Pairwise fun k l => l.area = "" → k.area = ""
  mem_keys : ∀ key, key ∈ keys ↔
    ∃ c ∈ cs, (c.ns = .null ∨ c.ns = .str "") ∧ c.area = .str key.area ∧ c.name = .str key.name
  classes : ∀ key ∈ keys, StandsFor root key (made key)
  called : List.Forall₂ (fun c d => (c.ns = .null ∨ c.ns = .str "") →
    ∀ key : Key, c.area = .str key.area → c.name = .str key.name →
      d = { c with generatedName := .str (root ++ "." ++ (made key).identifier) }) cs final

theorem mem_placeholderKeys_texts (texts : ∀ c ∈ cs, c.Textual) {key : Key} :
    key ∈ placeholderKeys cs ↔
      ∃ c ∈ cs, (c.ns = .null ∨ c.ns = .str "") ∧ c.area = .str key.area ∧ c.name = .str key.name := by
  rw [mem_placeholderKeys]
  refine exists_congr fun c => and_congr_right fun member => and_congr (texts c member).isViewOnly_iff ?_
  rw [(texts c member).area_eq_iff,(texts c member).name_eq_iff]
  constructor
  · rintro rfl
    exact ⟨rfl,rfl⟩
  · rintro ⟨areas,names⟩
    exact Key.ext areas names

theorem placeholderClasses_cover {s : Settings} (accepted : s.validate = .ok target) (texts : ∀ c ∈ cs, c.Textual)
    (named : ∀ c ∈ cs, c.isViewOnly = true → c.name ≠ .str "") :
    s.generatedNamespace = .str target.root ∧
    ∃ keys made, (placeholderClasses target cs).outcome = .ok (keys.map made) ∧
      Covers target.root cs (written (placeholderClasses target cs).trace cs) keys made := by
  obtain ⟨outcome,wrote⟩ := placeholderClasses_named target texts ((unnamed_viewOnly_eq_none texts).mpr named)
  have strict : (placeholderKeys cs).Pairwise fun k l => k.area < l.area ∨ k.area = l.area ∧ k.name < l.name :=
    (ascending_lt _).imp fun less => Prod.Lex.lt_iff.mp less
  refine ⟨Settings.generatedNamespace_eq accepted,placeholderKeys cs,placeholderOf target.root,outcome,?_⟩
  exact {
    ascending := strict
    rootFirst := by
      refine strict.imp ?_
      rintro k l (less | ⟨same,_⟩) inRoot
      · rw [inRoot] at less
        exact absurd less (not_lt_empty _)
      · rw [same,inRoot]
    mem_keys := fun key => mem_placeholderKeys_texts texts
    classes := by
      intro key member
      refine placeholderOf_standsFor target.root ?_
      obtain ⟨c,present,viewOnly,rfl⟩ := mem_placeholderKeys.mp member
      have given := named c present viewOnly
      rwa [ne_eq,(texts c present).name_eq_iff] at given
    called := by
      rw [wrote,List.forall₂_map_right_iff,List.forall₂_same]
      intro c member viewOnly key areas names
      have alone := (texts c member).isViewOnly_iff.mpr viewOnly
      rw [Controller.prepared_viewOnly alone,Controller.renamed,Controller.resolvedName,if_pos alone,areas,names]
      rfl
  }

def doubled : List Controller :=
  [.ofTexts "Cart" (some "") "Shop" (some "Stale"),.ofTexts "Home" (some "Shop.Controllers") "" none,
    .ofTexts "About" none "" none,.ofTexts "Cart" none "Shop" none]

theorem doubled_textual : ∀ c ∈ doubled, c.Textual := by
  simp [doubled,Controller.textual_ofTexts]

theorem placeholderClasses_cover_doubled :
    Settings.default.validate = .ok ⟨"R4Mvc","MVC"⟩ ∧ (∀ c ∈ doubled, c.Textual) ∧
    (∀ c ∈ doubled, c.isViewOnly = true → c.name ≠ .str "") ∧
    ∃ keys made, (placeholderClasses ⟨"R4Mvc","MVC"⟩ doubled).outcome = .ok (keys.map made) ∧
      Covers "R4Mvc" doubled (written (placeholderClasses ⟨"R4Mvc","MVC"⟩ doubled).trace doubled) keys made := by
  have named : ∀ c ∈ doubled, c.isViewOnly = true → c.name ≠ .str "" := by
    simp [doubled,Controller.ofTexts]
  exact ⟨Settings.default_accepted,doubled_textual,named,
    (placeholderClasses_cover Settings.default_accepted doubled_textual named).2⟩

end Generation
end TypedMvc
