import TypedMvc.Proofs.Plan

namespace TypedMvc.Generation

open CSharp Synthesis

-- A change of a named controller that no navigation class shows: of a controller these take its name, the area that it
-- counts to, and the field that it gets.
structure Hidden (root : String) (f : Controller → Controller) (c : Controller) : Prop where
  named : ∃ s, s ≠ "" ∧ c.name = .str s
  name : (f c).name = c.name
  area : ∃ s, c.areaKey = .str s ∧ (f c).areaKey = .str s
  field : ∀ isStatic position,
    instanceFieldOf root isStatic (f c,position) = instanceFieldOf root isStatic (c,position)

def changed (f : Controller → Controller) (p : Controller × Nat) : Controller × Nat := (f p.1,p.2)

section Hidden

variable {root : String} {f : Controller → Controller} {c : Controller} {cs : List Controller}
  {l : List (Controller × Nat)}

theorem Hidden.truthy (hidden : Hidden root f c) : c.name.truthy = true := by
  obtain ⟨s,given,equal⟩ := hidden.named
  simpa [equal] using given

theorem Hidden.name_eq (hidden : Hidden root f c) : c.name = .str c.name.text := by
  obtain ⟨s,_,equal⟩ := hidden.named
  rw [equal,Value.text_str]

theorem firstsByName_changed (hidden : ∀ p ∈ l, Hidden root f p.1) :
    firstsByName (·.1) (l.map (changed f)) = (firstsByName (·.1) l).map (changed f) :=
  firstsByName_map fun p member => (hidden p member).name

theorem uniqueByName_hidden (hidden : ∀ p ∈ l, Hidden root f p.1) :
    uniqueByName (·.1) l = .ok (firstsByName (·.1) l) :=
  uniqueByName_named (fun p member => (hidden p member).name_eq) fun p member => (hidden p member).truthy

theorem uniqueByName_changed (hidden : ∀ p ∈ l, Hidden root f p.1) :
    uniqueByName (·.1) (l.map (changed f)) = .ok ((firstsByName (·.1) l).map (changed f)) := by
  rw [← firstsByName_changed hidden]
  refine uniqueByName_named ?_ ?_
  · intro p member
    obtain ⟨q,old,rfl⟩ := List.mem_map.mp member
    rw [changed,(hidden q old).name,← (hidden q old).name_eq]
  · intro p member
    obtain ⟨q,old,rfl⟩ := List.mem_map.mp member
    rw [changed,(hidden q old).name,(hidden q old).truthy]

theorem instanceFields_changed (isStatic : Bool) (hidden : ∀ p ∈ l, Hidden root f p.1) :
    instanceFields root isStatic (l.map (changed f)) = instanceFields root isStatic l := by
  induction l with
  | nil => rfl
  | cons p rest ih =>
    rw [List.map_cons,instanceFields,instanceFields,changed,(hidden p List.mem_cons_self).field,
      ih fun q member => hidden q (List.mem_cons_of_mem _ member)]

theorem areaClass_changed (area : Value) (hidden : ∀ p ∈ l, Hidden root f p.1) :
    areaClass root area (l.map (changed f)) = areaClass root area l := by
  have chosen : ∀ p ∈ firstsByName (·.1) l, Hidden root f p.1 := fun p member => hidden p (firstsByName_subset member)
  rw [areaClass,areaClass,uniqueByName_changed hidden,uniqueByName_hidden hidden,Run.settled_ok_bind,
    Run.settled_ok_bind,instanceFields_changed false chosen,List.length_map]

theorem areaClassesFrom_changed {groups others : Grouping}
    (grouped : ∀ area, groupOf (.str area) others = (groupOf (.str area) groups).map (changed f))
    (hidden : ∀ area, ∀ p ∈ groupOf (.str area) groups, Hidden root f p.1) (areas : List String) :
    areaClassesFrom root others (areas.map .str) = areaClassesFrom root groups (areas.map .str) := by
  induction areas with
  | nil => rfl
  | cons area rest ih =>
    rw [List.map_cons,areaClassesFrom,areaClassesFrom,grouped,areaClass_changed _ (hidden area),ih]

theorem byArea_changed (hidden : ∀ c ∈ cs, Hidden root f c) :
    ∃ (groups others : Grouping) (areas : List String), byArea cs.zipIdx = .ok groups ∧
      byArea (cs.map f).zipIdx = .ok others ∧
      (∀ area, groupOf (.str area) others = (groupOf (.str area) groups).map (changed f)) ∧
      (∀ area, ∀ p ∈ groupOf (.str area) groups, Hidden root f p.1) ∧
      sortedAreas groups = .ok (areas.map .str) ∧ sortedAreas others = .ok (areas.map .str) := by
  have keys : ∀ c ∈ cs, c.areaKey = .str c.areaKey.text ∧ (f c).areaKey.text = c.areaKey.text := by
    intro c member
    obtain ⟨s,own,other⟩ := (hidden c member).area
    simp [own,other]
  have otherKeys : ∀ c ∈ cs.map f, c.areaKey = .str c.areaKey.text := by
    intro c member
    obtain ⟨d,old,rfl⟩ := List.mem_map.mp member
    obtain ⟨s,_,other⟩ := (hidden d old).area
    rw [other,Value.text_str]
  obtain ⟨groups,grouped,members,sorted⟩ := byArea_keyed (fun c => c.areaKey.text) fun c member => (keys c member).1
  obtain ⟨others,otherGrouped,otherMembers,otherSorted⟩ := byArea_keyed (fun c => c.areaKey.text) otherKeys
  have areas : (cs.map f).map (fun c => c.areaKey.text) = cs.map fun c => c.areaKey.text := by
    rw [List.map_map]
    exact List.map_congr_left fun c member => (keys c member).2
  rw [areas] at otherSorted
  refine ⟨groups,others,_,grouped,otherGrouped,?_,?_,sorted,otherSorted⟩
  · intro area
    have positions : (cs.map f).zipIdx = cs.zipIdx.map (changed f) := List.zipIdx_map
    rw [members,otherMembers,positions,List.filter_map]
    refine congrArg _ (List.filter_congr ?_)
    intro p member
    simp only [Function.comp_apply,changed,(keys p.1 (List.fst_mem_of_mem_zipIdx member)).2]
  · intro area p member
    rw [members] at member
    exact hidden p.1 (List.fst_mem_of_mem_zipIdx (List.mem_filter.mp member).1)

end Hidden

variable {target : Target} {f : Controller → Controller} {cs : List Controller}

theorem areaClasses_changed (hidden : ∀ c ∈ cs, Hidden target.root f c) :
    areaClasses target (cs.map f) = areaClasses target cs := by
  obtain ⟨groups,others,areas,grouped,otherGrouped,members,known,sorted,otherSorted⟩ := byArea_changed hidden
  rw [areaClasses,areaClasses,grouped,otherGrouped,Run.settled_ok_bind,Run.settled_ok_bind,Synthesis.areaClasses,
    Synthesis.areaClasses,sorted,otherSorted,Run.settled_ok_bind,Run.settled_ok_bind,areaClassesFrom_changed members known]

theorem helpersClass_changed (hidden : ∀ c ∈ cs, Hidden target.root f c) :
    helpersClass target (cs.map f) = helpersClass target cs := by
  obtain ⟨groups,others,areas,grouped,otherGrouped,members,known,sorted,otherSorted⟩ := byArea_changed hidden
  have chosen : ∀ p ∈ firstsByName (·.1) (groupOf (.str "") groups), Hidden target.root f p.1 :=
    fun p member => known "" p (firstsByName_subset member)
  rw [helpersClass,helpersClass,grouped,otherGrouped,Run.settled_ok_bind,Run.settled_ok_bind,Synthesis.helpersClass,
    Synthesis.helpersClass,sorted,otherSorted,Run.settled_ok_bind,Run.settled_ok_bind,members,
    uniqueByName_changed (known ""),uniqueByName_hidden (known ""),Run.settled_ok_bind,Run.settled_ok_bind,
    instanceFields_changed true chosen]

end TypedMvc.Generation
