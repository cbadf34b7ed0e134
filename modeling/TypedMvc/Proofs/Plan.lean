import TypedMvc.Proofs.Navigation
import TypedMvc.Proofs.Placeholders

namespace TypedMvc.Generation

open CSharp Synthesis

variable {cs : List Controller}

def placeholderKeys (cs : List Controller) : List Key :=
  ascending ((cs.filter Controller.isViewOnly).map Controller.key)

def namedAreas (cs : List Controller) : List String :=
  ascending ((cs.map fun c => c.area.text).filter fun area => decide (area ≠ ""))

def areaPlan (root : String) (cs : List Controller) : List ClassDef :=
  (namedAreas cs).map fun area => areaClassOf root area (inArea area cs)

def areasFault (root : String) (cs : List Controller) : Option Failure :=
  (namedAreas cs).findSome? fun area => areaFault root area (inArea area cs)

-- The classes that should come out, told without any stage. A generation gives exactly these.
def plan (target : Target) (cs : List Controller) : List ClassDef :=
  (placeholderKeys cs).map (placeholderOf target.root) ++ areaPlan target.root cs ++
    helpersOf target (namedAreas cs) (inArea "" cs) :: wrappers target.root

-- What keeps them from coming out: the stages in order, and a class that repeats at last.
def fault (target : Target) (cs : List Controller) : Option Failure :=
  (unnamed (cs.filter Controller.isViewOnly)).or ((areasFault target.root cs).or
    ((helpersFault target (namedAreas cs) (inArea "" cs)).or (repeatedClass (plan target cs))))

theorem fault_parts {target : Target} (clear : fault target cs = none) :
    unnamed (cs.filter Controller.isViewOnly) = none ∧ areasFault target.root cs = none ∧
      helpersFault target (namedAreas cs) (inArea "" cs) = none ∧ repeatedClass (plan target cs) = none := by
  simpa only [fault,Option.or_eq_none_iff] using clear

theorem mem_placeholderKeys {key : Key} :
    key ∈ placeholderKeys cs ↔ ∃ c ∈ cs, c.isViewOnly = true ∧ c.key = key := by
  rw [placeholderKeys,mem_ascending,List.mem_map]
  simp only [List.mem_filter,and_assoc]

theorem mem_namedAreas {area : String} : area ∈ namedAreas cs ↔ area ≠ "" ∧ ∃ c ∈ cs, c.area.text = area := by
  rw [namedAreas,mem_ascending,List.mem_filter,List.mem_map,decide_eq_true_eq,and_comm]

theorem plan_keys (target : Target) (cs : List Controller) :
    (plan target cs).map ClassDef.key =
      (placeholderKeys cs).map (fun key => (target.root,Controller.placeholderName key.area key.name)) ++
        (namedAreas cs).map (fun area => (target.root,Controller.areaClassName area)) ++
          ("",target.helpers) :: (wrappers target.root).map ClassDef.key := by
  simp only [plan,areaPlan,List.map_append,List.map_cons,List.map_map]
  rfl

theorem zipIdx_texts (texts : ∀ c ∈ cs, c.Textual) : ∀ p ∈ cs.zipIdx, p.1.Textual :=
  fun _ member => texts _ (List.fst_mem_of_mem_zipIdx member)

theorem zipIdx_filter (cs : List Controller) (f : Controller → Bool) :
    (cs.zipIdx.filter fun p => f p.1).map (·.1) = cs.filter f := by
  have whole := List.filter_map (f := Prod.fst) (p := f) (l := cs.zipIdx)
  rw [List.zipIdx_map_fst] at whole
  exact whole.symm

theorem unnamed_zipIdx {l : List (Controller × Nat)} {failure : Failure}
    (fault : unnamed (l.map (·.1)) = some failure) :
    ∃ p, l.find? (fun p => !p.1.name.truthy) = some p ∧ failure = .unnamedController p.1.area p.1.ns := by
  rw [unnamed,List.find?_map,Option.map_map] at fault
  obtain ⟨p,found,rfl⟩ := Option.map_eq_some_iff.mp fault
  exact ⟨p,found,rfl⟩

theorem unnamed_viewOnly_eq_none (texts : ∀ c ∈ cs, c.Textual) : unnamed (cs.filter Controller.isViewOnly) = none ↔
    ∀ c ∈ cs, c.isViewOnly = true → c.name ≠ .str "" := by
  rw [unnamed_eq_none]
  constructor
  · intro named c member viewOnly
    exact (texts c member).named_iff.mp (named c (List.mem_filter.mpr ⟨member,viewOnly⟩))
  · intro named c inFilter
    obtain ⟨member,viewOnly⟩ := List.mem_filter.mp inFilter
    exact (texts c member).named_iff.mpr (named c member viewOnly)

theorem named_zipIdx (named : unnamed (cs.filter Controller.isViewOnly) = none) :
    ∀ p ∈ cs.zipIdx, p.1.isViewOnly = true → p.1.name.truthy = true := by
  intro p member viewOnly
  refine unnamed_eq_none.mp named p.1 (List.mem_filter.mpr ⟨?_,viewOnly⟩)
  exact List.fst_mem_of_mem_zipIdx member

theorem byArea_keyed (key : Controller → String) (keys : ∀ c ∈ cs, c.areaKey = .str (key c)) :
    ∃ groups, byArea cs.zipIdx = .ok groups ∧
      (∀ area, groupOf (.str area) groups = cs.zipIdx.filter fun p => decide (key p.1 = area)) ∧
      sortedAreas groups = .ok ((ascending ((cs.map key).filter fun area => decide (area ≠ ""))).map .str) := by
  refine ⟨groupsOf (fun p : Controller × Nat => key p.1) cs.zipIdx,?_,?_,?_⟩
  · exact groupByKey_texts fun p member => keys p.1 (List.fst_mem_of_mem_zipIdx member)
  · intro area
    exact find?_groupsOf cs.zipIdx area
  · have areas : cs.zipIdx.map (fun p => key p.1) = cs.map key := by
      conv => rhs; rw [← List.zipIdx_map_fst 0 cs,List.map_map]
      rfl
    rw [sortedAreas_groupsOf,areas]

theorem byArea_texts (texts : ∀ c ∈ cs, c.Textual) :
    ∃ groups, byArea cs.zipIdx = .ok groups ∧
      (∀ area, groupOf (.str area) groups = groupAt area cs.zipIdx) ∧
      sortedAreas groups = .ok ((namedAreas cs).map .str) :=
  byArea_keyed (fun c => c.area.text) fun c member => (texts c member).areaKey_eq

theorem placeholderClasses_unnamed (target : Target) (texts : ∀ c ∈ cs, c.Textual) {failure : Failure}
    (fault : unnamed (cs.filter Controller.isViewOnly) = some failure) :
    placeholderClasses target cs = Run.settled (.error failure) := by
  rw [← zipIdx_filter] at fault
  obtain ⟨p,found,rfl⟩ := unnamed_zipIdx fault
  exact placeholders_unnamed target.root (zipIdx_texts texts) found

theorem mem_namings_placeholders (target : Target) (texts : ∀ c ∈ cs, c.Textual)
    (named : unnamed (cs.filter Controller.isViewOnly) = none) {entry : Nat × String} :
    entry ∈ namings (placeholderClasses target cs).trace ↔
      ∃ c, cs[entry.1]? = some c ∧ c.isViewOnly = true ∧ entry.2 = c.resolvedName target.root := by
  obtain ⟨_,perm⟩ := placeholders_named target.root (zipIdx_texts texts) (named_zipIdx named)
  rw [placeholderClasses,perm.mem_iff,List.mem_map]
  constructor
  · rintro ⟨p,inFilter,rfl⟩
    obtain ⟨present,viewOnly⟩ := List.mem_filter.mp inFilter
    exact ⟨p.1,List.mem_zipIdx_iff_getElem?.mp present,viewOnly,rfl⟩
  · rintro ⟨c,found,viewOnly,equal⟩
    refine ⟨(c,entry.1),List.mem_filter.mpr ⟨List.mem_zipIdx_iff_getElem?.mpr found,viewOnly⟩,?_⟩
    rw [← equal]

theorem placeholderClasses_named (target : Target) (texts : ∀ c ∈ cs, c.Textual)
    (named : unnamed (cs.filter Controller.isViewOnly) = none) :
    (placeholderClasses target cs).outcome = .ok ((placeholderKeys cs).map (placeholderOf target.root)) ∧
    written (placeholderClasses target cs).trace cs = cs.map (Controller.prepared target.root) := by
  obtain ⟨outcome,_⟩ := placeholders_named target.root (zipIdx_texts texts) (named_zipIdx named)
  have keys : (cs.zipIdx.filter fun p => p.1.isViewOnly).map (fun p => p.1.key) =
      (cs.filter Controller.isViewOnly).map Controller.key := by
    rw [← zipIdx_filter,List.map_map]
    rfl
  refine ⟨by rw [placeholderClasses,outcome,keys,placeholderKeys],?_⟩
  have resolved : WritesResolved target.root cs (placeholderClasses target cs).trace := by
    intro entry inTrace
    obtain ⟨c,found,_,equal⟩ := (mem_namings_placeholders target texts named).mp inTrace
    exact ⟨c,found,equal⟩
  apply List.ext_getElem?
  intro position
  rw [written_getElem? resolved,List.getElem?_map]
  cases found : cs[position]? with
  | none => rfl
  | some c =>
    have written : position ∈ (namings (placeholderClasses target cs).trace).map Prod.fst ↔ c.isViewOnly = true := by
      rw [List.mem_map]
      constructor
      · rintro ⟨entry,inTrace,rfl⟩
        obtain ⟨d,there,viewOnly,_⟩ := (mem_namings_placeholders target texts named).mp inTrace
        rw [found] at there
        cases there
        exact viewOnly
      · intro viewOnly
        exact ⟨(position,_),(mem_namings_placeholders target texts named).mpr ⟨c,found,viewOnly,rfl⟩,rfl⟩
    simp only [Option.map_some,Controller.prepared,written]

-- The stage only gives names to controllers that have none.
def FillsOnly (root : String) (cs : List Controller) (trace : List Event) : Prop :=
  ∀ entry ∈ namings trace, ∃ c, cs[entry.1]? = some c ∧ c.generatedName.truthy = false ∧
    entry.2 = c.resolvedName root

theorem FillsOnly.resolved {root : String} {trace : List Event} (fills : FillsOnly root cs trace) :
    WritesResolved root cs trace := by
  intro entry member
  obtain ⟨c,found,_,equal⟩ := fills entry member
  exact ⟨c,found,equal⟩

theorem FillsOnly.settled {root : String} {trace : List Event} (fills : FillsOnly root cs trace) :
    (written trace cs).map (Controller.settled root) = cs.map (Controller.settled root) := by
  refine written_map fills.resolved _ ?_
  intro position c found named
  obtain ⟨entry,member,rfl⟩ := List.mem_map.mp named
  obtain ⟨d,there,empty,_⟩ := fills entry member
  rw [found] at there
  cases there
  have given : (c.renamed root).generatedName.truthy = true := by
    simpa [Controller.renamed] using Controller.resolvedName_ne_empty root c
  simp only [Controller.settled,Controller.currentType,given,empty]
  rfl

theorem fills_zipIdx {root area : String} {entry : Nat × String}
    (member : entry ∈ fills root (firstsByName (·.1) (groupAt area cs.zipIdx))) :
    ∃ c ∈ inArea area cs, cs[entry.1]? = some c ∧ c.generatedName.truthy = false ∧ entry.2 = c.resolvedName root := by
  obtain ⟨p,chosen,empty,rfl⟩ := mem_fills.mp member
  obtain ⟨present,here⟩ := List.mem_filter.mp (firstsByName_subset chosen)
  rw [decide_eq_true_eq] at here
  have found := List.mem_zipIdx_iff_getElem?.mp present
  exact ⟨p.1,mem_inArea.mpr ⟨List.mem_of_getElem? found,here⟩,found,empty,rfl⟩

theorem areaClasses_texts (target : Target) (texts : ∀ c ∈ cs, c.Textual) :
    (areaClasses target cs).outcome = faultOr (areasFault target.root cs) (areaPlan target.root cs) ∧
    FillsOnly target.root cs (areaClasses target cs).trace ∧
    (areasFault target.root cs = none → ∀ area ∈ namedAreas cs,
      ∀ entry ∈ fills target.root (firstsByName (·.1) (groupAt area cs.zipIdx)),
        entry ∈ namings (areaClasses target cs).trace) := by
  obtain ⟨groups,grouped,groupsAt,sorted⟩ := byArea_texts texts
  obtain ⟨outcome,sound,complete⟩ :=
    areaClassesFrom_texts target.root (zipIdx_texts texts) groupsAt (namedAreas cs)
  rw [List.zipIdx_map_fst] at outcome complete
  rw [areaClasses,grouped,Run.settled_ok_bind,Synthesis.areaClasses,sorted,Run.settled_ok_bind]
  refine ⟨outcome,?_,complete⟩
  intro entry member
  obtain ⟨area,_,_,written⟩ := sound entry member
  obtain ⟨c,_,filled⟩ := fills_zipIdx written
  exact ⟨c,filled⟩

theorem helpersClass_plan (target : Target) (present : target.helpers ≠ "") (texts : ∀ c ∈ cs, c.Textual) :
    (helpersClass target cs).outcome = faultOr (helpersFault target (namedAreas cs) (inArea "" cs))
      (helpersOf target (namedAreas cs) (inArea "" cs)) ∧
    FillsOnly target.root cs (helpersClass target cs).trace ∧
    (helpersFault target (namedAreas cs) (inArea "" cs) = none →
      ∀ entry ∈ fills target.root (firstsByName (·.1) (groupAt "" cs.zipIdx)),
        entry ∈ namings (helpersClass target cs).trace) := by
  obtain ⟨groups,grouped,groupsAt,sorted⟩ := byArea_texts texts
  obtain ⟨outcome,sound,complete⟩ := helpersClass_texts target present (zipIdx_texts texts) groupsAt sorted
  rw [List.zipIdx_map_fst] at outcome complete
  rw [helpersClass,grouped,Run.settled_ok_bind]
  refine ⟨outcome,?_,?_⟩
  · intro entry member
    obtain ⟨c,_,filled⟩ := fills_zipIdx (sound entry member).2
    exact ⟨c,filled⟩
  · intro clear entry member
    rwa [complete (Option.or_eq_none_iff.mp clear).1]

def NamesNamed (cs : List Controller) (trace : List Event) : Prop :=
  ∀ entry ∈ namings trace, ∃ c, cs[entry.1]? = some c ∧ c.name.truthy = true

theorem areaClasses_named (target : Target) (texts : ∀ c ∈ cs, c.Textual) :
    NamesNamed cs (areaClasses target cs).trace := by
  obtain ⟨groups,grouped,groupsAt,sorted⟩ := byArea_texts texts
  obtain ⟨_,sound,_⟩ := areaClassesFrom_texts target.root (zipIdx_texts texts) groupsAt (namedAreas cs)
  rw [List.zipIdx_map_fst] at sound
  rw [areaClasses,grouped,Run.settled_ok_bind,Synthesis.areaClasses,sorted,Run.settled_ok_bind]
  intro entry member
  obtain ⟨area,_,named,written⟩ := sound entry member
  obtain ⟨c,there,found,_⟩ := fills_zipIdx written
  exact ⟨c,found,unnamed_eq_none.mp named c there⟩

theorem helpersClass_named (target : Target) (present : target.helpers ≠ "") (texts : ∀ c ∈ cs, c.Textual) :
    NamesNamed cs (helpersClass target cs).trace := by
  obtain ⟨groups,grouped,groupsAt,sorted⟩ := byArea_texts texts
  obtain ⟨_,sound,_⟩ := helpersClass_texts target present (zipIdx_texts texts) groupsAt sorted
  rw [List.zipIdx_map_fst] at sound
  rw [helpersClass,grouped,Run.settled_ok_bind]
  intro entry member
  obtain ⟨named,written⟩ := sound entry member
  obtain ⟨c,there,found,_⟩ := fills_zipIdx written
  exact ⟨c,found,unnamed_eq_none.mp named c there⟩

end TypedMvc.Generation
