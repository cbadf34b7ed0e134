import TypedMvc.Proofs.Plan

namespace TypedMvc

open CSharp Synthesis

-- A change of a controller that leaves everything but the generated name alone.
structure Controller.Keeps (f : Controller → Controller) : Prop where
  name : ∀ c, (f c).name = c.name
  ns : ∀ c, (f c).ns = c.ns
  area : ∀ c, (f c).area = c.area

theorem Controller.keeps_prepared (root : String) : Controller.Keeps (Controller.prepared root) :=
  ⟨Controller.prepared_name root,Controller.prepared_ns root,Controller.prepared_area root⟩

theorem Controller.keeps_settled (root : String) : Controller.Keeps (Controller.settled root) :=
  ⟨fun _ => rfl,fun _ => rfl,fun _ => rfl⟩

section Keeps

variable {f : Controller → Controller} {root : String} {cs : List Controller}

theorem filter_map_kept (P : Controller → Bool) (kept : ∀ c, P (f c) = P c) (cs : List Controller) :
    (cs.map f).filter P = (cs.filter P).map f := by
  rw [List.filter_map]
  congr 1
  exact List.filter_congr fun c _ => kept c

theorem Controller.Keeps.isViewOnly (keeps : Controller.Keeps f) (c : Controller) :
    (f c).isViewOnly = c.isViewOnly := by
  simp only [Controller.isViewOnly,keeps.ns]

theorem inArea_map (keeps : Controller.Keeps f) (area : String) (cs : List Controller) :
    inArea area (cs.map f) = (inArea area cs).map f :=
  filter_map_kept _ (fun c => by simp only [keeps.area]) cs

theorem unnamed_map (keeps : Controller.Keeps f) (group : List Controller) : unnamed (group.map f) = unnamed group := by
  simp only [unnamed,List.find?_map,Option.map_map,Function.comp_def,keeps.name,keeps.area,keeps.ns]

theorem namesOf_map (keeps : Controller.Keeps f) (group : List Controller) : namesOf (group.map f) = namesOf group := by
  simp only [namesOf,List.map_map,Function.comp_def,keeps.name]

theorem typeOf_map (keeps : Controller.Keeps f) {group : List Controller}
    (types : ∀ c ∈ group, (f c).currentType root = c.currentType root) (name : String) :
    typeOf root (group.map f) name = typeOf root group name := by
  simp only [typeOf,List.find?_map,Function.comp_def,keeps.name]
  cases found : group.find? fun c => decide (c.name.text = name) with
  | none => rfl
  | some c => exact types c (List.mem_of_find?_eq_some found)

theorem handles_map (keeps : Controller.Keeps f) {group : List Controller}
    (types : ∀ c ∈ group, (f c).currentType root = c.currentType root) (isStatic : Bool) :
    (namesOf (group.map f)).map (handle root isStatic (group.map f)) =
      (namesOf group).map (handle root isStatic group) := by
  rw [namesOf_map keeps]
  refine List.map_congr_left ?_
  intro name _
  rw [handle,typeOf_map keeps types]
  rfl

namespace Generation

theorem namedAreas_map (keeps : Controller.Keeps f) (cs : List Controller) : namedAreas (cs.map f) = namedAreas cs := by
  simp only [namedAreas,List.map_map,Function.comp_def,keeps.area]

theorem placeholderKeys_map (keeps : Controller.Keeps f) (cs : List Controller) :
    placeholderKeys (cs.map f) = placeholderKeys cs := by
  have keys : Controller.key ∘ f = Controller.key := by
    funext c
    simp only [Function.comp_apply,Controller.key,keeps.name,keeps.area]
  rw [placeholderKeys,filter_map_kept _ keeps.isViewOnly,List.map_map,keys,placeholderKeys]

theorem areasFault_map (keeps : Controller.Keeps f) (root : String) (cs : List Controller) :
    areasFault root (cs.map f) = areasFault root cs := by
  simp only [areasFault,areaFault,namedAreas_map keeps,inArea_map keeps,unnamed_map keeps,namesOf_map keeps]

theorem helpersOf_map (keeps : Controller.Keeps f) (target : Target)
    (types : ∀ c ∈ cs, (f c).currentType target.root = c.currentType target.root) :
    helpersOf target (namedAreas (cs.map f)) (inArea "" (cs.map f)) =
      helpersOf target (namedAreas cs) (inArea "" cs) := by
  have groupTypes : ∀ c ∈ inArea "" cs, (f c).currentType target.root = c.currentType target.root :=
    fun c member => types c (List.mem_filter.mp member).1
  rw [helpersOf,namedAreas_map keeps,inArea_map keeps,handles_map keeps groupTypes]
  rfl

theorem helpersFault_map (keeps : Controller.Keeps f) (target : Target) (cs : List Controller) :
    helpersFault target (namedAreas (cs.map f)) (inArea "" (cs.map f)) =
      helpersFault target (namedAreas cs) (inArea "" cs) := by
  simp only [helpersFault,namedAreas_map keeps,inArea_map keeps,unnamed_map keeps,namesOf_map keeps]

theorem fault_map (keeps : Controller.Keeps f) (target : Target) (cs : List Controller) :
    fault target (cs.map f) = fault target cs := by
  have viewOnly : unnamed ((cs.map f).filter Controller.isViewOnly) = unnamed (cs.filter Controller.isViewOnly) := by
    rw [filter_map_kept _ keeps.isViewOnly,unnamed_map keeps]
  have classes : repeatedClass (plan target (cs.map f)) = repeatedClass (plan target cs) := by
    rw [repeatedClass,repeatedClass,plan_keys,plan_keys,placeholderKeys_map keeps,namedAreas_map keeps]
  rw [fault,fault,viewOnly,areasFault_map keeps,helpersFault_map keeps,classes]

end Generation
end Keeps

namespace Generation

variable {cs : List Controller}

theorem written_texts (trace : List Event) (texts : ∀ c ∈ cs, c.Textual) : ∀ c ∈ written trace cs, c.Textual :=
  written_each (fun entry _ _ old => ⟨old.name,old.area,old.ns,.inr ⟨entry.2,rfl⟩⟩) texts

theorem prepared_texts (root : String) (texts : ∀ c ∈ cs, c.Textual) :
    ∀ c ∈ cs.map (Controller.prepared root), c.Textual := by
  intro c member
  obtain ⟨d,old,rfl⟩ := List.mem_map.mp member
  exact (texts d old).prepared root

theorem helpers_settled {ds : List Controller} (target : Target) (texts : ∀ c ∈ cs, c.Textual)
    (otherTexts : ∀ d ∈ ds, d.Textual)
    (same : ds.map (Controller.settled target.root) = cs.map (Controller.settled target.root)) :
    helpersOf target (namedAreas ds) (inArea "" ds) = helpersOf target (namedAreas cs) (inArea "" cs) ∧
    helpersFault target (namedAreas ds) (inArea "" ds) = helpersFault target (namedAreas cs) (inArea "" cs) := by
  have keeps := Controller.keeps_settled target.root
  constructor
  · rw [← helpersOf_map keeps target fun d member => (otherTexts d member).currentType_settled target.root,same,
      helpersOf_map keeps target fun c member => (texts c member).currentType_settled target.root]
  · rw [← helpersFault_map keeps,same,helpersFault_map keeps]

-- What a later stage reads of a controller is its type, and no stage after the first one changes that, so the outcome is
-- that of the plan for the prepared controllers.
theorem generate_outcome (target : Target) (present : target.helpers ≠ "") (texts : ∀ c ∈ cs, c.Textual) :
    (generate target cs).outcome =
      faultOr (fault target cs) (plan target (cs.map (Controller.prepared target.root))) := by
  have keeps := Controller.keeps_prepared target.root
  have first : unnamed ((cs.map (Controller.prepared target.root)).filter Controller.isViewOnly) =
      unnamed (cs.filter Controller.isViewOnly) := by
    rw [filter_map_kept _ keeps.isViewOnly,unnamed_map keeps]
  rw [← fault_map keeps,generate,Run.note_bind,sequenced,fault,first]
  cases named : unnamed (cs.filter Controller.isViewOnly) with
  | some failure =>
    rw [placeholderClasses_unnamed target texts named]
    rfl
  | none =>
    obtain ⟨outcome,wrote⟩ := placeholderClasses_named target texts named
    have preparedTexts := prepared_texts target.root texts
    obtain ⟨areasOutcome,fills,_⟩ := areaClasses_texts target preparedTexts
    obtain ⟨helpersOutcome,_,_⟩ := helpersClass_plan target present (written_texts _ preparedTexts)
    obtain ⟨sameHelpers,sameFault⟩ := helpers_settled target preparedTexts
      (written_texts _ preparedTexts) fills.settled
    rw [sameHelpers,sameFault] at helpersOutcome
    have classes : (placeholderKeys cs).map (placeholderOf target.root) ++
        areaPlan target.root (cs.map (Controller.prepared target.root)) ++
        helpersOf target (namedAreas (cs.map (Controller.prepared target.root)))
          (inArea "" (cs.map (Controller.prepared target.root))) :: wrappers target.root =
        plan target (cs.map (Controller.prepared target.root)) := by
      rw [plan,placeholderKeys_map keeps]
    rw [Run.bind_of_ok _ outcome,wrote,Option.none_or]
    simp only [sequenced,Run.outcome_bind,areasOutcome,helpersOutcome,Run.settled_outcome,checkClasses_eq]
    refine faultOr_bind (faultOr_bind ?_)
    rw [classes]
    cases repeatedClass (plan target (cs.map (Controller.prepared target.root))) <;> rfl

theorem source_outcome (target : Target) (layout : Except Failure Layout) (cs : List Controller) :
    (source target layout cs).outcome =
      ((generate target cs).outcome >>= fun classes => layout >>= fun l => printFile l classes) := by
  rw [source,Run.outcome_bind]
  congr 1
  funext classes
  rw [Run.outcome_bind]
  rfl

theorem generate_written (target : Target) (texts : ∀ c ∈ cs, c.Textual)
    (named : unnamed (cs.filter Controller.isViewOnly) = none)
    (clear : areasFault target.root (cs.map (Controller.prepared target.root)) = none) :
    written (generate target cs).trace cs =
      written (helpersClass target (written (areaClasses target (cs.map (Controller.prepared target.root))).trace
          (cs.map (Controller.prepared target.root)))).trace
        (written (areaClasses target (cs.map (Controller.prepared target.root))).trace
          (cs.map (Controller.prepared target.root))) := by
  obtain ⟨outcome,wrote⟩ := placeholderClasses_named target texts named
  obtain ⟨areasOutcome,_,_⟩ := areaClasses_texts target (prepared_texts target.root texts)
  rw [clear,faultOr_none] at areasOutcome
  rw [generate,Run.note_bind,written_cons,Event.applied,sequenced,Run.bind_of_ok _ outcome,written_append,wrote,
    sequenced,Run.bind_of_ok _ areasOutcome,written_append]
  refine written_of_namings (namings_bind_quiet _ _ ?_) _
  intro helpers
  dsimp only
  cases checkClasses ((placeholderKeys cs).map (placeholderOf target.root) ++
    areaPlan target.root (cs.map (Controller.prepared target.root)) ++ helpers :: wrappers target.root) <;> rfl

-- The first controller of an area and a name in the order of the list.
def firstAt (area name : String) (cs : List Controller) : Option Controller :=
  cs.find? fun c => decide (c.area.text = area ∧ c.name.text = name)

theorem typeOf_inArea (root area name : String) (cs : List Controller) :
    typeOf root (inArea area cs) name = ((firstAt area name cs).map (Controller.currentType root)).getD "" := by
  have same : (inArea area cs).find? (fun c => decide (c.name.text = name)) = firstAt area name cs := by
    rw [inArea,List.find?_filter,firstAt]
    refine List.find?_congr ?_
    intro c _
    simp
  rw [typeOf,same]

theorem firstAt_map {f : Controller → Controller} (keeps : Controller.Keeps f) (area name : String)
    (cs : List Controller) : firstAt area name (cs.map f) = (firstAt area name cs).map f := by
  simp only [firstAt,List.find?_map,Function.comp_def,keeps.name,keeps.area]

theorem firstAt_position {area name : String} {c : Controller} (found : firstAt area name cs = some c) :
    ∃ position, cs.zipIdx.find? (fun p => decide (p.1.area.text = area ∧ p.1.name.text = name)) =
      some (c,position) := by
  rw [firstAt,← List.zipIdx_map_fst 0 cs,List.find?_map] at found
  obtain ⟨p,there,rfl⟩ := Option.map_eq_some_iff.mp found
  exact ⟨p.2,there⟩

theorem zipIdx_settled {root : String} {ds : List Controller}
    (same : ds.map (Controller.settled root) = cs.map (Controller.settled root)) {area name : String}
    {d : Controller} {position : Nat}
    (found : ds.zipIdx.find? (fun p => decide (p.1.area.text = area ∧ p.1.name.text = name)) = some (d,position)) :
    ∃ c, cs.zipIdx.find? (fun p => decide (p.1.area.text = area ∧ p.1.name.text = name)) = some (c,position) ∧
      c.settled root = d.settled root := by
  have shown : ∀ l : List Controller, (l.map (Controller.settled root)).zipIdx.find?
        (fun p => decide (p.1.area.text = area ∧ p.1.name.text = name)) =
      (l.zipIdx.find? fun p => decide (p.1.area.text = area ∧ p.1.name.text = name)).map
        (Prod.map (Controller.settled root) id) := by
    intro l
    rw [List.zipIdx_map,List.find?_map]
    rfl
  have both := shown ds
  rw [same,shown cs,found] at both
  obtain ⟨⟨c,other⟩,there,equal⟩ := Option.map_eq_some_iff.mp both
  obtain ⟨settled,rfl⟩ : c.settled root = d.settled root ∧ other = position := by simpa using equal
  exact ⟨c,there,settled⟩

theorem mem_firstsByName_of_first {area name : String} {c : Controller} {position : Nat}
    (found : cs.zipIdx.find? (fun p => decide (p.1.area.text = area ∧ p.1.name.text = name)) = some (c,position)) :
    (c,position) ∈ firstsByName (·.1) (groupAt area cs.zipIdx) := by
  have here : c.area.text = area ∧ c.name.text = name := by simpa using List.find?_some found
  rw [mem_firstsByName,groupAt,List.find?_filter,← found]
  refine List.find?_congr ?_
  intro p _
  simp [here.2]

-- The first controller after a stage is the one from before it, renamed or untouched.
theorem firstAt_written {root area name : String} {trace : List Event} {d : Controller}
    (fillsOnly : FillsOnly root cs trace) (found : firstAt area name (written trace cs) = some d) :
    ∃ c position, cs.zipIdx.find? (fun p => decide (p.1.area.text = area ∧ p.1.name.text = name)) =
        some (c,position) ∧
      d = if position ∈ (namings trace).map Prod.fst then c.renamed root else c := by
  obtain ⟨position,there⟩ := firstAt_position found
  obtain ⟨c,before,_⟩ := zipIdx_settled fillsOnly.settled there
  have old : cs[position]? = some c := List.mem_zipIdx_iff_getElem?.mp (List.mem_of_find?_eq_some before)
  have new : (written trace cs)[position]? = some d :=
    List.mem_zipIdx_iff_getElem?.mp (List.mem_of_find?_eq_some there)
  rw [written_getElem? fillsOnly.resolved,old,Option.map_some] at new
  exact ⟨c,position,before,(Option.some.inj new).symm⟩

theorem renamed_truthy (root : String) (c : Controller) : (c.renamed root).generatedName.truthy = true := by
  simpa [Controller.renamed] using Controller.resolvedName_ne_empty root c

theorem firstAt_filled {root area name : String} {trace : List Event} {d : Controller}
    (fillsOnly : FillsOnly root cs trace)
    (complete : ∀ entry ∈ fills root (firstsByName (·.1) (groupAt area cs.zipIdx)), entry ∈ namings trace)
    (found : firstAt area name (written trace cs) = some d) : d.generatedName.truthy = true := by
  obtain ⟨c,position,before,rfl⟩ := firstAt_written fillsOnly found
  by_cases named : position ∈ (namings trace).map Prod.fst
  · rw [if_pos named]
    exact renamed_truthy root c
  · rw [if_neg named]
    by_contra empty
    have chosen : (position,Controller.resolvedName root c) ∈
        fills root (firstsByName (·.1) (groupAt area cs.zipIdx)) :=
      mem_fills.mpr ⟨(c,position),mem_firstsByName_of_first before,by simpa using empty,rfl⟩
    exact named (List.mem_map.mpr ⟨_,complete _ chosen,rfl⟩)

theorem firstAt_kept {root area name : String} {trace : List Event} {d : Controller}
    (fillsOnly : FillsOnly root cs trace)
    (given : ∀ c, firstAt area name cs = some c → c.generatedName.truthy = true)
    (found : firstAt area name (written trace cs) = some d) : d.generatedName.truthy = true := by
  obtain ⟨c,position,before,rfl⟩ := firstAt_written fillsOnly found
  have first : firstAt area name cs = some c := by
    rw [firstAt,← List.zipIdx_map_fst 0 cs,List.find?_map]
    exact Option.map_eq_some_iff.mpr ⟨_,before,rfl⟩
  split
  · exact renamed_truthy root c
  · exact given c first

end Generation
end TypedMvc
