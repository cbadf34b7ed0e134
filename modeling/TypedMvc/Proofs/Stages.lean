import TypedMvc.Proofs.Frame
import TypedMvc.Proofs.Independence

namespace TypedMvc

open CSharp Synthesis

namespace Controller

variable {c : Controller} {root : String}

theorem Textual.settled_given (texts : c.Textual) (given : c.generatedName.truthy = true) (root : String) :
    c.settled root = c := by
  have type : c.currentType root = c.generatedName.text := if_pos given
  rw [Controller.settled,type,← texts.generatedName_eq given]

theorem settled_absent (empty : c.generatedName.truthy = false) (root : String) : c.settled root = c.renamed root := by
  have type : c.currentType root = c.resolvedName root := if_neg (by simp [empty])
  rw [settled,type]
  rfl

theorem Textual.settled_settled (texts : c.Textual) (root : String) : (c.settled root).settled root = c.settled root := by
  rw [Controller.settled,texts.currentType_settled root]
  rfl

-- A controller of texts with a name of its own; if it is view-only, it is called as it resolves or not called at all.
structure Steady (root : Value) (c : Controller) : Prop where
  texts : c.Textual
  named : c.name ≠ .str ""
  called : c.isViewOnly = true →
    c.generatedName = .null ∨ c.generatedName = .str "" ∨ CalledAsResolved root c c

theorem steady_ofTexts {root : Value} {name : String} (given : name ≠ "") (ns : Option String) (area : String)
    (generatedName : Option String) (called : (ofTexts name ns area generatedName).isViewOnly = true →
      (ofTexts name ns area generatedName).generatedName = .null ∨
      (ofTexts name ns area generatedName).generatedName = .str "" ∨
      CalledAsResolved root (ofTexts name ns area generatedName) (ofTexts name ns area generatedName)) :
    (ofTexts name ns area generatedName).Steady root :=
  ⟨textual_ofTexts name ns area generatedName,by simpa [ofTexts] using given,called⟩

theorem Steady.renamed_eq (steady : c.Steady (.str root)) (viewOnly : c.isViewOnly = true) :
    c.renamed root = c.settled root := by
  have named := steady.texts.named_iff.mpr steady.named
  rcases steady.called viewOnly with absent | empty | ⟨name,resolved,called⟩
  · exact (settled_absent (by simp [absent]) root).symm
  · exact (settled_absent (by simp [empty]) root).symm
  · rw [steady.texts.resolve_named named root] at resolved
    cases resolved
    rw [steady.texts.settled_given (by simpa [called] using resolvedName_ne_empty root c),renamed,← called]

theorem Steady.settled (steady : c.Steady (.str root)) : (c.settled root).Steady (.str root) where
  texts := steady.texts.settled root
  named := steady.named
  called := by
    intro viewOnly
    have alone : c.isViewOnly = true := viewOnly
    have named := steady.texts.named_iff.mpr steady.named
    refine .inr (.inr ⟨_,(steady.texts.settled root).resolve_named named root,?_⟩)
    rw [← steady.renamed_eq alone]
    rfl

end Controller

def settledAt (root : String) (positions : List Nat) (cs : List Controller) : List Controller :=
  cs.mapIdx fun position c => if position ∈ positions then c.settled root else c

section SettledAt

variable {root : String} {positions others : List Nat} {cs : List Controller}

theorem getElem?_settledAt (root : String) (positions : List Nat) (cs : List Controller) (i : Nat) :
    (settledAt root positions cs)[i]? = cs[i]?.map fun c => if i ∈ positions then c.settled root else c :=
  List.getElem?_mapIdx

theorem settledAt_nil (root : String) (cs : List Controller) : settledAt root [] cs = cs := by
  apply List.ext_getElem?
  intro i
  rw [getElem?_settledAt]
  cases cs[i]? <;> rfl

theorem mem_settledAt {d : Controller} (member : d ∈ settledAt root positions cs) :
    ∃ c ∈ cs, d = c ∨ d = c.settled root := by
  obtain ⟨i,found⟩ := List.mem_iff_getElem?.mp member
  rw [getElem?_settledAt] at found
  obtain ⟨c,there,rfl⟩ := Option.map_eq_some_iff.mp found
  refine ⟨c,List.mem_of_getElem? there,?_⟩
  split
  · exact .inr rfl
  · exact .inl rfl

theorem settledAt_steady (steady : ∀ c ∈ cs, c.Steady (.str root)) :
    ∀ d ∈ settledAt root positions cs, d.Steady (.str root) := by
  intro d member
  obtain ⟨c,old,rfl | rfl⟩ := mem_settledAt member
  · exact steady d old
  · exact (steady c old).settled

theorem settledAt_settled (steady : ∀ c ∈ cs, c.Steady (.str root)) (positions : List Nat) :
    (settledAt root positions cs).map (Controller.settled root) = cs.map (Controller.settled root) := by
  apply List.ext_getElem?
  intro i
  rw [List.getElem?_map,List.getElem?_map,getElem?_settledAt]
  cases found : cs[i]? with
  | none => rfl
  | some c =>
    have texts := (steady c (List.mem_of_getElem? found)).texts
    by_cases here : i ∈ positions
    · simp only [Option.map_some,if_pos here,texts.settled_settled root]
    · simp only [Option.map_some,if_neg here]

theorem settledAt_settledAt (steady : ∀ c ∈ cs, c.Steady (.str root)) (positions others : List Nat) :
    settledAt root others (settledAt root positions cs) = settledAt root (positions ++ others) cs := by
  apply List.ext_getElem?
  intro i
  rw [getElem?_settledAt,getElem?_settledAt,getElem?_settledAt]
  cases found : cs[i]? with
  | none => rfl
  | some c =>
    have texts := (steady c (List.mem_of_getElem? found)).texts
    by_cases first : i ∈ positions <;> by_cases second : i ∈ others <;>
      simp [first,second,texts.settled_settled root]

theorem settledAt_congr (same : ∀ i, i ∈ positions ↔ i ∈ others) (root : String) (cs : List Controller) :
    settledAt root positions cs = settledAt root others cs := by
  apply List.ext_getElem?
  intro i
  rw [getElem?_settledAt,getElem?_settledAt]
  simp only [same]

end SettledAt

namespace Generation

variable {root : String} {cs : List Controller}

-- Filling in the names of some controllers settles these.
theorem written_fills (texts : ∀ c ∈ cs, c.Textual) {chosen : List (Controller × Nat)}
    (among : ∀ p ∈ chosen, p ∈ cs.zipIdx) {trace : List Event} (names : namings trace = fills root chosen) :
    written trace cs = settledAt root (chosen.map (·.2)) cs := by
  have resolved : WritesResolved root cs trace := by
    intro entry member
    rw [names] at member
    obtain ⟨p,inside,_,rfl⟩ := mem_fills.mp member
    exact ⟨p.1,List.mem_zipIdx_iff_getElem?.mp (among p inside),rfl⟩
  apply List.ext_getElem?
  intro i
  rw [written_getElem? resolved,getElem?_settledAt]
  cases found : cs[i]? with
  | none => rfl
  | some c =>
    -- one controller stands at a position, so the position tells which of the chosen ones is meant
    have own : ∀ p ∈ chosen, p.2 = i → p = (c,i) := by
      rintro p inside rfl
      have there := List.mem_zipIdx_iff_getElem?.mp (among p inside)
      rw [found] at there
      exact Prod.ext (Option.some.inj there).symm rfl
    have here : i ∈ chosen.map (·.2) ↔ (c,i) ∈ chosen := by
      constructor
      · intro member
        obtain ⟨p,inside,spot⟩ := List.mem_map.mp member
        rwa [← own p inside spot]
      · exact fun inside => List.mem_map_of_mem inside
    have named : i ∈ (namings trace).map Prod.fst ↔ (c,i) ∈ chosen ∧ c.generatedName.truthy = false := by
      rw [names,List.mem_map]
      constructor
      · rintro ⟨entry,member,spot⟩
        obtain ⟨p,inside,empty,rfl⟩ := mem_fills.mp member
        obtain rfl := own p inside spot
        exact ⟨inside,empty⟩
      · rintro ⟨inside,empty⟩
        exact ⟨_,mem_fills.mpr ⟨_,inside,empty,rfl⟩,rfl⟩
    simp only [Option.map_some,Option.some.injEq]
    by_cases inside : (c,i) ∈ chosen
    · rw [if_pos (here.mpr inside)]
      cases given : c.generatedName.truthy with
      | true =>
        have kept : i ∉ (namings trace).map Prod.fst :=
          fun member => absurd given (ne_true_of_eq_false (named.mp member).2)
        rw [if_neg kept,(texts c (List.mem_of_getElem? found)).settled_given given]
      | false => rw [if_pos (named.mpr ⟨inside,given⟩),Controller.settled_absent given]
    · rw [if_neg fun member => inside (named.mp member).1,if_neg fun member => inside (here.mp member)]

def firstPositions (area : String) (cs : List Controller) : List Nat :=
  (firstsByName (·.1) (groupAt area cs.zipIdx)).map (·.2)

def viewOnlyPositions (cs : List Controller) : List Nat := (cs.zipIdx.filter fun p => p.1.isViewOnly).map (·.2)

-- The elements up to the first one that ends a stage, and that one too.
def reached (ends : α → Bool) : List α → List α
  | [] => []
  | a :: rest => a :: if ends a then [] else reached ends rest

-- Whatever is written for an area whose class cannot be made stays written.
def areaPositions (root : String) (cs : List Controller) : List Nat :=
  (reached (fun area => (areaFault root area (inArea area cs)).isSome) (namedAreas cs)).flatMap fun area =>
    firstPositions area cs

section Keeps

variable {f : Controller → Controller}

theorem firstPositions_map (keeps : Controller.Keeps f) (area : String) (cs : List Controller) :
    firstPositions area (cs.map f) = firstPositions area cs := by
  have group : groupAt area (cs.map f).zipIdx = (groupAt area cs.zipIdx).map (Prod.map f id) := by
    rw [groupAt,List.zipIdx_map,List.filter_map]
    refine congrArg _ (List.filter_congr ?_)
    intro p _
    simp [keeps.area]
  rw [firstPositions,group,firstsByName_map fun p _ => keeps.name p.1,List.map_map]
  rfl

theorem viewOnlyPositions_map (keeps : Controller.Keeps f) (cs : List Controller) :
    viewOnlyPositions (cs.map f) = viewOnlyPositions cs := by
  have kept : ((fun p : Controller × Nat => p.1.isViewOnly) ∘ Prod.map f id) = fun p => p.1.isViewOnly := by
    funext p
    exact keeps.isViewOnly p.1
  rw [viewOnlyPositions,List.zipIdx_map,List.filter_map,kept,List.map_map]
  rfl

theorem areaPositions_map (keeps : Controller.Keeps f) (root : String) (cs : List Controller) :
    areaPositions root (cs.map f) = areaPositions root cs := by
  simp only [areaPositions,namedAreas_map keeps,firstPositions_map keeps,areaFault,inArea_map keeps,unnamed_map keeps,
    namesOf_map keeps]

end Keeps

-- A stage settles the controllers at some positions. What settles to the same has the same positions and the same end.
structure Settles (root : String) (stage : List Controller → Run α) (positions : List Controller → List Nat) : Prop where
  written : ∀ cs, (∀ c ∈ cs, c.Steady (.str root)) → written (stage cs).trace cs = settledAt root (positions cs) cs
  positions : ∀ cs ds, ds.map (Controller.settled root) = cs.map (Controller.settled root) → positions ds = positions cs
  outcome : ∀ cs ds, (∀ c ∈ cs, c.Steady (.str root)) → (∀ d ∈ ds, d.Steady (.str root)) →
    ds.map (Controller.settled root) = cs.map (Controller.settled root) → (stage ds).outcome = (stage cs).outcome

-- What is told from settled controllers is the same for all that settle to the same.
theorem same_of_settled {ds : List Controller} {told : List Controller → β}
    (right : told (ds.map (Controller.settled root)) = told ds) (left : told (cs.map (Controller.settled root)) = told cs)
    (same : ds.map (Controller.settled root) = cs.map (Controller.settled root)) : told ds = told cs := by
  rw [← right,same,left]

theorem areaPlan_map {f : Controller → Controller} (keeps : Controller.Keeps f)
    (types : ∀ c ∈ cs, (f c).currentType root = c.currentType root) : areaPlan root (cs.map f) = areaPlan root cs := by
  rw [areaPlan,areaPlan,namedAreas_map keeps]
  refine List.map_congr_left ?_
  intro area _
  have groupTypes : ∀ c ∈ inArea area cs, (f c).currentType root = c.currentType root :=
    fun c member => types c (mem_inArea.mp member).1
  rw [inArea_map keeps,areaClassOf,handles_map keeps groupTypes]
  rfl

-- What is written for the areas, also if the class of the last one that was reached cannot be made.
theorem areaClassesFrom_fills (root : String) {l : List (Controller × Nat)} (texts : ∀ p ∈ l, p.1.Textual)
    (named : ∀ p ∈ l, p.1.name.truthy = true) {groups : Grouping}
    (grouped : ∀ area, groupOf (.str area) groups = groupAt area l) (areas : List String) :
    namings (areaClassesFrom root groups (areas.map .str)).trace =
      fills root ((reached (fun area => (areaFault root area (inArea area (l.map (·.1)))).isSome) areas).flatMap
        fun area => firstsByName (·.1) (groupAt area l)) := by
  induction areas with
  | nil => rfl
  | cons area rest ih =>
    obtain ⟨outcome,_,complete⟩ := areaClass_texts root area (groupAt_texts texts area)
    have known : unnamed ((groupAt area l).map (·.1)) = none := by
      refine unnamed_eq_none.mpr ?_
      intro c member
      obtain ⟨p,inside,rfl⟩ := List.mem_map.mp member
      exact named p (List.mem_filter.mp inside).1
    rw [groupAt_map] at outcome
    rw [List.map_cons,areaClassesFrom,grouped,reached,List.flatMap_cons]
    cases fault : areaFault root area (inArea area (l.map (·.1))) with
    | some failure =>
      rw [fault,faultOr_some] at outcome
      rw [Run.bind_of_error _ outcome]
      simpa using complete known
    | none =>
      rw [fault,faultOr_none] at outcome
      rw [Run.bind_of_ok _ outcome,namings_append,complete known,namings_bind_quiet _ _ fun _ => rfl,ih]
      simp [fills]

section Steady

variable {target : Target} (steady : ∀ c ∈ cs, c.Steady (.str target.root))

include steady

theorem steady_texts : ∀ c ∈ cs, c.Textual := fun c member => (steady c member).texts

theorem steady_named : ∀ c ∈ cs, c.name.truthy = true :=
  fun c member => (steady c member).texts.named_iff.mpr (steady c member).named

theorem placeholderClasses_settles :
    (placeholderClasses target cs).outcome = .ok ((placeholderKeys cs).map (placeholderOf target.root)) ∧
    written (placeholderClasses target cs).trace cs = settledAt target.root (viewOnlyPositions cs) cs := by
  have named : unnamed (cs.filter Controller.isViewOnly) = none :=
    unnamed_eq_none.mpr fun c member => steady_named steady c (List.mem_filter.mp member).1
  obtain ⟨outcome,wrote⟩ := placeholderClasses_named target (steady_texts steady) named
  refine ⟨outcome,wrote.trans ?_⟩
  apply List.ext_getElem?
  intro i
  rw [List.getElem?_map,getElem?_settledAt]
  cases found : cs[i]? with
  | none => rfl
  | some c =>
    have here : i ∈ viewOnlyPositions cs ↔ c.isViewOnly = true := by
      rw [viewOnlyPositions,List.mem_map]
      constructor
      · rintro ⟨p,member,rfl⟩
        obtain ⟨present,viewOnly⟩ := List.mem_filter.mp member
        rw [List.mem_zipIdx_iff_getElem?.mp present] at found
        cases found
        exact viewOnly
      · intro viewOnly
        exact ⟨(c,i),List.mem_filter.mpr ⟨List.mem_zipIdx_iff_getElem?.mpr found,viewOnly⟩,rfl⟩
    have own := steady c (List.mem_of_getElem? found)
    simp only [Option.map_some,Option.some.injEq]
    cases viewOnly : c.isViewOnly with
    | true => rw [if_pos (here.mpr viewOnly),Controller.prepared_viewOnly viewOnly,own.renamed_eq viewOnly]
    | false => rw [if_neg (mt here.mp (by simp [viewOnly])),Controller.prepared_backed viewOnly]

theorem areaClasses_settles :
    written (areaClasses target cs).trace cs = settledAt target.root (areaPositions target.root cs) cs := by
  have texts := steady_texts steady
  obtain ⟨groups,grouped,groupsAt,sorted⟩ := byArea_texts texts
  have named : ∀ p ∈ cs.zipIdx, p.1.name.truthy = true :=
    fun p member => steady_named steady p.1 (List.fst_mem_of_mem_zipIdx member)
  have names := areaClassesFrom_fills target.root (zipIdx_texts texts) named groupsAt (namedAreas cs)
  rw [List.zipIdx_map_fst] at names
  rw [areaClasses,grouped,Run.settled_ok_bind,Synthesis.areaClasses,sorted,Run.settled_ok_bind,written_fills texts ?_ names,
    List.map_flatMap]
  · rfl
  · intro p member
    obtain ⟨area,_,chosen⟩ := List.mem_flatMap.mp member
    exact (List.mem_filter.mp (firstsByName_subset chosen)).1

theorem helpersClass_settles (present : target.helpers ≠ "") :
    written (helpersClass target cs).trace cs = settledAt target.root (firstPositions "" cs) cs := by
  have texts := steady_texts steady
  obtain ⟨groups,grouped,groupsAt,sorted⟩ := byArea_texts texts
  obtain ⟨_,_,complete⟩ := helpersClass_texts target present (zipIdx_texts texts) groupsAt sorted
  rw [List.zipIdx_map_fst] at complete
  have named : unnamed (inArea "" cs) = none :=
    unnamed_eq_none.mpr fun c member => steady_named steady c (mem_inArea.mp member).1
  rw [helpersClass,grouped,Run.settled_ok_bind,written_fills texts ?_ (complete named)]
  · rfl
  · intro p member
    exact (List.mem_filter.mp (firstsByName_subset member)).1

end Steady

theorem settles_placeholderClasses (target : Target) :
    Settles target.root (placeholderClasses target) viewOnlyPositions where
  written := fun _ steady => (placeholderClasses_settles steady).2
  positions := fun _ _ => same_of_settled (viewOnlyPositions_map (Controller.keeps_settled _) _)
    (viewOnlyPositions_map (Controller.keeps_settled _) _)
  outcome := by
    intro cs ds steady steadyToo same
    have keeps := Controller.keeps_settled target.root
    have keys : placeholderKeys ds = placeholderKeys cs :=
      same_of_settled (placeholderKeys_map keeps ds) (placeholderKeys_map keeps cs) same
    rw [(placeholderClasses_settles steadyToo).1,(placeholderClasses_settles steady).1,keys]

theorem settles_areaClasses (target : Target) : Settles target.root (areaClasses target) (areaPositions target.root) where
  written := fun _ steady => areaClasses_settles steady
  positions := fun cs ds => same_of_settled (areaPositions_map (Controller.keeps_settled _) _ ds)
    (areaPositions_map (Controller.keeps_settled _) _ cs)
  outcome := by
    intro cs ds steady steadyToo same
    have keeps := Controller.keeps_settled target.root
    have types : ∀ l : List Controller, (∀ c ∈ l, c.Steady (.str target.root)) →
        areaPlan target.root (l.map (Controller.settled target.root)) = areaPlan target.root l :=
      fun l known => areaPlan_map keeps fun c member => (known c member).texts.currentType_settled target.root
    have fault : areasFault target.root ds = areasFault target.root cs :=
      same_of_settled (areasFault_map keeps target.root ds) (areasFault_map keeps target.root cs) same
    have plan : areaPlan target.root ds = areaPlan target.root cs :=
      same_of_settled (types ds steadyToo) (types cs steady) same
    rw [(areaClasses_texts target (steady_texts steadyToo)).1,(areaClasses_texts target (steady_texts steady)).1,fault,plan]

theorem settles_helpersClass (target : Target) (present : target.helpers ≠ "") :
    Settles target.root (helpersClass target) (firstPositions "") where
  written := fun _ steady => helpersClass_settles steady present
  positions := fun cs ds => same_of_settled (firstPositions_map (Controller.keeps_settled _) "" ds)
    (firstPositions_map (Controller.keeps_settled _) "" cs)
  outcome := by
    intro cs ds steady steadyToo same
    obtain ⟨helpers,fault⟩ := helpers_settled target (steady_texts steady) (steady_texts steadyToo) same
    rw [(helpersClass_plan target present (steady_texts steadyToo)).1,
      (helpersClass_plan target present (steady_texts steady)).1,helpers,fault]

end Generation

namespace Session

open Generation

def stages : List Step := [.viewOnly,.areas,.helper]

def positionsOf (root : String) : Step → List Controller → List Nat
  | .viewOnly => viewOnlyPositions
  | .areas => areaPositions root
  | .helper => firstPositions ""
  | _ => fun _ => []

def last (s : State) (steps : List Step) : State := ((run s steps).getLast?.map Prod.snd).getD s

theorem last_cons (s : State) (action : Step) (rest : List Step) :
    last s (action :: rest) = last (step s action).2 rest := by
  rw [last,run,List.getLast?_cons,last]
  cases (run (step s action).2 rest).getLast? <;> rfl

structure SameSettled (s t : State) : Prop where
  service : t.service = s.service
  steady : ∀ c ∈ t.controllers, c.Steady (.str s.service.target.root)
  settled : t.controllers.map (Controller.settled s.service.target.root) =
    s.controllers.map (Controller.settled s.service.target.root)

variable {s t : State}

-- The step answers on the second state as on the first one, settles the same positions, and leaves the states alike.
structure Agrees (s t : State) (action : Step) : Prop where
  answer : (step t action).1.outcome = (step s action).1.outcome
  controllers : (step t action).2.controllers =
    settledAt s.service.target.root (positionsOf s.service.target.root action s.controllers) t.controllers
  alike : SameSettled s (step t action).2

theorem Agrees.of_call {action : Step} {stage : Target → List Controller → Run α} {answer : α → Answer}
    (calls : ∀ u : State, step u action = call u (stage u.service.target u.controllers) answer)
    (settles : Settles s.service.target.root (stage s.service.target) (positionsOf s.service.target.root action))
    (first : SameSettled s s) (alike : SameSettled s t) : Agrees s t action := by
  have called : step t action = call t (stage s.service.target t.controllers) answer := by
    rw [calls,alike.service]
  have wrote : (step t action).2.controllers =
      settledAt s.service.target.root (positionsOf s.service.target.root action s.controllers) t.controllers := by
    rw [called,← settles.positions s.controllers t.controllers alike.settled]
    exact settles.written t.controllers alike.steady
  refine ⟨?_,wrote,?_,?_,?_⟩
  · rw [called,calls s,call_outcome,call_outcome,
      settles.outcome s.controllers t.controllers first.steady alike.steady alike.settled]
  · rw [called]
    exact alike.service
  · rw [wrote]
    exact settledAt_steady alike.steady
  · rw [wrote,settledAt_settled alike.steady,alike.settled]

theorem step_agrees (present : s.service.target.helpers ≠ "") (first : SameSettled s s) (alike : SameSettled s t)
    {action : Step} (stage : action ∈ stages) : Agrees s t action := by
  simp only [stages,List.mem_cons,List.not_mem_nil,or_false] at stage
  rcases stage with rfl | rfl | rfl
  · exact .of_call (fun _ => rfl) (settles_placeholderClasses _) first alike
  · exact .of_call (fun _ => rfl) (settles_areaClasses _) first alike
  · exact .of_call (fun _ => rfl) (settles_helpersClass _ present) first alike

-- Stages in any number and order: each answers as on the first state, and together they settle all of their positions.
theorem run_agrees (present : s.service.target.helpers ≠ "") (first : SameSettled s s) (alike : SameSettled s t)
    {order : List Step} (among : ∀ action ∈ order, action ∈ stages) :
    (run t order).map (fun result => result.1.outcome) = order.map (fun action => (step s action).1.outcome) ∧
    (last t order).controllers = settledAt s.service.target.root
      (order.flatMap fun action => positionsOf s.service.target.root action s.controllers) t.controllers := by
  induction order generalizing t with
  | nil => exact ⟨rfl,(settledAt_nil _ _).symm⟩
  | cons action rest ih =>
    have agrees := step_agrees present first alike (among action List.mem_cons_self)
    obtain ⟨answers,left⟩ := ih agrees.alike fun later member => among later (List.mem_cons_of_mem _ member)
    refine ⟨?_,?_⟩
    · rw [run,List.map_cons,List.map_cons,answers,agrees.answer]
    · rw [last_cons,left,agrees.controllers,settledAt_settledAt alike.steady,List.flatMap_cons]

-- The three stages commute: run once each, in whatever order, each gives what it would give alone, its classes or its
-- failure, and the controllers are left the same.
theorem stages_commute {settings : Settings} (served : Service.ofSettings settings = .ok s.service)
    (steady : ∀ c ∈ s.controllers, c.Steady settings.generatedNamespace) {order other : List Step}
    (once : order.Perm stages) (onceToo : other.Perm stages) :
    (run s order).map (fun result => result.1.outcome) = order.map (fun stage => (step s stage).1.outcome) ∧
    (last s order).controllers = (last s other).controllers := by
  have accepted := served_accepted served
  have present := Settings.helpers_ne_empty accepted
  rw [Settings.generatedNamespace_eq accepted] at steady
  have first : SameSettled s s := ⟨rfl,steady,rfl⟩
  obtain ⟨answers,left⟩ := run_agrees present first first fun action member => once.mem_iff.mp member
  obtain ⟨_,leftToo⟩ := run_agrees present first first fun action member => onceToo.mem_iff.mp member
  refine ⟨answers,?_⟩
  rw [left,leftToo]
  refine settledAt_congr ?_ _ _
  intro i
  simp only [List.mem_flatMap,once.mem_iff,onceToo.mem_iff]

-- The class of the second area cannot be made, the first one has a name to fill in, and two placeholders are one class.
def visitors : State :=
  ⟨[.ofTexts "Users" (some "Site.Admin") "Admin" none,.ofTexts "Name" (some "Site.Carts") "Shop" none,
      .ofTexts "Home" none "" (some "R4Mvc.HomeController"),.ofTexts "Home" (some "") "" none,
      .ofTexts "Login" (some "Site") "" (some ""),.ofTexts "Tags" none "Tags" none],
    ⟨Settings.default,⟨"R4Mvc","MVC"⟩⟩,none⟩

theorem stages_commute_visitors :
    Service.ofSettings Settings.default = .ok visitors.service ∧
    (∀ c ∈ visitors.controllers, c.Steady Settings.default.generatedNamespace) ∧
    stages.reverse.Perm stages ∧
    (run visitors stages.reverse).map (fun result => result.1.outcome) =
      stages.reverse.map (fun stage => (step visitors stage).1.outcome) ∧
    (last visitors stages.reverse).controllers = (last visitors stages).controllers := by
  have served : Service.ofSettings Settings.default = .ok visitors.service := by
    rw [Service.ofSettings,Settings.default_accepted]
    rfl
  have steady : ∀ c ∈ visitors.controllers, c.Steady Settings.default.generatedNamespace := by
    intro c member
    simp only [visitors,List.mem_cons,List.not_mem_nil,or_false] at member
    rcases member with rfl | rfl | rfl | rfl | rfl | rfl
    · exact Controller.steady_ofTexts (by decide) _ _ _ fun _ => .inl rfl
    · exact Controller.steady_ofTexts (by decide) _ _ _ fun _ => .inl rfl
    · exact Controller.steady_ofTexts (by decide) _ _ _ fun _ => .inr (.inr ⟨_,rfl,rfl⟩)
    · exact Controller.steady_ofTexts (by decide) _ _ _ fun _ => .inl rfl
    · exact Controller.steady_ofTexts (by decide) _ _ _ fun _ => .inr (.inl rfl)
    · exact Controller.steady_ofTexts (by decide) _ _ _ fun _ => .inl rfl
  have reversed : stages.reverse.Perm stages := List.reverse_perm stages
  exact ⟨served,steady,reversed,stages_commute served steady reversed (.refl stages)⟩

end Session
end TypedMvc
