import TypedMvc.Proofs.Grammar
import TypedMvc.Proofs.Outcome
import TypedMvc.Session

namespace TypedMvc

open CSharp

variable {cs : List Controller}

def NamesViewOnly (cs : List Controller) (trace : List Event) : Prop :=
  ∀ entry ∈ namings trace, ∃ c, cs[entry.1]? = some c ∧ c.isViewOnly = true

def Labelled (cs : List Controller) : Prop :=
  ∀ c ∈ cs, c.ns.truthy = true → c.generatedName.truthy = true

theorem written_unnamed {trace : List Event} {position : Nat} (unnamed : position ∉ (namings trace).map Prod.fst)
    (cs : List Controller) : (written trace cs)[position]? = cs[position]? := by
  induction trace generalizing cs with
  | nil => rfl
  | cons e rest ih =>
    cases e with
    | noted notice => exact ih unnamed cs
    | named first name =>
      rw [namings_named,List.map_cons,List.mem_cons,not_or] at unnamed
      rw [written_cons,ih unnamed.2,Event.applied,List.getElem?_modify]
      have elsewhere : first ≠ position := Ne.symm unnamed.1
      simp [elsewhere]

-- A controller after a trace is the old one, or a view-only one that has kept all but its generated name.
theorem NamesViewOnly.written {trace : List Event} (names : NamesViewOnly cs trace) {position : Nat} {c : Controller}
    (found : (TypedMvc.written trace cs)[position]? = some c) :
    ∃ d, cs[position]? = some d ∧
      (c = d ∨ d.isViewOnly = true ∧ c.name = d.name ∧ c.ns = d.ns ∧ c.area = d.area) := by
  have kept := written_ignored trace (fun c => (c.name,c.ns,c.area)) (fun _ _ => rfl) cs
  have here := congrArg (fun l : List (Value × Value × Value) => l[position]?) kept
  simp only [List.getElem?_map,found,Option.map_some] at here
  obtain ⟨d,there,equal⟩ := Option.map_eq_some_iff.mp here.symm
  refine ⟨d,there,?_⟩
  by_cases named : position ∈ (namings trace).map Prod.fst
  · obtain ⟨entry,member,rfl⟩ := List.mem_map.mp named
    obtain ⟨e,present,viewOnly⟩ := names entry member
    rw [there] at present
    cases present
    simp only [Prod.mk.injEq] at equal
    exact .inr ⟨viewOnly,equal.1.symm,equal.2.1.symm,equal.2.2.symm⟩
  · rw [written_unnamed named,there] at found
    exact .inl (Option.some.inj found).symm

theorem NamesViewOnly.prepared {trace : List Event} (names : NamesViewOnly cs trace) (root : String) :
    (TypedMvc.written trace cs).map (Controller.prepared root) = cs.map (Controller.prepared root) := by
  apply List.ext_getElem?
  intro position
  rw [List.getElem?_map,List.getElem?_map]
  cases found : (TypedMvc.written trace cs)[position]? with
  | none =>
    rw [List.getElem?_eq_none_iff,length_written] at found
    rw [List.getElem?_eq_none found]
  | some c =>
    obtain ⟨d,there,same⟩ := names.written found
    rw [there,Option.map_some,Option.map_some]
    rcases same with rfl | ⟨viewOnly,sameName,sameNs,sameArea⟩
    · rfl
    · rw [Controller.prepared_congr viewOnly sameName sameNs sameArea root]

theorem NamesViewOnly.labelled {trace : List Event} (names : NamesViewOnly cs trace) (labelled : Labelled cs) :
    Labelled (TypedMvc.written trace cs) := by
  intro c member backed
  obtain ⟨position,found⟩ := List.mem_iff_getElem?.mp member
  obtain ⟨d,there,same⟩ := names.written found
  rcases same with rfl | ⟨viewOnly,_,sameNs,_⟩
  · exact labelled c (List.mem_of_getElem? there) backed
  · rw [Controller.isViewOnly,← sameNs,backed] at viewOnly
    cases viewOnly

theorem NamesViewOnly.quiet {trace : List Event} (nothing : namings trace = []) : NamesViewOnly cs trace := by
  intro entry member
  rw [nothing] at member
  cases member

theorem NamesViewOnly.bind {r : Run α} {next : α → Run β} (first : NamesViewOnly cs r.trace)
    (second : ∀ a, NamesViewOnly (TypedMvc.written r.trace cs) (next a).trace) :
    NamesViewOnly cs (r >>= next).trace := by
  cases ended : r.outcome with
  | error failure =>
    rw [Run.bind_of_error _ ended]
    exact first
  | ok a =>
    rw [Run.bind_of_ok _ ended]
    intro entry member
    rw [namings_append,List.mem_append] at member
    rcases member with early | late
    · exact first entry early
    · obtain ⟨c,found,viewOnly⟩ := second a entry late
      obtain ⟨d,there,same⟩ := first.written found
      rcases same with rfl | ⟨before,_⟩
      · exact ⟨c,there,viewOnly⟩
      · exact ⟨d,there,before⟩

-- Who has a namespace has a name already, so filling in names only concerns the others.
theorem NamesViewOnly.of_fills {root : String} {trace : List Event} (labelled : Labelled cs)
    (fills : Generation.FillsOnly root cs trace) : NamesViewOnly cs trace := by
  intro entry member
  obtain ⟨c,found,empty,_⟩ := fills entry member
  refine ⟨c,found,?_⟩
  cases backed : c.ns.truthy with
  | false => simp [Controller.isViewOnly,backed]
  | true =>
    rw [labelled c (List.mem_of_getElem? found) backed] at empty
    cases empty

namespace Generation

theorem placeholderClasses_names (target : Target) (texts : ∀ c ∈ cs, c.Textual) :
    NamesViewOnly cs (placeholderClasses target cs).trace := by
  cases named : Synthesis.unnamed (cs.filter Controller.isViewOnly) with
  | some failure =>
    rw [placeholderClasses_unnamed target texts named]
    exact .quiet rfl
  | none =>
    intro entry member
    obtain ⟨c,found,viewOnly,_⟩ := (mem_namings_placeholders target texts named).mp member
    exact ⟨c,found,viewOnly⟩

theorem areaClasses_names (target : Target) (texts : ∀ c ∈ cs, c.Textual) (labelled : Labelled cs) :
    NamesViewOnly cs (areaClasses target cs).trace :=
  .of_fills labelled (areaClasses_texts target texts).2.1

theorem helpersClass_names (target : Target) (present : target.helpers ≠ "") (texts : ∀ c ∈ cs, c.Textual)
    (labelled : Labelled cs) : NamesViewOnly cs (helpersClass target cs).trace :=
  .of_fills labelled (helpersClass_plan target present texts).2.1

theorem generate_names (target : Target) (present : target.helpers ≠ "") (texts : ∀ c ∈ cs, c.Textual)
    (labelled : Labelled cs) : NamesViewOnly cs (generate target cs).trace := by
  have first := placeholderClasses_names target texts
  have firstTexts := written_texts (placeholderClasses target cs).trace texts
  have second := areaClasses_names target firstTexts (first.labelled labelled)
  have secondTexts := written_texts
    (areaClasses target (written (placeholderClasses target cs).trace cs)).trace firstTexts
  have third := helpersClass_names target present secondTexts (second.labelled (first.labelled labelled))
  rw [generate]
  refine .bind (.quiet rfl) fun _ => ?_
  refine .bind first fun viewOnly => ?_
  refine .bind second fun areas => ?_
  refine .bind third fun helpers => .quiet ?_
  dsimp only
  cases checkClasses (viewOnly ++ areas ++ helpers :: Synthesis.wrappers target.root) <;> rfl

theorem source_names (target : Target) (present : target.helpers ≠ "") (layout : Except Failure Layout)
    (texts : ∀ c ∈ cs, c.Textual) (labelled : Labelled cs) : NamesViewOnly cs (source target layout cs).trace := by
  rw [source]
  refine .bind (generate_names target present texts labelled) fun classes => .quiet ?_
  cases layout with
  | error failure => rfl
  | ok l => cases printFile l classes <;> rfl

theorem generate_prepared {ds : List Controller} (target : Target) (present : target.helpers ≠ "")
    (texts : ∀ c ∈ cs, c.Textual) (otherTexts : ∀ d ∈ ds, d.Textual)
    (same : ds.map (Controller.prepared target.root) = cs.map (Controller.prepared target.root)) :
    (generate target ds).outcome = (generate target cs).outcome := by
  have keeps := Controller.keeps_prepared target.root
  rw [generate_outcome target present otherTexts,generate_outcome target present texts,
    ← fault_map keeps target ds,← fault_map keeps target cs,same]

end Generation
namespace Session

-- A step that leaves the list itself alone: a call on it, other settings, or the name of a view-only controller.
def IsCall (cs : List Controller) : Step → Prop
  | .resolve index => ∀ position c, position? cs.length index = some position → cs[position]? = some c →
      c.isViewOnly = true
  | .settings _ | .viewOnly | .areas | .helper | .generate | .render | .source => True
  | .add _ | .assign .. | .remove _ | .reverse => False

-- What calls preserve: a state in which a generation finds what it would find on the original list.
structure Untouched (cs : List Controller) (s : State) : Prop where
  accepted : ∃ settings, Service.ofSettings settings = .ok s.service
  texts : ∀ c ∈ s.controllers, c.Textual
  labelled : Labelled s.controllers
  prepared : ∀ root, s.controllers.map (Controller.prepared root) = cs.map (Controller.prepared root)

variable {s : State}

theorem served_accepted {settings : Settings} {service : Service} (served : Service.ofSettings settings = .ok service) :
    settings.validate = .ok service.target := by
  unfold Service.ofSettings at served
  cases accepted : settings.validate with
  | error failure =>
    rw [accepted] at served
    cases served
  | ok target =>
    rw [accepted] at served
    cases served
    rfl

theorem Untouched.present (untouched : Untouched cs s) : s.service.target.helpers ≠ "" := by
  obtain ⟨settings,served⟩ := untouched.accepted
  exact Settings.helpers_ne_empty (served_accepted served)

theorem Untouched.isCall (untouched : Untouched cs s) {action : Step} (call : IsCall cs action) :
    IsCall s.controllers action := by
  have kinds : s.controllers.map Controller.isViewOnly = cs.map Controller.isViewOnly := by
    have same := congrArg (List.map Controller.isViewOnly) (untouched.prepared "")
    simpa only [List.map_map,Function.comp_def,Controller.prepared_isViewOnly] using same
  have sizes : s.controllers.length = cs.length := by
    simpa using congrArg List.length kinds
  cases action with
  | resolve index =>
    intro position c counted found
    rw [sizes] at counted
    have here := congrArg (fun l : List Bool => l[position]?) kinds
    simp only [List.getElem?_map,found,Option.map_some] at here
    obtain ⟨d,there,equal⟩ := Option.map_eq_some_iff.mp here.symm
    rw [← equal]
    exact call position d counted there
  | _ => exact call

theorem change_untouched (untouched : Untouched cs s) {next : Except Failure State}
    (reached : ∀ t, next = .ok t → Untouched cs t) : Untouched cs (change s next).2 := by
  cases next with
  | error failure => exact untouched
  | ok t => exact reached t rfl

theorem call_untouched (untouched : Untouched cs s) {r : Run α} (names : NamesViewOnly s.controllers r.trace)
    (answer : α → Answer) : Untouched cs (call s r answer).2 :=
  { accepted := untouched.accepted
    texts := Generation.written_texts r.trace untouched.texts
    labelled := names.labelled untouched.labelled
    prepared := fun root => (names.prepared root).trans (untouched.prepared root) }

theorem resolveAt_names {index : Int} (call : IsCall s.controllers (.resolve index)) :
    NamesViewOnly s.controllers (resolveAt s index).trace := by
  rw [resolveAt]
  cases found : atIndex s index with
  | error failure => exact .quiet rfl
  | ok entry =>
    obtain ⟨position,c⟩ := entry
    have here : position? s.controllers.length index = some position ∧ s.controllers[position]? = some c := by
      unfold atIndex at found
      cases counted : position? s.controllers.length index with
      | none => simp [counted] at found
      | some place =>
        cases there : s.controllers[place]? with
        | none => simp [counted,there] at found
        | some d =>
          simp only [counted,there,Except.ok.injEq,Prod.mk.injEq] at found
          obtain ⟨rfl,rfl⟩ := found
          exact ⟨rfl,there⟩
    rw [Run.settled_ok_bind]
    dsimp only
    cases c.resolve (.str s.service.target.root) with
    | error failure => exact .quiet rfl
    | ok name =>
      rw [Run.settled_ok_bind,Run.name_bind]
      intro entry member
      simp only [namings_named,Run.pure_trace,namings_nil,List.mem_singleton] at member
      subst member
      exact ⟨c,here.2,call position c here.1 here.2⟩

theorem step_untouched (untouched : Untouched cs s) (action : Step) (isCall : IsCall cs action) :
    Untouched cs (step s action).2 := by
  have present := untouched.present
  have here := untouched.isCall isCall
  cases action with
  | add | assign | remove | reverse => cases isCall
  | settings arguments =>
    refine change_untouched untouched fun t reached => ?_
    obtain ⟨settings,_,rest⟩ := bind_ok_iff.mp reached
    obtain ⟨service,served,made⟩ := bind_ok_iff.mp rest
    obtain rfl := Except.ok.inj made
    exact ⟨⟨settings,served⟩,untouched.texts,untouched.labelled,untouched.prepared⟩
  | resolve index => exact call_untouched untouched (resolveAt_names here) _
  | viewOnly => exact call_untouched untouched (Generation.placeholderClasses_names _ untouched.texts) _
  | areas => exact call_untouched untouched (Generation.areaClasses_names _ untouched.texts untouched.labelled) _
  | helper =>
    exact call_untouched untouched (Generation.helpersClass_names _ present untouched.texts untouched.labelled) _
  | generate =>
    have called := call_untouched untouched
      (Generation.generate_names s.service.target present untouched.texts untouched.labelled) .classes
    unfold step
    dsimp only
    split
    · exact ⟨called.accepted,called.texts,called.labelled,called.prepared⟩
    · exact called
  | render =>
    refine call_untouched untouched (.quiet ?_) _
    unfold rendered
    cases s.service.layout with
    | error failure => rfl
    | ok layout =>
      cases s.remembered with
      | none => rfl
      | some classes => rfl
  | source =>
    exact call_untouched untouched
      (Generation.source_names _ present _ untouched.texts untouched.labelled) _

theorem run_untouched (untouched : Untouched cs s) {steps : List Step} (calls : ∀ action ∈ steps, IsCall cs action) :
    ∀ result ∈ run s steps, Untouched cs result.2 := by
  induction steps generalizing s with
  | nil =>
    intro result member
    cases member
  | cons first rest ih =>
    intro result member
    have next := step_untouched untouched first (calls first List.mem_cons_self)
    rcases List.mem_cons.mp member with rfl | later
    · exact next
    · exact ih next (fun action inRest => calls action (List.mem_cons_of_mem _ inRest)) result later

theorem call_outcome (s : State) (r : Run α) (answer : α → Answer) :
    (call s r answer).1.outcome = r.outcome.map answer := by
  rw [call,Run.outcome_bind]
  cases r.outcome <;> rfl

theorem generate_answer (s : State) :
    (step s .generate).1.outcome =
      (Generation.generate s.service.target s.controllers).outcome.map .classes := by
  rw [← call_outcome s]
  unfold step
  dsimp only
  split <;> rfl

theorem generate_service (s : State) : (step s .generate).2.service = s.service := by
  unfold step
  dsimp only
  split <;> rfl

theorem source_answer (s : State) :
    (step s .source).1.outcome =
      (Generation.source s.service.target s.service.layout s.controllers).outcome.map .text :=
  call_outcome s _ _

theorem Untouched.generate {target : Target} (untouched : Untouched cs s) (texts : ∀ c ∈ cs, c.Textual)
    (present : target.helpers ≠ "") :
    (Generation.generate target s.controllers).outcome = (Generation.generate target cs).outcome :=
  Generation.generate_prepared target present texts untouched.texts (untouched.prepared target.root)

theorem Untouched.source {target : Target} (untouched : Untouched cs s) (texts : ∀ c ∈ cs, c.Textual)
    (present : target.helpers ≠ "") (layout : Except Failure Layout) :
    (Generation.source target layout s.controllers).outcome = (Generation.source target layout cs).outcome := by
  rw [Generation.source_outcome,Generation.source_outcome,untouched.generate texts present]

-- Whatever calls were made before, a generation under any accepted settings ends as on the original list, and so does
-- the text of its file. So a generation that is repeated gives the same answer again.
theorem calls_leave_generation {s : State} (accepted : ∃ settings, Service.ofSettings settings = .ok s.service)
    (texts : ∀ c ∈ s.controllers, c.Textual) (labelled : Labelled s.controllers) {steps : List Step}
    (calls : ∀ action ∈ steps, IsCall s.controllers action) :
    (∀ result ∈ run s steps, ∀ (settings : Settings) (target : Target), settings.validate = .ok target →
      (Generation.generate target result.2.controllers).outcome =
        (Generation.generate target s.controllers).outcome ∧
      ∀ layout, (Generation.source target layout result.2.controllers).outcome =
        (Generation.source target layout s.controllers).outcome) ∧
    (step (step s .generate).2 .generate).1.outcome = (step s .generate).1.outcome ∧
    (step (step s .source).2 .source).1.outcome = (step s .source).1.outcome := by
  have untouched : Untouched s.controllers s := ⟨accepted,texts,labelled,fun _ => rfl⟩
  refine ⟨?_,?_,?_⟩
  · intro result member settings target valid
    have present := Settings.helpers_ne_empty valid
    have after := run_untouched untouched calls result member
    exact ⟨after.generate texts present,after.source texts present⟩
  · have after := step_untouched untouched .generate trivial
    rw [generate_answer,generate_answer,generate_service,after.generate texts untouched.present]
  · have after := step_untouched untouched .source trivial
    rw [source_answer,source_answer]
    exact congrArg (Except.map Answer.text) (after.source texts untouched.present s.service.layout)

def shared : State :=
  ⟨[.ofTexts "Cart" none "Shop" (some "Stale"),.ofTexts "Home" (some "Shop.Controllers") "" (some "Shop.Home")],
    ⟨Settings.default,⟨"R4Mvc","MVC"⟩⟩,none⟩

def mixedCalls : List Step :=
  [.areas,.settings [(.str "generated_namespace",.str "Other")],.resolve 0,.generate,.source]

theorem calls_leave_generation_shared :
    Service.ofSettings Settings.default = .ok shared.service ∧
    ∀ result ∈ run shared mixedCalls,
      (Generation.generate ⟨"R4Mvc","MVC"⟩ result.2.controllers).outcome =
        (Generation.generate ⟨"R4Mvc","MVC"⟩ shared.controllers).outcome := by
  have served : Service.ofSettings Settings.default = .ok shared.service := by
    rw [Service.ofSettings,Settings.default_accepted]
    rfl
  have texts : ∀ c ∈ shared.controllers, c.Textual := by
    simp [shared,Controller.textual_ofTexts]
  have labelled : Labelled shared.controllers := by
    simp [Labelled,shared,Controller.ofTexts]
  have first : IsCall shared.controllers (.resolve 0) := by
    intro position c counted found
    simp only [shared,position?,List.length_cons,List.length_nil] at counted
    cases counted
    cases found
    rfl
  have calls : ∀ action ∈ mixedCalls, IsCall shared.controllers action := by
    intro action member
    simp only [mixedCalls,List.mem_cons,List.not_mem_nil,or_false] at member
    rcases member with rfl | rfl | rfl | rfl | rfl
    · trivial
    · trivial
    · exact first
    · trivial
    · trivial
  refine ⟨served,?_⟩
  intro result member
  have unnoticed := (calls_leave_generation ⟨_,served⟩ texts labelled calls).1
  exact (unnoticed result member Settings.default _ Settings.default_accepted).1

end Session
end TypedMvc
