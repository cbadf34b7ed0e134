import TypedMvc.Proofs.Textual
import TypedMvc.Run

namespace TypedMvc

namespace Run

@[simp] theorem settled_outcome (outcome : Except Failure α) : (settled outcome).outcome = outcome := rfl

@[simp] theorem settled_trace (outcome : Except Failure α) : (settled outcome).trace = [] := rfl

@[simp] theorem settled_ok_bind (a : α) (next : α → Run β) : (settled (.ok a) >>= next) = next a := rfl

@[simp] theorem settled_error_bind (failure : Failure) (next : α → Run β) :
    (settled (.error failure) >>= next) = settled (.error failure) := rfl

@[simp] theorem name_bind (position : Nat) (generatedName : String) (next : Unit → Run β) :
    (name position generatedName >>= next) =
      ⟨(next ()).outcome,.named position generatedName :: (next ()).trace⟩ := rfl

@[simp] theorem note_bind (notice : Notice) (next : Unit → Run β) :
    (note notice >>= next) = ⟨(next ()).outcome,.noted notice :: (next ()).trace⟩ := rfl

theorem outcome_bind (r : Run α) (next : α → Run β) :
    (r >>= next).outcome = (r.outcome >>= fun a => (next a).outcome) := by
  cases ended : r.outcome with
  | ok a => rw [bind_of_ok next ended]; rfl
  | error failure => rw [bind_of_error next ended]; rfl

end Run

def namings (trace : List Event) : List (Nat × String) :=
  trace.filterMap fun | .named position name => some (position,name) | .noted _ => none

@[simp] theorem namings_nil : namings [] = [] := rfl

@[simp] theorem namings_append (first second : List Event) :
    namings (first ++ second) = namings first ++ namings second :=
  List.filterMap_append

@[simp] theorem namings_named (position : Nat) (name : String) (rest : List Event) :
    namings (.named position name :: rest) = (position,name) :: namings rest := rfl

@[simp] theorem namings_noted (notice : Notice) (rest : List Event) :
    namings (.noted notice :: rest) = namings rest := rfl

theorem namings_bind_quiet (r : Run α) (next : α → Run β) (quiet : ∀ a, namings (next a).trace = []) :
    namings (r >>= next).trace = namings r.trace := by
  cases ended : r.outcome with
  | ok a => simp [Run.bind_of_ok _ ended,quiet]
  | error failure => simp [Run.bind_of_error _ ended]

-- Notices change nothing, so the names in a trace decide.
theorem written_of_namings {first second : List Event} (same : namings first = namings second)
    (controllers : List Controller) : written first controllers = written second controllers := by
  have quiet : ∀ trace : List Event, ∀ controllers : List Controller, written trace controllers =
      written ((namings trace).map fun entry => .named entry.1 entry.2) controllers := by
    intro trace
    induction trace with
    | nil => exact fun _ => rfl
    | cons e rest ih =>
      intro controllers
      cases e with
      | named position name => exact ih _
      | noted notice => exact ih _
  rw [quiet first,quiet second,same]

theorem written_ignored (trace : List Event) (f : Controller → β)
    (ignored : ∀ c name, f { c with generatedName := .str name } = f c) (controllers : List Controller) :
    (written trace controllers).map f = controllers.map f := by
  induction trace generalizing controllers with
  | nil => rfl
  | cons e rest ih =>
    rw [written_cons,ih]
    cases e with
    | noted notice => rfl
    | named position name =>
      apply List.ext_getElem?
      intro i
      rw [Event.applied,List.getElem?_map,List.getElem?_map,List.getElem?_modify]
      by_cases here : position = i
      · cases controllers[i]? <;> simp [here,ignored]
      · simp [here]

-- A change to each controller that leaves its generated name alone may come before the names are written or after.
theorem written_commutes {f : Controller → Controller}
    (apart : ∀ c name, f { c with generatedName := .str name } = { f c with generatedName := .str name })
    (trace : List Event) (controllers : List Controller) :
    written trace (controllers.map f) = (written trace controllers).map f := by
  induction trace generalizing controllers with
  | nil => rfl
  | cons e rest ih =>
    rw [written_cons,written_cons,← ih]
    congr 1
    cases e with
    | noted notice => rfl
    | named position name =>
      apply List.ext_getElem?
      intro i
      simp only [Event.applied,List.getElem?_modify,List.getElem?_map]
      cases controllers[i]? with
      | none => rfl
      | some c => by_cases here : position = i <;> simp [here,apart]

-- What no name of the trace undoes holds of every controller in the end, if it does at first.
theorem written_each {P : Controller → Prop} {trace : List Event}
    (kept : ∀ entry ∈ namings trace, ∀ c, P c → P { c with generatedName := .str entry.2 })
    {controllers : List Controller} (each : ∀ c ∈ controllers, P c) : ∀ c ∈ written trace controllers, P c := by
  induction trace generalizing controllers with
  | nil => exact each
  | cons e rest ih =>
    cases e with
    | noted notice => exact ih kept each
    | named position name =>
      refine ih (fun entry member => kept entry (List.mem_cons_of_mem _ member)) ?_
      intro c member
      obtain ⟨i,found⟩ := List.mem_iff_getElem?.mp member
      rw [Event.applied,List.getElem?_modify] at found
      obtain ⟨d,there,rfl⟩ := Option.map_eq_some_iff.mp found
      have old : P d := each d (List.mem_of_getElem? there)
      by_cases here : position = i
      · rw [if_pos here]
        exact kept (position,name) List.mem_cons_self d old
      · rw [if_neg here]
        exact old

-- Each name is the resolved name of the controller at its position. It does not depend on the name that is there before.
def WritesResolved (root : String) (controllers : List Controller) (trace : List Event) : Prop :=
  ∀ entry ∈ namings trace, ∃ c, controllers[entry.1]? = some c ∧ entry.2 = c.resolvedName root

theorem written_getElem? {root : String} {controllers : List Controller} {trace : List Event}
    (resolved : WritesResolved root controllers trace) (position : Nat) :
    (written trace controllers)[position]? = controllers[position]?.map fun c =>
      if position ∈ (namings trace).map Prod.fst then c.renamed root else c := by
  induction trace generalizing controllers with
  | nil => simp
  | cons e rest ih =>
    cases e with
    | noted notice => exact ih resolved
    | named first name =>
      obtain ⟨c,found,rfl⟩ := resolved (first,name) (by simp)
      have applied : Event.applied controllers (.named first (c.resolvedName root)) =
          controllers.modify first (Controller.renamed root) := by
        apply List.ext_getElem?
        intro i
        rw [Event.applied,List.getElem?_modify,List.getElem?_modify]
        by_cases here : first = i
        · subst here
          simp [found,Controller.renamed]
        · simp [here]
      -- the later names are resolved ones for the renamed list too, since renaming does not change what resolves
      have restResolved : WritesResolved root (controllers.modify first (Controller.renamed root)) rest := by
        intro entry member
        obtain ⟨d,there,equal⟩ := resolved entry (by simp [member])
        rw [List.getElem?_modify,there]
        by_cases here : first = entry.1
        · exact ⟨d.renamed root,by simp [here],equal⟩
        · exact ⟨d,by simp [here],equal⟩
      rw [written_cons,applied,ih restResolved,List.getElem?_modify]
      cases controllers[position]? with
      | none => rfl
      | some d =>
        by_cases here : first = position
        · simp [here,Controller.renamed_renamed]
        · have later : position ∈ (namings (.named first (c.resolvedName root) :: rest)).map Prod.fst ↔
              position ∈ (namings rest).map Prod.fst := by
            rw [namings_named,List.map_cons,List.mem_cons,or_iff_right (Ne.symm here)]
          simp only [here,if_false,Option.map_eq_map,Option.map_some,later]

theorem written_map {root : String} {controllers : List Controller} {trace : List Event}
    (resolved : WritesResolved root controllers trace) (f : Controller → β)
    (kept : ∀ position c, controllers[position]? = some c → position ∈ (namings trace).map Prod.fst →
      f (c.renamed root) = f c) :
    (written trace controllers).map f = controllers.map f := by
  apply List.ext_getElem?
  intro position
  rw [List.getElem?_map,List.getElem?_map,written_getElem? resolved]
  cases found : controllers[position]? with
  | none => rfl
  | some c =>
    by_cases named : position ∈ (namings trace).map Prod.fst
    · simp only [Option.map_some,if_pos named,kept position c found named]
    · simp only [Option.map_some,if_neg named]

end TypedMvc
