import Mathlib.Data.List.Pairwise
import TypedMvc.Proofs.RootArea

namespace TypedMvc

open CSharp Synthesis

namespace Value

def IsText (v : Value) : Prop := ∃ s, v = .str s

variable {v : Value} {s : String}

theorem isText_of_same (equal : same (.str s) v = true) : v.IsText := by
  cases v with
  | str t => exact ⟨t,rfl⟩
  | _ => simp [same,sameScalar,quantity?] at equal

theorem before?_misfit (misfit : ¬ v.IsText) (s : String) : before? (.str s) v = none := by
  cases v with
  | str t => exact absurd ⟨t,rfl⟩ misfit
  | _ => simp [before?,beforeScalar?,quantity?]

theorem literalOf_misfit (misfit : ¬ v.IsText) : ∃ fault, literalOf v = .error (.misuse fault) := by
  cases v with
  | str t => exact absurd ⟨t,rfl⟩ misfit
  | _ => exact ⟨_,rfl⟩

theorem textField_misfit (misfit : ¬ v.IsText) (name : String) :
    ∃ fault, textField name v = .error (.misuse fault) := by
  obtain ⟨fault,failed⟩ := literalOf_misfit misfit
  exact ⟨fault,by rw [textField,failed]; rfl⟩

end Value

-- What groups by a key are made of: their keys and their members come from the list, and each element has a group.
structure Grouped (key : α → Value) (l : List α) (groups : List (Value × List α)) : Prop where
  keys : ∀ group ∈ groups, ∃ a ∈ l, group.1 = key a
  members : ∀ group ∈ groups, ∀ a ∈ group.2, a ∈ l
  placed : ∀ a ∈ l, ∃ group ∈ groups, group.1 = key a ∨ Value.same group.1 (key a) = true

theorem Grouped.place {key : α → Value} {l : List α} {groups : List (Value × List α)} (grouped : Grouped key l groups)
    (a : α) : Grouped key (l ++ [a]) (groupByKey.place key groups a) := by
  obtain ⟨keys,members,placed⟩ := grouped
  unfold groupByKey.place
  split
  · rename_i known
    obtain ⟨own,among,same⟩ := List.any_eq_true.mp known
    refine ⟨?_,?_,?_⟩
    · intro group member
      obtain ⟨old,there,rfl⟩ := List.mem_map.mp member
      obtain ⟨b,inside,equal⟩ := keys old there
      refine ⟨b,List.mem_append_left _ inside,?_⟩
      split <;> exact equal
    · intro group member b inside
      obtain ⟨old,there,rfl⟩ := List.mem_map.mp member
      split at inside
      · rcases List.mem_append.mp inside with before | new
        · exact List.mem_append_left _ (members old there b before)
        · exact List.mem_append_right _ new
      · exact List.mem_append_left _ (members old there b inside)
    · intro b inside
      -- the groups keep their keys, so each has its place as before
      have kept : ∀ group ∈ groups, ∃ later ∈ groups.map fun group =>
          if Value.same group.1 (key a) then (group.1,group.2 ++ [a]) else group, later.1 = group.1 := by
        intro group there
        refine ⟨_,List.mem_map_of_mem there,?_⟩
        split <;> rfl
      rcases List.mem_append.mp inside with before | new
      · obtain ⟨group,there,found⟩ := placed b before
        obtain ⟨later,present,equal⟩ := kept group there
        exact ⟨later,present,by rwa [equal]⟩
      · obtain ⟨later,present,equal⟩ := kept own among
        rw [List.mem_singleton.mp new]
        exact ⟨later,present,.inr (by rwa [equal])⟩
  · refine ⟨?_,?_,?_⟩
    · intro group member
      rcases List.mem_append.mp member with old | new
      · obtain ⟨b,inside,equal⟩ := keys group old
        exact ⟨b,List.mem_append_left _ inside,equal⟩
      · rw [List.mem_singleton.mp new]
        exact ⟨a,by simp,rfl⟩
    · intro group member b inside
      rcases List.mem_append.mp member with old | new
      · exact List.mem_append_left _ (members group old b inside)
      · rw [List.mem_singleton.mp new] at inside
        exact List.mem_append_right _ inside
    · intro b inside
      rcases List.mem_append.mp inside with before | new
      · obtain ⟨group,there,found⟩ := placed b before
        exact ⟨group,List.mem_append_left _ there,found⟩
      · rw [List.mem_singleton.mp new]
        exact ⟨_,List.mem_append_right _ List.mem_cons_self,.inl rfl⟩

theorem groupByKey_grouped {key : α → Value} {l : List α} {groups : List (Value × List α)}
    (ran : groupByKey key l = .ok groups) : Grouped key l groups := by
  unfold groupByKey at ran
  dsimp only at ran
  split at ran
  · obtain rfl := Except.ok.inj ran
    clear ran
    rename_i hashable
    clear hashable
    induction l using List.reverseRecOn with
    | nil => exact ⟨by simp,by simp,by simp⟩
    | append_singleton l a ih =>
      rw [List.foldl_append]
      exact ih.place a
  · cases ran

theorem groupByKey_error {key : α → Value} {l : List α} {failure : Failure}
    (failed : groupByKey key l = .error failure) : failure.report = none := by
  unfold groupByKey at failed
  dsimp only at failed
  split at failed
  · cases failed
  · obtain rfl := Except.error.inj failed
    rfl

theorem Grouped.groupOf {key : Controller × Nat → Value} {l : List (Controller × Nat)} {groups : Grouping}
    (grouped : Grouped key l groups) (area : Value) : ∀ p ∈ Synthesis.groupOf area groups, p ∈ l := by
  intro p among
  unfold Synthesis.groupOf at among
  cases found : groups.find? fun group => Value.same group.1 area with
  | none => simp [found] at among
  | some group =>
    rw [found] at among
    exact grouped.members group (List.mem_of_find?_eq_some found) p among

theorem sortedBy?_some {before? : α → α → Option Bool} {l sorted : List α}
    (ran : sortedBy? before? l = some sorted) :
    l.Pairwise (fun a b => (before? a b).isSome ∧ (before? b a).isSome) ∧ sorted.Perm l := by
  unfold sortedBy? at ran
  split at ran
  · rename_i comparable
    obtain rfl := Option.some.inj ran
    exact ⟨comparable,List.mergeSort_perm _ _⟩
  · cases ran

-- Values that are sorted together with one that is no text are all no texts.
theorem sortedBy?_misfit {l sorted : List Value} {v : Value} (member : v ∈ l) (misfit : ¬ v.IsText)
    (ran : sortedBy? Value.before? l = some sorted) : sorted ≠ [] ∧ ∀ w ∈ sorted, ¬ w.IsText := by
  obtain ⟨comparable,perm⟩ := sortedBy?_some ran
  refine ⟨List.ne_nil_of_mem (perm.mem_iff.mpr member),?_⟩
  rintro w among ⟨s,rfl⟩
  have different : Value.str s ≠ v := by
    rintro rfl
    exact misfit ⟨s,rfl⟩
  have symmetric : Std.Symm fun v w => (Value.before? v w).isSome = true ∧ (Value.before? w v).isSome = true :=
    ⟨fun _ _ => And.symm⟩
  have compared := comparable.forall (perm.mem_iff.mp among) member different
  rw [Value.before?_misfit misfit] at compared
  cases compared.1

theorem sortedAreas_misfit {groups : List (Value × α)} {group : Value × α} {areas : List Value}
    (member : group ∈ groups) (present : group.1.truthy = true) (misfit : ¬ group.1.IsText)
    (ran : sortedAreas groups = .ok areas) : areas ≠ [] ∧ ∀ area ∈ areas, ¬ area.IsText := by
  unfold sortedAreas at ran
  split at ran
  · rename_i sorted
    obtain rfl := Except.ok.inj ran
    exact sortedBy?_misfit (List.mem_filter.mpr ⟨List.mem_map_of_mem member,present⟩) misfit sorted
  · cases ran

theorem sortedAreas_error {groups : List (Value × α)} {failure : Failure}
    (failed : sortedAreas groups = .error failure) : failure.report = none := by
  unfold sortedAreas at failed
  split at failed
  · cases failed
  · obtain rfl := Except.error.inj failed
    rfl

structure Controller.Placed (c : Controller) : Prop where
  name : ∃ s, s ≠ "" ∧ c.name = .str s
  area : c.area.truthy = true ∨ c.area = .str ""

namespace Controller

variable {c : Controller}

theorem Placed.named (placed : c.Placed) : c.name.truthy = true := by
  obtain ⟨s,given,equal⟩ := placed.name
  simpa [equal] using given

theorem Placed.name_eq (placed : c.Placed) : c.name = .str c.name.text := by
  obtain ⟨s,_,equal⟩ := placed.name
  rw [equal,Value.text_str]

theorem Placed.areaKey_eq (placed : c.Placed) : c.areaKey = c.area := by
  rcases placed.area with present | empty
  · rw [areaKey,Value.orElse,if_pos present]
  · rw [areaKey,empty]
    rfl

theorem Placed.viewOnlyClassName_eq (placed : c.Placed) :
    c.viewOnlyClassName = .error .longNumber ∨ ∃ identifier, identifier ≠ "" ∧ c.viewOnlyClassName = .ok identifier := by
  obtain ⟨name,given,named⟩ := placed.name
  have simple : className name ≠ "" := by simp [className,suffix]
  rw [viewOnlyClassName,requireName_named placed.named,named]
  cases inside : c.area.truthy with
  | false => exact .inr ⟨className name,simple,rfl⟩
  | true =>
    by_cases long : c.area.hasLongNumber = true
    · exact .inl (by simp [Value.shown,long,bind,Except.bind])
    · refine .inr ⟨c.area.text ++ areaMark ++ className name,by simp [simple],?_⟩
      simp [Value.shown,long,bind,Except.bind,pure,Except.pure]

end Controller

theorem placeholderClass_unreported {c : Controller} (placed : c.Placed) {root identifier : String}
    (given : identifier ≠ "") {failure : Failure} (failed : placeholderClass root identifier c = .error failure) :
    failure.report = none := by
  obtain ⟨name,_,named⟩ := placed.name
  rw [placeholderClass,named,textField_str] at failed
  have passed : ∀ (members : List Member) (names : List String),
      members.filterMap Member.name? = names.map .str → names.Nodup →
      markedClass identifier root [.publicAccess,.partialClass] [] members ≠ .error failure := by
    intro members names shown distinct
    rw [markedClass_texts members names shown given,repeatedMember_eq_none.mpr distinct]
    simp
  cases inside : c.area.truthy with
  | false =>
    simp only [inside,Bool.false_eq_true,if_false,bind,Except.bind] at failed
    exact absurd failed (passed _ ["Name"] rfl (by decide))
  | true =>
    simp only [inside,if_true,bind,Except.bind] at failed
    by_cases text : c.area.IsText
    · obtain ⟨area,shown⟩ := text
      rw [shown,textField_str] at failed
      exact absurd failed (passed _ ["Name","Area"] rfl (by decide))
    · obtain ⟨fault,misused⟩ := Value.textField_misfit text "Area"
      rw [misused] at failed
      obtain rfl := Except.error.inj failed
      rfl

-- Placed controllers can fail in the placeholder stage for their areas alone.
theorem placeholdersFrom_unreported {l : List (Controller × Nat)} (placed : ∀ p ∈ l, p.1.Placed)
    (viewOnly : ∀ p ∈ l, p.1.isViewOnly = true) (root : String) (seen : List (Value × Value)) {failure : Failure}
    (failed : (placeholdersFrom root seen l).outcome = .error failure) : failure.report = none := by
  induction l generalizing seen with
  | nil => cases failed
  | cons p rest ih =>
    obtain ⟨c,position⟩ := p
    have later := ih (fun q member => placed q (List.mem_cons_of_mem _ member))
      fun q member => viewOnly q (List.mem_cons_of_mem _ member)
    have own : c.Placed := placed (c,position) List.mem_cons_self
    have alone : c.isViewOnly = true := viewOnly (c,position) List.mem_cons_self
    have backless : c.ns.truthy = false := by simpa [Controller.isViewOnly] using alone
    have resolved : c.resolve (.str root) = c.viewOnlyClassName.map fun name => root ++ "." ++ name := by
      simp only [Controller.resolve,Controller.generatedNamespace,backless,Controller.generatedClassName,alone,if_true]
      cases c.viewOnlyClassName <;> rfl
    unfold placeholdersFrom at failed
    rw [resolved] at failed
    rcases own.viewOnlyClassName_eq with long | ⟨identifier,given,shown⟩
    · rw [long] at failed
      obtain rfl := Except.error.inj failed
      rfl
    · simp only [shown,Except.map,Run.settled_ok_bind,Run.name_bind] at failed
      split at failed
      · obtain rfl := Except.error.inj failed
        rfl
      · split at failed
        · exact later seen failed
        · cases made : placeholderClass root identifier c with
          | error cause =>
            rw [made,Run.settled_error_bind] at failed
            obtain rfl := Except.error.inj failed
            exact placeholderClass_unreported own given made
          | ok _ =>
            simp only [made,Run.settled_ok_bind,Run.note_bind,Run.outcome_bind] at failed
            rcases bind_error failed with ended | ⟨_,_,completed⟩
            · exact later _ ended
            · cases completed

namespace Generation

variable {target : Target} {cs : List Controller} {failure : Failure}

theorem placeholderClasses_unreported (placed : ∀ c ∈ cs, c.Placed)
    (failed : (placeholderClasses target cs).outcome = .error failure) : failure.report = none := by
  have keyed : ((cs.zipIdx.filter fun p => p.1.isViewOnly).mapM fun p => (p.1.sortKey).map fun key => (key,p)) =
      .ok ((cs.zipIdx.filter fun p => p.1.isViewOnly).map fun p => ((p.1.areaKey,p.1.name),p)) := by
    refine mapM_ok ?_
    intro p member
    have own := placed p.1 (List.fst_mem_of_mem_zipIdx (List.mem_filter.mp member).1)
    rw [Controller.sortKey,Controller.requireName_named own.named]
    rfl
  rw [placeholderClasses,placeholders,candidates,sortedByKey,keyed] at failed
  simp only [bind,Except.bind] at failed
  split at failed
  · rename_i sorted ran
    have perm := (sortedBy?_some ran).2
    have candidate : ∀ p ∈ sorted.map (·.2), p.1 ∈ cs ∧ p.1.isViewOnly = true := by
      intro p member
      obtain ⟨q,among,rfl⟩ := List.mem_map.mp member
      obtain ⟨r,inside,rfl⟩ := List.mem_map.mp (perm.mem_iff.mp among)
      obtain ⟨present,viewOnly⟩ := List.mem_filter.mp inside
      exact ⟨List.fst_mem_of_mem_zipIdx present,viewOnly⟩
    exact placeholdersFrom_unreported (fun p member => placed p.1 (candidate p member).1)
      (fun p member => (candidate p member).2) target.root [] failed
  · obtain rfl := Except.error.inj failed
    rfl

theorem byArea_misfit (placed : ∀ c ∈ cs, c.Placed) {c : Controller} (member : c ∈ cs) (misfit : ¬ c.area.IsText)
    {groups : Grouping} (ran : byArea cs.zipIdx = .ok groups) :
    ∃ group ∈ groups, group.1.truthy = true ∧ ¬ group.1.IsText := by
  obtain ⟨keys,_,present⟩ := groupByKey_grouped ran
  obtain ⟨position,found⟩ := List.mem_iff_getElem?.mp member
  obtain ⟨group,there,own⟩ := present (c,position) (List.mem_zipIdx_iff_getElem?.mpr found)
  rw [(placed c member).areaKey_eq] at own
  have strange : ¬ group.1.IsText := by
    rintro ⟨s,text⟩
    rcases own with equal | same
    · exact misfit ⟨s,by rw [← equal,text]⟩
    · rw [text] at same
      exact misfit (Value.isText_of_same same)
  refine ⟨group,there,?_,strange⟩
  obtain ⟨p,among,equal⟩ := keys group there
  have inside := placed p.1 (List.fst_mem_of_mem_zipIdx among)
  rw [equal,inside.areaKey_eq] at strange ⊢
  exact inside.area.resolve_right fun empty => strange ⟨"",empty⟩

-- The areas are sorted apart from texts, so the first of them is one that cannot be quoted.
theorem areaClasses_misfit (target : Target) (placed : ∀ c ∈ cs, c.Placed) {c : Controller} (member : c ∈ cs)
    (misfit : ¬ c.area.IsText) :
    ∃ failure, (areaClasses target cs).outcome = .error failure ∧ failure.report = none := by
  rw [areaClasses]
  cases grouped : byArea cs.zipIdx with
  | error failure => exact ⟨failure,rfl,groupByKey_error grouped⟩
  | ok groups =>
    rw [Run.settled_ok_bind,Synthesis.areaClasses]
    cases sorted : sortedAreas groups with
    | error failure => exact ⟨failure,rfl,sortedAreas_error sorted⟩
    | ok areas =>
      obtain ⟨group,there,truthy,strange⟩ := byArea_misfit placed member misfit grouped
      obtain ⟨some,strangers⟩ := sortedAreas_misfit there truthy strange sorted
      rw [Run.settled_ok_bind]
      cases areas with
      | nil => exact absurd rfl some
      | cons area rest =>
        have inGroup : ∀ p ∈ groupOf area groups, p.1.Placed := fun p among =>
          placed p.1 (List.fst_mem_of_mem_zipIdx ((groupByKey_grouped grouped).groupOf area p among))
        obtain ⟨fault,misused⟩ := Value.textField_misfit (strangers area List.mem_cons_self) "Name"
        refine ⟨.misuse fault,?_,rfl⟩
        rw [areaClassesFrom,areaClass,uniqueByName_named (fun p among => (inGroup p among).name_eq)
          (fun p among => (inGroup p among).named),Run.settled_ok_bind,misused]
        rfl

theorem written_placed (trace : List Event) (placed : ∀ c ∈ cs, c.Placed) : ∀ c ∈ written trace cs, c.Placed :=
  written_each (fun _ _ _ old => ⟨old.name,old.area⟩) placed

-- One area that is no text, and the run breaks off without a report.
theorem generate_misfit (target : Target) (placed : ∀ c ∈ cs, c.Placed) {c : Controller} (member : c ∈ cs)
    (misfit : ¬ c.area.IsText) : ∃ failure, (generate target cs).outcome = .error failure ∧ failure.report = none := by
  rw [generate_eq]
  cases outcome : (placeholderClasses target cs).outcome with
  | error failure => exact ⟨failure,rfl,placeholderClasses_unreported placed outcome⟩
  | ok viewOnly =>
    have kept := written_ignored (placeholderClasses target cs).trace Controller.area (fun _ _ => rfl) cs
    have among := List.mem_map_of_mem (f := Controller.area) member
    rw [← kept] at among
    obtain ⟨d,present,equal⟩ := List.mem_map.mp among
    obtain ⟨failure,failed,unreported⟩ :=
      areaClasses_misfit target (written_placed _ placed) present (by rwa [equal])
    refine ⟨failure,?_,unreported⟩
    show (afterPlaceholders target viewOnly _).outcome = _
    rw [afterPlaceholders,sequenced,Run.outcome_bind,failed]
    rfl

end Generation
end TypedMvc
