import Mathlib.Data.String.Basic
import TypedMvc.Generation
import TypedMvc.Proofs.Textual
import TypedMvc.Proofs.Uniqueness

namespace TypedMvc

open CSharp

theorem before?_texts (s t : String) : Value.before? (.str s) (.str t) = some (decide (s < t)) := by
  rw [Value.before?_str]

section Groups

variable {key : α → Value} {k : α → String}

-- Keys in the order of their first appearance, each with the elements that have it.
def groupsOf (k : α → String) (l : List α) : List (Value × List α) :=
  (l.map k).eraseDups.map fun s => (.str s,l.filter fun a => decide (k a = s))

theorem groupsOf_snoc (l : List α) (a : α) (text : key a = .str (k a)) :
    groupByKey.place key (groupsOf k l) a = groupsOf k (l ++ [a]) := by
  have present : ((groupsOf k l).any fun group => Value.same group.1 (key a)) = decide (k a ∈ l.map k) := by
    have keys : (groupsOf k l).map (·.1) = (l.map k).eraseDups.map .str := by
      simp [groupsOf]
    have anyKey := any_same_str (l.map k).eraseDups (k a)
    rw [← keys,List.any_map] at anyKey
    rw [text]
    simp only [List.mem_eraseDups] at anyKey
    exact anyKey
  unfold groupByKey.place
  rw [present]
  by_cases known : k a ∈ l.map k
  · rw [if_pos (by simpa using known)]
    simp only [groupsOf,List.map_append,List.map_cons,List.map_nil,eraseDups_snoc,if_pos known,List.map_map]
    refine List.map_congr_left ?_
    intro s _
    by_cases own : s = k a
    · simp [text,own]
    · simp [text,own,Ne.symm own]
  · rw [if_neg (by simpa using known)]
    simp only [groupsOf,List.map_append,List.map_cons,List.map_nil,eraseDups_snoc,if_neg known]
    have without : l.filter (fun b => decide (k b = k a)) = [] := by
      refine List.filter_eq_nil_iff.mpr ?_
      intro b member equal
      exact known (List.mem_map.mpr ⟨b,member,by simpa using equal⟩)
    congr 1
    · refine List.map_congr_left ?_
      intro s member
      have other : k a ≠ s := by
        rintro rfl
        exact known (List.mem_eraseDups.mp member)
      simp [other]
    · simp [text,without]

theorem groupByKey_texts {l : List α} (texts : ∀ a ∈ l, key a = .str (k a)) :
    groupByKey key l = .ok (groupsOf k l) := by
  have hashable : (l.all fun a => (key a).hashable) = true := by
    refine List.all_eq_true.mpr ?_
    intro a member
    rw [texts a member,Value.hashable_str]
  rw [groupByKey,if_pos hashable]
  congr 1
  clear hashable
  induction l using List.reverseRecOn with
  | nil => rfl
  | append_singleton l a ih =>
    rw [List.foldl_append,ih fun b member => texts b (List.mem_append_left _ member)]
    exact groupsOf_snoc l a (texts a (by simp))

theorem find?_groupsOf (l : List α) (s : String) :
    (((groupsOf k l).find? fun group => Value.same group.1 (.str s)).map (·.2)).getD [] =
      l.filter fun a => decide (k a = s) := by
  rw [groupsOf,List.find?_map]
  cases found : (l.map k).eraseDups.find? ((fun group : Value × List α => Value.same group.1 (.str s)) ∘
      fun s => (.str s,l.filter fun a => decide (k a = s))) with
  | some t =>
    have equal : t = s := by simpa using List.find?_some found
    simp [equal]
  | none =>
    refine (List.filter_eq_nil_iff.mpr ?_).symm
    intro a member equal
    have absent := List.find?_eq_none.mp found (k a) (List.mem_eraseDups.mpr (List.mem_map_of_mem member))
    simp at absent equal
    exact absent equal

theorem sortedBy?_texts {l : List String} (distinct : l.Nodup) :
    sortedBy? Value.before? (l.map .str) = some ((ascending l).map .str) := by
  have compared : ∀ v ∈ l.map Value.str, ∀ w ∈ l.map Value.str,
      Value.before? v w = some (decide (v.text < w.text)) := by
    intro v left w right
    obtain ⟨s,_,rfl⟩ := List.mem_map.mp left
    obtain ⟨t,_,rfl⟩ := List.mem_map.mp right
    exact before?_texts s t
  have shown : (l.map Value.str).map Value.text = l := by
    simp [Function.comp_def]
  obtain ⟨sorted,ran,perm,texts⟩ := sortedBy?_distinct Value.text compared (by rwa [shown])
  rw [shown] at texts
  have strings : sorted = (sorted.map Value.text).map Value.str := by
    rw [List.map_map]
    refine (List.map_id sorted).symm.trans (List.map_congr_left ?_)
    intro v member
    obtain ⟨s,_,rfl⟩ := List.mem_map.mp (perm.mem_iff.mp member)
    rfl
  rw [ran,strings,texts]

theorem sortedAreas_groupsOf (l : List α) :
    sortedAreas (groupsOf k l) = .ok ((ascending ((l.map k).filter fun s => decide (s ≠ ""))).map .str) := by
  have keys : ((groupsOf k l).map (·.1)).filter Value.truthy =
      ((l.map k).eraseDups.filter fun s => decide (s ≠ "")).map .str := by
    rw [groupsOf,List.map_map,List.filter_map]
    congr 1
    refine List.filter_congr ?_
    intro s _
    by_cases empty : s = "" <;> simp [empty]
  have distinct := (nodup_eraseDups (l.map k)).filter fun s => decide (s ≠ "")
  have same : ascending ((l.map k).eraseDups.filter fun s => decide (s ≠ "")) =
      ascending ((l.map k).filter fun s => decide (s ≠ "")) := by
    refine ascending_congr ?_
    intro s
    rw [List.mem_filter,List.mem_filter,List.mem_eraseDups]
  rw [sortedAreas,keys,sortedBy?_texts distinct,same]

end Groups

section Names

variable {controller : α → Controller} {l : List α}

theorem firstOfNames_append (controller : α → Controller) (l m : List α) (seen : List (Value × α)) :
    firstOfNames controller (l ++ m) seen = (firstOfNames controller l seen >>= firstOfNames controller m) := by
  induction l generalizing seen with
  | nil => rfl
  | cons a rest ih =>
    simp only [List.cons_append,firstOfNames]
    cases (controller a).requireName with
    | error failure => rfl
    | ok name =>
      simp only [bind,Except.bind] at ih ⊢
      split
      · split <;> exact ih _
      · rfl

theorem firstOfNames_unnamed {a : α}
    (found : l.find? (fun a => !(controller a).name.truthy) = some a)
    (texts : ∀ a ∈ l, (controller a).Textual) (seen : List (Value × α)) :
    firstOfNames controller l seen = .error (.unnamedController (controller a).area (controller a).ns) := by
  induction l generalizing seen with
  | nil => simp at found
  | cons b rest ih =>
    rw [firstOfNames]
    cases named : (controller b).name.truthy with
    | false =>
      rw [List.find?_cons_of_pos (by simp [named])] at found
      cases found
      simp [Controller.requireName_unnamed named,bind,Except.bind]
    | true =>
      rw [List.find?_cons_of_neg (by simp [named])] at found
      have tail := ih found fun c member => texts c (List.mem_cons_of_mem _ member)
      have hashable : (controller b).name.hashable = true := by
        rw [(texts b List.mem_cons_self).name_eq,Value.hashable_str]
      simp only [Controller.requireName_named named,bind,Except.bind,hashable,if_true]
      split <;> exact tail _

-- The invariant is on the part that was run through: its names in order, each with its first element.
theorem firstOfNames_named (texts : ∀ a ∈ l, (controller a).name = .str (controller a).name.text)
    (named : ∀ a ∈ l, (controller a).name.truthy = true) :
    ∃ firsts, firstOfNames controller l [] = .ok firsts ∧
      firsts.map (·.1) = (l.map fun a => (controller a).name.text).eraseDups.map .str ∧
      ∀ first ∈ firsts, first.1 = .str (controller first.2).name.text ∧
        l.find? (fun a => decide ((controller a).name.text = (controller first.2).name.text)) = some first.2 := by
  induction l using List.reverseRecOn with
  | nil => exact ⟨[],rfl,rfl,by simp⟩
  | append_singleton l a ih =>
    obtain ⟨firsts,ran,names,chosen⟩ := ih (fun b member => texts b (List.mem_append_left _ member))
      (fun b member => named b (List.mem_append_left _ member))
    have text := texts a (by simp)
    have step : firstOfNames controller (l ++ [a]) [] =
        if (controller a).name.text ∈ l.map (fun a => (controller a).name.text) then .ok firsts
        else .ok (firsts ++ [((controller a).name,a)]) := by
      have present := any_same_str (l.map fun a => (controller a).name.text).eraseDups (controller a).name.text
      rw [← names,List.any_map,← text] at present
      simp only [List.mem_eraseDups] at present
      rw [firstOfNames_append,ran]
      simp only [bind,Except.bind,firstOfNames,Controller.requireName_named (named a (by simp))]
      rw [show (firsts.any fun known => Value.same known.1 (controller a).name) = _ from present,text,
        Value.hashable_str]
      by_cases known : (controller a).name.text ∈ l.map (fun a => (controller a).name.text) <;> simp [known]
    have kept : ∀ first ∈ firsts, first.1 = .str (controller first.2).name.text ∧
        (l ++ [a]).find? (fun b => decide ((controller b).name.text = (controller first.2).name.text)) =
          some first.2 := by
      intro first member
      obtain ⟨key,found⟩ := chosen first member
      exact ⟨key,by rw [List.find?_append,found,Option.some_or]⟩
    by_cases known : (controller a).name.text ∈ l.map (fun a => (controller a).name.text)
    · refine ⟨firsts,by rw [step,if_pos known],?_,kept⟩
      rw [names,List.map_append,List.map_cons,List.map_nil,eraseDups_snoc,if_pos known]
    · refine ⟨firsts ++ [((controller a).name,a)],by rw [step,if_neg known],?_,?_⟩
      · rw [List.map_append,names,List.map_append,List.map_cons,List.map_nil,List.map_cons,List.map_nil,
          eraseDups_snoc,if_neg known,List.map_append,List.map_cons,List.map_nil,← text]
      · intro first member
        rcases List.mem_append.mp member with old | new
        · exact kept first old
        · obtain rfl := List.mem_singleton.mp new
          refine ⟨text,?_⟩
          have fresh : l.find? (fun b => decide ((controller b).name.text = (controller a).name.text)) = none := by
            refine List.find?_eq_none.mpr ?_
            intro b member equal
            exact known (List.mem_map.mpr ⟨b,member,by simpa using equal⟩)
          simp [List.find?_append,fresh]

theorem uniqueByName_unnamed {a : α}
    (found : l.find? (fun a => !(controller a).name.truthy) = some a)
    (texts : ∀ a ∈ l, (controller a).Textual) :
    uniqueByName controller l = .error (.unnamedController (controller a).area (controller a).ns) := by
  rw [uniqueByName,firstOfNames_unnamed found texts]
  rfl

-- The first element of every name, in the order of the names.
def firstsByName (controller : α → Controller) (l : List α) : List α :=
  (ascending (l.map fun a => (controller a).name.text)).filterMap fun name =>
    l.find? fun a => decide ((controller a).name.text = name)

theorem mem_firstsByName {a : α} : a ∈ firstsByName controller l ↔
    l.find? (fun b => decide ((controller b).name.text = (controller a).name.text)) = some a := by
  unfold firstsByName
  rw [List.mem_filterMap]
  constructor
  · rintro ⟨name,_,found⟩
    have equal : (controller a).name.text = name := by simpa using List.find?_some found
    rwa [equal]
  · intro found
    refine ⟨(controller a).name.text,?_,found⟩
    exact mem_ascending.mpr (List.mem_map_of_mem (List.mem_of_find?_eq_some found))

theorem uniqueByName_named (texts : ∀ a ∈ l, (controller a).name = .str (controller a).name.text)
    (named : ∀ a ∈ l, (controller a).name.truthy = true) :
    uniqueByName controller l = .ok (firstsByName controller l) := by
  obtain ⟨firsts,ran,names,chosen⟩ := firstOfNames_named texts named
  have keys : firsts.map (fun first => (controller first.2).name.text) =
      (l.map fun a => (controller a).name.text).eraseDups := by
    have shown := congrArg (List.map Value.text) names
    rw [List.map_map,List.map_map,show Value.text ∘ Value.str = id from rfl,List.map_id] at shown
    rw [← shown]
    refine List.map_congr_left ?_
    intro first member
    simp [(chosen first member).1]
  have compared : ∀ p ∈ firsts, ∀ q ∈ firsts, Value.before? p.1 q.1 =
      some (decide ((controller p.2).name.text < (controller q.2).name.text)) := by
    intro p left q right
    rw [(chosen p left).1,(chosen q right).1,before?_texts]
  obtain ⟨sorted,sorts,perm,ordered⟩ := sortedBy?_distinct (fun first : Value × α => (controller first.2).name.text)
    compared (by rw [keys]; exact nodup_eraseDups _)
  have chosenFirsts : sorted.map (·.2) = firstsByName controller l := by
    rw [firstsByName,← ascending_eraseDups,← keys,← ordered,List.filterMap_map]
    symm
    rw [← List.filterMap_eq_map]
    refine List.filterMap_congr ?_
    intro first member
    exact (chosen first (perm.mem_iff.mp member)).2
  rw [uniqueByName,ran]
  simp only [bind,Except.bind,sorts,pure,Except.pure,chosenFirsts]

theorem firstsByName_map {f : α → α} (kept : ∀ a ∈ l, (controller (f a)).name = (controller a).name) :
    firstsByName controller (l.map f) = (firstsByName controller l).map f := by
  have names : (l.map f).map (fun a => (controller a).name.text) = l.map fun a => (controller a).name.text := by
    rw [List.map_map]
    exact List.map_congr_left fun a member => congrArg Value.text (kept a member)
  rw [firstsByName,firstsByName,names,List.map_filterMap]
  refine List.filterMap_congr ?_
  intro name _
  rw [List.find?_map]
  refine congrArg _ (List.find?_congr ?_)
  intro a member
  rw [Function.comp_apply,kept a member]

theorem map_firstsByName (f : α → β) (g : String → β)
    (agree : ∀ name a, l.find? (fun b => decide ((controller b).name.text = name)) = some a → f a = g name) :
    (firstsByName controller l).map f = (ascending (l.map fun a => (controller a).name.text)).map g := by
  rw [firstsByName,List.map_filterMap,← List.filterMap_eq_map (f := g)]
  refine List.filterMap_congr ?_
  intro name member
  obtain ⟨a,present,equal⟩ := List.mem_map.mp (mem_ascending.mp member)
  cases found : l.find? (fun b => decide ((controller b).name.text = name)) with
  | none =>
    have absent := List.find?_eq_none.mp found a present
    simp [equal] at absent
  | some b => simp [agree name b found]

end Names
end TypedMvc
