import TypedMvc.Proofs.Rows

namespace TypedMvc.CSharp

variable {classes : List ClassDef} {identifier : String} {ns : Option String} {i : Nat}

def position? (classes : List ClassDef) (identifier : String) (ns : Option String) : Option Nat :=
  classes.findIdx? (wanted identifier ns)

theorem findClass?_position (classes : List ClassDef) (identifier : String) (ns : Option String) :
    findClass? classes identifier ns = (position? classes identifier ns).bind fun i => classes[i]? :=
  List.find?_eq_bind_findIdx?_getElem?

def FirstAt (P : ClassDef → Prop) (classes : List ClassDef) (i : Nat) : Prop :=
  ∃ c, classes[i]? = some c ∧ P c ∧ ∀ j < i, ∀ d, classes[j]? = some d → ¬ P d

theorem position?_eq_some : position? classes identifier ns = some i ↔
    FirstAt (fun c => wanted identifier ns c = true) classes i := by
  rw [position?,List.findIdx?_eq_some_iff_getElem]
  constructor
  · rintro ⟨inside,found,earlier⟩
    refine ⟨classes[i],List.getElem?_eq_getElem inside,found,?_⟩
    intro j before d there
    obtain ⟨_,rfl⟩ := List.getElem?_eq_some_iff.mp there
    exact earlier j before
  · rintro ⟨c,here,found,earlier⟩
    obtain ⟨inside,rfl⟩ := List.getElem?_eq_some_iff.mp here
    refine ⟨inside,found,?_⟩
    intro j before
    exact earlier j before _ (List.getElem?_eq_getElem (before.trans inside))

theorem wanted_all (c : ClassDef) : wanted identifier none c = true ↔ c.identifier = identifier := by
  simp [wanted]

theorem wanted_key (c d : ClassDef) : wanted c.identifier (some c.ns) d = true ↔ d.key = c.key := by
  simp [wanted,ClassDef.key,and_comm]

theorem position?_all : position? classes identifier none = some i ↔ FirstAt (fun c => c.identifier = identifier) classes i := by
  rw [position?_eq_some]
  simp only [wanted_all]

theorem position?_none : position? classes identifier none = none ↔ ∀ c ∈ classes, c.identifier ≠ identifier := by
  rw [position?,List.findIdx?_eq_none_iff]
  simp [wanted]

-- A class before the one at a position has its namespace and its identifier.
def RepeatsAt (classes : List ClassDef) (i : Nat) : Prop :=
  ∃ c, classes[i]? = some c ∧ ∃ j < i, ∃ d, classes[j]? = some d ∧ d.ns = c.ns ∧ d.identifier = c.identifier

theorem not_repeatsAt_of_nodup (distinct : (classes.map ClassDef.key).Nodup) (i : Nat) : ¬ RepeatsAt classes i := by
  rintro ⟨c,here,j,before,d,there,sameNs,sameIdentifier⟩
  obtain ⟨inside,_⟩ := List.getElem?_eq_some_iff.mp here
  refine List.nodup_iff_getElem?_ne_getElem?.mp distinct j i before (by simpa using inside) ?_
  rw [List.getElem?_map,List.getElem?_map,here,there,Option.map_some,Option.map_some,ClassDef.key,ClassDef.key,sameNs,
    sameIdentifier]

-- The search finds a class at its own position unless it repeats one before it.
theorem position?_own {c : ClassDef} (here : classes[i]? = some c) :
    position? classes c.identifier (some c.ns) = some i ↔ ¬ RepeatsAt classes i := by
  rw [position?_eq_some]
  simp only [wanted_key]
  constructor
  · rintro ⟨_,_,_,earlier⟩ ⟨d,same,j,before,e,there,sameNs,sameIdentifier⟩
    rw [here] at same
    cases same
    exact earlier j before e there (Prod.ext sameNs sameIdentifier)
  · intro fresh
    refine ⟨c,here,rfl,?_⟩
    intro j before d there same
    exact fresh ⟨c,here,j,before,d,there,congrArg Prod.fst same,congrArg Prod.snd same⟩

theorem repeatedClass_position {failure : Failure} (fault : repeatedClass classes = some failure) :
    ∃ i c, classes[i]? = some c ∧ failure = .duplicateClass c.identifier c.ns ∧ RepeatsAt classes i ∧
      ∀ j < i, ¬ RepeatsAt classes j := by
  obtain ⟨key,found,rfl⟩ := Option.map_eq_some_iff.mp fault
  obtain ⟨front,back,split,known,clear⟩ := firstRepeated_eq_some found
  obtain ⟨before,rest,rfl,rfl,splitRest⟩ := List.map_eq_append_iff.mp split
  obtain ⟨c,after,rfl,rfl,_⟩ := List.map_eq_cons_iff.mp splitRest
  have distinct := (firstRepeated_eq_none.mp clear).1
  have early : ∀ j < before.length, (before ++ c :: after)[j]? = before[j]? :=
    fun j inside => List.getElem?_append_left inside
  have here : (before ++ c :: after)[before.length]? = some c := by simp
  refine ⟨before.length,c,here,rfl,?_,?_⟩
  · obtain ⟨d,inside,same⟩ := List.mem_map.mp (known.resolve_left List.not_mem_nil)
    obtain ⟨j,there⟩ := List.mem_iff_getElem?.mp inside
    have less : j < before.length := (List.getElem?_eq_some_iff.mp there).1
    exact ⟨c,here,j,less,d,(early j less).trans there,congrArg Prod.fst same,congrArg Prod.snd same⟩
  · rintro j less ⟨d,there,k,earlier,e,first,same⟩
    rw [early j less] at there
    rw [early k (earlier.trans less)] at first
    exact not_repeatsAt_of_nodup distinct j ⟨d,there,k,earlier,e,first,same⟩

theorem checkClasses_ok_iff : checkClasses classes = .ok () ↔ ∀ i, ¬ RepeatsAt classes i := by
  rw [checkClasses_eq,faultOr_ok_iff,and_iff_left rfl]
  constructor
  · intro clear
    exact not_repeatsAt_of_nodup (repeatedClass_eq_none.mp clear)
  · intro fresh
    cases fault : repeatedClass classes with
    | none => rfl
    | some failure =>
      obtain ⟨i,_,_,_,again,_⟩ := repeatedClass_position fault
      exact absurd again (fresh i)

theorem eraseDups_pairwise_idxOf [BEq α] [LawfulBEq α] (l : List α) :
    l.eraseDups.Pairwise fun a b => l.idxOf a < l.idxOf b := by
  induction l using List.reverseRecOn with
  | nil => simp
  | append_singleton l a ih =>
    have kept : ∀ b ∈ l, (l ++ [a]).idxOf b = l.idxOf b := fun b member => List.idxOf_append_of_mem member
    have front : l.eraseDups.Pairwise fun b c => (l ++ [a]).idxOf b < (l ++ [a]).idxOf c := by
      refine ih.imp_of_mem ?_
      intro b c left right less
      rwa [kept b (List.mem_eraseDups.mp left),kept c (List.mem_eraseDups.mp right)]
    rw [eraseDups_snoc]
    by_cases known : a ∈ l
    · rwa [if_pos known]
    · rw [if_neg known,List.pairwise_append]
      refine ⟨front,List.pairwise_singleton _ a,?_⟩
      intro b left c right
      have inside := List.mem_eraseDups.mp left
      rw [List.mem_singleton.mp right,kept b inside,List.idxOf_append_of_notMem known]
      exact Nat.lt_add_right _ (List.idxOf_lt_length_of_mem inside)

theorem flatMap_filter_perm [DecidableEq κ] (f : α → κ) (l : List α) {keys : List κ} (distinct : keys.Nodup) :
    (keys.flatMap fun k => l.filter fun a => decide (f a = k)).Perm (l.filter fun a => decide (f a ∈ keys)) := by
  induction keys with
  | nil => simp
  | cons k rest ih =>
    obtain ⟨fresh,others⟩ := List.nodup_cons.mp distinct
    have own : (l.filter fun a => decide (f a ∈ k :: rest)).filter (fun a => decide (f a = k)) =
        l.filter fun a => decide (f a = k) := by
      rw [List.filter_filter]
      refine List.filter_congr ?_
      intro a _
      by_cases same : f a = k <;> simp [same]
    have left : (l.filter fun a => decide (f a ∈ k :: rest)).filter (fun a => !decide (f a = k)) =
        l.filter fun a => decide (f a ∈ rest) := by
      rw [List.filter_filter]
      refine List.filter_congr ?_
      intro a _
      by_cases same : f a = k
      · simp [same,fresh]
      · simp [same]
    have parts := List.filter_append_perm (fun a => decide (f a = k)) (l.filter fun a => decide (f a ∈ k :: rest))
    rw [own,left] at parts
    exact ((ih others).append_left _).trans parts

-- Groups by namespace: the namespaces in the order of their first appearance, each with what has it, in the order of the
-- list, and all of the list in one group or another.
structure StablePartition (classes : List ClassDef) (groups : List (String × List ClassDef)) : Prop where
  mem_keys : ∀ ns, ns ∈ groups.map Prod.fst ↔ ∃ c ∈ classes, c.ns = ns
  ordered : (groups.map Prod.fst).Pairwise fun m n => (classes.map ClassDef.ns).idxOf m < (classes.map ClassDef.ns).idxOf n
  group : ∀ g ∈ groups, g.2 = classes.filter fun c => c.ns == g.1
  whole : (groups.flatMap Prod.snd).Perm classes

theorem byNamespace_keys (classes : List ClassDef) :
    (byNamespace classes).map Prod.fst = (classes.map ClassDef.ns).eraseDups := by
  rw [byNamespace_eq,List.map_map]
  exact List.map_id _

theorem byNamespace_partitions (classes : List ClassDef) : StablePartition classes (byNamespace classes) where
  mem_keys := by
    intro ns
    rw [byNamespace_keys,List.mem_eraseDups,List.mem_map]
  ordered := by
    rw [byNamespace_keys]
    exact eraseDups_pairwise_idxOf _
  group := by
    intro g among
    rw [byNamespace_eq] at among
    obtain ⟨ns,_,rfl⟩ := List.mem_map.mp among
    exact List.filter_congr fun c _ => (beq_eq_decide _ _).symm
  whole := by
    have parts := flatMap_filter_perm ClassDef.ns classes (nodup_eraseDups (classes.map ClassDef.ns))
    have everything : (classes.filter fun c => decide (c.ns ∈ (classes.map ClassDef.ns).eraseDups)) = classes := by
      refine List.filter_eq_self.mpr ?_
      intro c member
      exact decide_eq_true (List.mem_eraseDups.mpr (List.mem_map_of_mem member))
    rw [everything] at parts
    rwa [byNamespace_eq,List.flatMap_map]

theorem printFile_byNamespace {others : List ClassDef} (same : byNamespace others = byNamespace classes) (layout : Layout) :
    printFile layout others = printFile layout classes := by
  rw [printFile,printFile,fileText,fileText,same]

-- The check, the search and the groups tell the same classes apart, and the check tells of the first one that repeats.
theorem classes_told_apart (classes : List ClassDef) :
    (∀ identifier ns, findClass? classes identifier ns = (position? classes identifier ns).bind fun i => classes[i]?) ∧
    (checkClasses classes = .ok () ↔
      ∀ i c, classes[i]? = some c → position? classes c.identifier (some c.ns) = some i) ∧
    (∀ failure, checkClasses classes = .error failure →
      ∃ i c, classes[i]? = some c ∧ failure = .duplicateClass c.identifier c.ns ∧ RepeatsAt classes i ∧
        ∀ j < i, ¬ RepeatsAt classes j) ∧
    (∀ identifier,
      (∀ i, position? classes identifier none = some i ↔ FirstAt (fun c => c.identifier = identifier) classes i) ∧
      (position? classes identifier none = none ↔ ∀ c ∈ classes, c.identifier ≠ identifier)) ∧
    StablePartition classes (byNamespace classes) ∧
    ∀ layout others, byNamespace others = byNamespace classes → printFile layout others = printFile layout classes := by
  refine ⟨findClass?_position classes,?_,?_,?_,byNamespace_partitions classes,?_⟩
  · rw [checkClasses_ok_iff]
    constructor
    · intro fresh i c here
      exact (position?_own here).mpr (fresh i)
    · intro found i again
      obtain ⟨c,here,_⟩ := id again
      exact (position?_own here).mp (found i c here) again
  · intro failure failed
    rw [checkClasses_eq] at failed
    exact repeatedClass_position (faultOr_error_iff.mp failed)
  · intro identifier
    exact ⟨fun i => position?_all,position?_none⟩
  · intro layout others same
    exact printFile_byNamespace same layout

def placed (identifier ns : String) : ClassDef := ⟨identifier,ns,[.publicAccess],[],[],[]⟩

def grouped : List ClassDef := [placed "Cart" "Shop",placed "Clock" "Shop",placed "Cart" "Site"]

def interleaved : List ClassDef := [placed "Cart" "Shop",placed "Cart" "Site",placed "Clock" "Shop"]

theorem classes_told_apart_interleaved : byNamespace grouped = byNamespace interleaved ∧
    printFile (.ofWidth 4 []) grouped = printFile (.ofWidth 4 []) interleaved ∧ checkClasses interleaved = .ok () := by
  have same : byNamespace grouped = byNamespace interleaved := rfl
  obtain ⟨_,check,_,_,_,printed⟩ := classes_told_apart interleaved
  refine ⟨same,printed _ _ same,check.mpr ?_⟩
  intro i c here
  match i with
  | 0 | 1 | 2 =>
    cases here
    rfl
  | more + 3 => cases here

end TypedMvc.CSharp
