import Mathlib.Data.List.Dedup
import Mathlib.Data.List.Find
import Mathlib.Data.List.Induction
import Mathlib.Data.List.Sort
import TypedMvc.Value.Order

namespace TypedMvc

theorem key_le_trans [LinearOrder κ] (key : α → κ) (a b c : α) (first : decide (key a ≤ key b) = true)
    (second : decide (key b ≤ key c) = true) : decide (key a ≤ key c) = true := by
  simp only [decide_eq_true_eq] at first second ⊢
  exact le_trans first second

theorem key_le_total [LinearOrder κ] (key : α → κ) (a b : α) :
    (decide (key a ≤ key b) || decide (key b ≤ key a)) = true := by
  simpa using le_total (key a) (key b)

theorem mergeSort_key_le [LinearOrder κ] (key : α → κ) (l : List α) :
    (l.mergeSort fun a b => decide (key a ≤ key b)).Pairwise (fun a b => key a ≤ key b) := by
  have sorted := List.pairwise_mergeSort (key_le_trans key) (key_le_total key) l
  exact sorted.imp fun compared => by simpa using compared

-- A strictly ascending list is determined by what occurs in it, so what is generated in ascending order depends on the
-- set of its elements alone.
def ascending [LinearOrder α] (l : List α) : List α := l.dedup.mergeSort fun a b => decide (a ≤ b)

theorem mem_ascending [LinearOrder α] {l : List α} {a : α} : a ∈ ascending l ↔ a ∈ l := by
  unfold ascending
  rw [List.mem_mergeSort,List.mem_dedup]

theorem nodup_ascending [LinearOrder α] (l : List α) : (ascending l).Nodup :=
  (List.mergeSort_perm _ _).nodup_iff.mpr (List.nodup_dedup l)

theorem ascending_le [LinearOrder α] (l : List α) : (ascending l).Pairwise (· ≤ ·) := mergeSort_key_le id l.dedup

theorem ascending_lt [LinearOrder α] (l : List α) : (ascending l).Pairwise (· < ·) :=
  ((ascending_le l).and (nodup_ascending l)).imp fun both => lt_of_le_of_ne both.1 both.2

theorem ascending_unique [LinearOrder α] {l m : List α} (left : l.Pairwise (· < ·)) (right : m.Pairwise (· < ·))
    (same : ∀ a, a ∈ l ↔ a ∈ m) : l = m := by
  have perm : l.Perm m :=
    (List.perm_ext_iff_of_nodup (left.imp fun less => less.ne) (right.imp fun less => less.ne)).mpr same
  exact perm.eq_of_pairwise (fun a b _ _ less greater => absurd greater less.asymm) left right

theorem ascending_congr [LinearOrder α] {l m : List α} (same : ∀ a, a ∈ l ↔ a ∈ m) :
    ascending l = ascending m :=
  ascending_unique (ascending_lt l) (ascending_lt m) fun a => by rw [mem_ascending,mem_ascending,same]

-- The longer list has an element that the shorter one has not, at some place, and nothing else differs.
def Inserted (a : α) (shorter longer : List α) : Prop :=
  ∃ before after, shorter = before ++ after ∧ longer = before ++ a :: after

theorem Inserted.map {a : α} {shorter longer : List α} (inserted : Inserted a shorter longer) (f : α → β) :
    Inserted (f a) (shorter.map f) (longer.map f) := by
  obtain ⟨before,after,rfl,rfl⟩ := inserted
  exact ⟨before.map f,after.map f,List.map_append,by rw [List.map_append,List.map_cons]⟩

theorem Inserted.append_left {a : α} {shorter longer : List α} (inserted : Inserted a shorter longer) (front : List α) :
    Inserted a (front ++ shorter) (front ++ longer) := by
  obtain ⟨before,after,rfl,rfl⟩ := inserted
  exact ⟨front ++ before,after,(List.append_assoc ..).symm,(List.append_assoc ..).symm⟩

theorem Inserted.append_right {a : α} {shorter longer : List α} (inserted : Inserted a shorter longer) (back : List α) :
    Inserted a (shorter ++ back) (longer ++ back) := by
  obtain ⟨before,after,rfl,rfl⟩ := inserted
  exact ⟨before,after ++ back,List.append_assoc ..,List.append_assoc ..⟩

theorem ascending_insert [LinearOrder α] {l m : List α} {a : α} (fresh : a ∉ l)
    (extended : ∀ b, b ∈ m ↔ b = a ∨ b ∈ l) : Inserted a (ascending l) (ascending m) := by
  have strict := ascending_lt l
  have below : ((ascending l).filter fun b => decide (b < a)).Pairwise (· < ·) := strict.filter _
  have above : ((ascending l).filter fun b => decide (a < b)).Pairwise (· < ·) := strict.filter _
  have mem_below : ∀ b, b ∈ (ascending l).filter (fun b => decide (b < a)) ↔ b ∈ l ∧ b < a := by
    intro b
    rw [List.mem_filter,mem_ascending,decide_eq_true_eq]
  have mem_above : ∀ b, b ∈ (ascending l).filter (fun b => decide (a < b)) ↔ b ∈ l ∧ a < b := by
    intro b
    rw [List.mem_filter,mem_ascending,decide_eq_true_eq]
  have apart : ∀ b ∈ l, b < a ∨ a < b := by
    intro b member
    refine lt_or_gt_of_ne ?_
    rintro rfl
    exact fresh member
  refine ⟨_,_,ascending_unique strict (List.pairwise_append.mpr ⟨below,above,?_⟩) ?_,
    ascending_unique (ascending_lt m) (List.pairwise_append.mpr ⟨below,List.pairwise_cons.mpr ⟨?_,above⟩,?_⟩) ?_⟩
  · intro b left c right
    exact ((mem_below b).mp left).2.trans ((mem_above c).mp right).2
  · intro b
    rw [mem_ascending,List.mem_append,mem_below,mem_above,← and_or_left]
    exact ⟨fun member => ⟨member,apart b member⟩,And.left⟩
  · intro b right
    exact ((mem_above b).mp right).2
  · intro b left c right
    rcases List.mem_cons.mp right with rfl | later
    · exact ((mem_below b).mp left).2
    · exact ((mem_below b).mp left).2.trans ((mem_above c).mp later).2
  · intro b
    rw [mem_ascending,extended,List.mem_append,List.mem_cons,mem_below,mem_above,or_left_comm,← and_or_left]
    exact or_congr_right ⟨fun member => ⟨member,apart b member⟩,And.left⟩

theorem eraseDups_snoc [BEq α] [LawfulBEq α] (l : List α) (a : α) :
    (l ++ [a]).eraseDups = if a ∈ l then l.eraseDups else l.eraseDups ++ [a] := by
  rw [List.eraseDups_append]
  by_cases known : a ∈ l <;> simp [List.removeAll,known,List.eraseDups_cons]

theorem nodup_eraseDups [BEq α] [LawfulBEq α] (l : List α) : l.eraseDups.Nodup := by
  induction l using List.reverseRecOn with
  | nil => simp
  | append_singleton l a ih =>
    rw [eraseDups_snoc]
    by_cases known : a ∈ l
    · rwa [if_pos known]
    · have others : ∀ b ∈ l, b ≠ a := fun b member equal => known (equal ▸ member)
      simpa [known,List.nodup_append,ih] using others

theorem eraseDups_sublist [BEq α] [LawfulBEq α] (l : List α) : l.eraseDups.Sublist l := by
  induction l using List.reverseRecOn with
  | nil => simp
  | append_singleton l a ih =>
    rw [eraseDups_snoc]
    by_cases known : a ∈ l
    · rw [if_pos known]
      exact ih.trans (List.sublist_append_left l [a])
    · rw [if_neg known]
      exact ih.append_right [a]

theorem eraseDups_map [BEq α] [LawfulBEq α] [BEq β] [LawfulBEq β] {f : α → β} {l : List α}
    (apart : ∀ a ∈ l, ∀ b ∈ l, f a = f b → a = b) : (l.map f).eraseDups = l.eraseDups.map f := by
  induction l using List.reverseRecOn with
  | nil => rfl
  | append_singleton l a ih =>
    have known : f a ∈ l.map f ↔ a ∈ l := by
      rw [List.mem_map]
      constructor
      · rintro ⟨b,member,same⟩
        rwa [← apart b (List.mem_append_left _ member) a (by simp) same]
      · exact fun member => ⟨a,member,rfl⟩
    have front := ih fun b first c second =>
      apart b (List.mem_append_left _ first) c (List.mem_append_left _ second)
    rw [List.map_append,List.map_singleton,eraseDups_snoc,eraseDups_snoc,front]
    by_cases here : a ∈ l
    · rw [if_pos here,if_pos (known.mpr here)]
    · rw [if_neg here,if_neg (mt known.mp here),List.map_append,List.map_singleton]

theorem apart_of_nodup_map [BEq α] [LawfulBEq α] {f : α → β} {l : List α} (distinct : (l.eraseDups.map f).Nodup) :
    ∀ a ∈ l, ∀ b ∈ l, f a = f b → a = b := by
  intro a first b second
  exact (List.nodup_map_iff_inj_on (nodup_eraseDups l)).mp distinct a (List.mem_eraseDups.mpr first) b
    (List.mem_eraseDups.mpr second)

theorem apart_of_length_eraseDups [BEq α] [LawfulBEq α] [BEq β] [LawfulBEq β] {f : α → β} {l : List α}
    (same : (l.map f).eraseDups.length = l.eraseDups.length) : ∀ a ∈ l, ∀ b ∈ l, f a = f b → a = b := by
  have inside : (l.map f).eraseDups.Subperm (l.eraseDups.map f) := by
    refine List.subperm_of_subset (nodup_eraseDups _) ?_
    intro b member
    obtain ⟨a,present,rfl⟩ := List.mem_map.mp (List.mem_eraseDups.mp member)
    exact List.mem_map_of_mem (List.mem_eraseDups.mpr present)
  have perm := inside.perm_of_length_le (by rw [List.length_map,same])
  exact apart_of_nodup_map (perm.nodup_iff.mp (nodup_eraseDups _))

theorem ascending_eraseDups [LinearOrder α] [BEq α] [LawfulBEq α] (l : List α) : ascending l.eraseDups = ascending l :=
  ascending_congr fun _ => List.mem_eraseDups

theorem eraseDups_of_sorted [LinearOrder α] [BEq α] [LawfulBEq α] {l : List α} (sorted : l.Pairwise (· ≤ ·)) :
    l.eraseDups = ascending l := by
  have strict := ((sorted.sublist (eraseDups_sublist l)).and (nodup_eraseDups l)).imp fun both =>
    lt_of_le_of_ne both.1 both.2
  refine ascending_unique strict (ascending_lt l) ?_
  intro a
  rw [List.mem_eraseDups,mem_ascending]

section Sorting

variable {before? : α → α → Option Bool} {l : List α}

theorem sortedBy?_total [LinearOrder κ] (key : α → κ)
    (compared : ∀ a ∈ l, ∀ b ∈ l, before? a b = some (decide (key a < key b))) :
    sortedBy? before? l = some (l.mergeSort fun a b => decide (key a ≤ key b)) := by
  have comparable : l.Pairwise (fun a b => (before? a b).isSome ∧ (before? b a).isSome) := by
    refine List.pairwise_of_forall_mem_list ?_
    intro a left b right
    simp [compared a left b right,compared b right a left]
  have sameOrder : (l.mergeSort fun a b => before? b a != some true).map id =
      (l.map id).mergeSort fun a b => decide (key a ≤ key b) := by
    refine List.map_mergeSort ?_
    intro a left b right
    rw [compared b right a left]
    by_cases less : key b < key a
    · simp [less]
    · simp [less,not_lt.mp less]
  simp only [List.map_id] at sameOrder
  rw [sortedBy?,if_pos comparable,sameOrder]

theorem sortedBy?_distinct [LinearOrder κ] (key : α → κ)
    (compared : ∀ a ∈ l, ∀ b ∈ l, before? a b = some (decide (key a < key b)))
    (distinct : (l.map key).Nodup) :
    ∃ sorted, sortedBy? before? l = some sorted ∧ sorted.Perm l ∧ sorted.map key = ascending (l.map key) := by
  refine ⟨_,sortedBy?_total key compared,List.mergeSort_perm _ _,?_⟩
  have perm := (List.mergeSort_perm l fun a b => decide (key a ≤ key b)).map key
  have nondescending := List.pairwise_map.mpr (mergeSort_key_le key l)
  have strict := (nondescending.and (perm.nodup_iff.mpr distinct)).imp fun both => lt_of_le_of_ne both.1 both.2
  refine ascending_unique strict (ascending_lt _) ?_
  intro k
  rw [perm.mem_iff,mem_ascending]

end Sorting

-- The first element that occurred before, among those seen and those passed.
def firstRepeated [DecidableEq α] : List α → List α → Option α
  | _,[] => none
  | seen,a :: rest => if a ∈ seen then some a else firstRepeated (a :: seen) rest

theorem firstRepeated_eq_none [DecidableEq α] {seen l : List α} :
    firstRepeated seen l = none ↔ l.Nodup ∧ ∀ a ∈ l, a ∉ seen := by
  induction l generalizing seen with
  | nil => simp [firstRepeated]
  | cons a rest ih =>
    unfold firstRepeated
    by_cases known : a ∈ seen
    · simp [known]
    · simp only [known,if_false,ih,List.nodup_cons,List.mem_cons,not_or,forall_eq_or_imp]
      constructor
      · rintro ⟨distinct,fresh⟩
        exact ⟨⟨fun again => (fresh a again).1 rfl,distinct⟩,not_false,fun b member => (fresh b member).2⟩
      · rintro ⟨⟨once,distinct⟩,_,fresh⟩
        refine ⟨distinct,fun b member => ⟨?_,fresh b member⟩⟩
        rintro rfl
        exact once member

theorem firstRepeated_eq_some [DecidableEq α] {seen l : List α} {a : α} (found : firstRepeated seen l = some a) :
    ∃ front back, l = front ++ a :: back ∧ (a ∈ seen ∨ a ∈ front) ∧ firstRepeated seen front = none := by
  induction l generalizing seen with
  | nil => cases found
  | cons b rest ih =>
    unfold firstRepeated at found
    by_cases known : b ∈ seen
    · rw [if_pos known] at found
      cases Option.some.inj found
      exact ⟨[],rest,rfl,.inl known,rfl⟩
    · rw [if_neg known] at found
      obtain ⟨front,back,rfl,before,clear⟩ := ih found
      refine ⟨b :: front,back,rfl,?_,?_⟩
      · cases before with
        | inl earlier =>
          rcases List.mem_cons.mp earlier with rfl | old
          · exact .inr List.mem_cons_self
          · exact .inl old
        | inr earlier => exact .inr (List.mem_cons_of_mem b earlier)
      · rw [firstRepeated,if_neg known]
        exact clear

end TypedMvc
