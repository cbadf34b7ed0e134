namespace TypedMvc

theorem map_intercalate (f : α → β) (sep : List α) (ls : List (List α)) :
    (sep.intercalate ls).map f = (sep.map f).intercalate (ls.map (List.map f)) := by
  induction ls with
  | nil => simp
  | cons l rest ih =>
    cases rest with
    | nil => simp
    | cons m more =>
      rw [List.intercalate_cons_cons,List.map_append,List.map_append,ih]
      simp only [List.map_cons,List.intercalate_cons_cons]

theorem flatten_intercalate (sep : List α) (ls : List (List α)) :
    (List.intercalate [sep] (ls.map ([·]))).flatten = sep.intercalate ls := by
  induction ls with
  | nil => simp
  | cons l rest ih =>
    cases rest with
    | nil => simp
    | cons m more =>
      simp only [List.map_cons] at ih ⊢
      rw [List.intercalate_cons_cons,List.flatten_append,ih,List.intercalate_cons_cons]
      simp

theorem intercalate_append {sep : List α} {ls ms : List (List α)} (left : ls ≠ []) (right : ms ≠ []) :
    sep.intercalate (ls ++ ms) = sep.intercalate ls ++ sep ++ sep.intercalate ms := by
  induction ls with
  | nil => exact absurd rfl left
  | cons l rest ih =>
    cases rest with
    | nil =>
      cases ms with
      | nil => exact absurd rfl right
      | cons m more => rw [List.singleton_append,List.intercalate_cons_cons,List.intercalate_singleton]
    | cons k more =>
      rw [List.cons_append,List.cons_append,List.intercalate_cons_cons,← List.cons_append,ih (List.cons_ne_nil k more),
        List.intercalate_cons_cons]
      simp only [List.append_assoc]

theorem mem_intercalate {sep : List α} {ls : List (List α)} {a : α} (member : a ∈ sep.intercalate ls) :
    a ∈ sep ∨ ∃ l ∈ ls, a ∈ l := by
  induction ls with
  | nil => simp at member
  | cons l rest ih =>
    cases rest with
    | nil =>
      rw [List.intercalate_singleton] at member
      exact .inr ⟨l,List.mem_cons_self,member⟩
    | cons m more =>
      rw [List.intercalate_cons_cons,List.append_assoc,List.mem_append,List.mem_append] at member
      rcases member with first | between | later
      · exact .inr ⟨l,List.mem_cons_self,first⟩
      · exact .inl between
      · rcases ih later with between | ⟨k,among,inside⟩
        · exact .inl between
        · exact .inr ⟨k,List.mem_cons_of_mem _ among,inside⟩

theorem mem_intercalate_of_mem {ls : List (List α)} {l : List α} {a : α} (among : l ∈ ls) (member : a ∈ l)
    (sep : List α) : a ∈ sep.intercalate ls := by
  induction ls with
  | nil => cases among
  | cons k rest ih =>
    cases rest with
    | nil =>
      rw [List.mem_singleton.mp among] at member
      rwa [List.intercalate_singleton]
    | cons m more =>
      rw [List.intercalate_cons_cons]
      rcases List.mem_cons.mp among with rfl | later
      · exact List.mem_append_left _ (List.mem_append_left _ member)
      · exact List.mem_append_right _ (ih later)

theorem intercalate_head (sep : List α) (a : α) (more : List α) (ls : List (List α)) :
    ∃ tail, sep.intercalate ((a :: more) :: ls) = a :: tail := by
  cases ls with
  | nil => exact ⟨more,List.intercalate_singleton⟩
  | cons l rest =>
    rw [List.intercalate_cons_cons]
    exact ⟨_,rfl⟩

end TypedMvc
