import TypedMvc.Proofs.Rows

namespace TypedMvc.Text

theorem lines_break {c : Char} {rest : List Char} (breaks : isLineBreak c = true)
    (alone : c = '\r' → rest.head? ≠ some '\n') : lines (c :: rest) = [] :: lines rest := by
  rw [lines]
  · exact if_pos breaks
  · rintro more rfl rfl
    exact alone rfl rfl

theorem lines_ne_nil {text : List Char} (present : text ≠ []) : lines text ≠ [] := by
  fun_cases lines text with
  | case1 => exact absurd rfl present
  | case2 | case3 | case4 | case5 => exact List.cons_ne_nil _ _

theorem unbroken_of_mem_lines {text line : List Char} (member : line ∈ lines text) : Unbroken line := by
  have nothing : Unbroken [] := by decide
  have longer : ∀ {c : Char} {l : List Char}, ¬ isLineBreak c = true → Unbroken l → Unbroken (c :: l) := by
    intro c l unbroken later d inside
    rcases List.mem_cons.mp inside with rfl | rest
    · exact eq_false_of_ne_true unbroken
    · exact later d rest
  fun_induction lines text generalizing line with
  | case1 => cases member
  | case2 rest ih | case3 c rest _ _ ih =>
    rcases List.mem_cons.mp member with rfl | later
    · exact nothing
    · exact ih later
  | case4 c rest _ unbroken _ _ =>
    rw [List.mem_singleton.mp member]
    exact longer unbroken nothing
  | case5 c rest _ unbroken first more shown ih =>
    rw [shown] at ih
    rcases List.mem_cons.mp member with rfl | later
    · exact longer unbroken (ih List.mem_cons_self)
    · exact ih (List.mem_cons_of_mem _ later)

-- A line feed ends a line for every reader, whatever stands before it, so a text comes apart at its line feeds.
theorem lines_newline (front back : List Char) : lines (front ++ '\n' :: back) = lines (front ++ ['\n']) ++ lines back := by
  have feed : ∀ rest, lines ('\n' :: rest) = [] :: lines rest := fun rest => lines_break rfl (by simp)
  induction front using lines.induct with
  | case1 => rw [List.nil_append,List.nil_append,feed,feed]; rfl
  | case2 rest ih => simp only [List.cons_append,lines,ih]
  | case3 c rest single breaks ih =>
    cases rest with
    | nil =>
      by_cases pair : c = '\r'
      · subst pair
        rfl
      · have alone : ∀ more, lines (c :: more) = [] :: lines more :=
          fun more => lines_break breaks fun same => absurd same pair
        simp only [List.cons_append,List.nil_append,alone,feed]
        rfl
    | cons d more =>
      have alone : c = '\r' → d ≠ '\n' := fun same newline => single more same (by rw [newline])
      have each : ∀ tail, lines (c :: d :: tail) = [] :: lines (d :: tail) :=
        fun tail => lines_break breaks fun same => by simpa using alone same
      simp only [List.cons_append,each] at ih ⊢
      rw [ih]
  | case4 c rest _ unbroken _ ih | case5 c rest _ unbroken _ _ _ ih =>
    have present : lines (rest ++ ['\n']) ≠ [] := lines_ne_nil (by simp)
    obtain ⟨first,more,shown⟩ := List.exists_cons_of_ne_nil present
    rw [List.cons_append,List.cons_append,lines_cons (eq_false_of_ne_true unbroken),
      lines_cons (eq_false_of_ne_true unbroken),ih,shown]
    rfl

theorem mem_lines_unlines {line : List Char} {ls : List (List Char)} (member : line ∈ ls) (unbroken : Unbroken line)
    (present : line ≠ []) : line ∈ lines (unlines ls) := by
  induction ls with
  | nil => cases member
  | cons l rest ih =>
    cases rest with
    | nil =>
      rw [List.mem_singleton.mp member] at unbroken present ⊢
      rw [unlines_singleton,lines_line unbroken present]
      exact List.mem_singleton_self l
    | cons m more =>
      rw [unlines_cons_cons]
      rcases List.mem_cons.mp member with rfl | later
      · rw [lines_append unbroken]
        exact List.mem_cons_self
      · rw [lines_newline]
        exact List.mem_append_right _ (ih later)

def dropSpaces (line : List Char) : List Char := line.dropWhile (· == ' ')

theorem dropSpaces_spaces (count : Nat) (line : List Char) :
    dropSpaces (List.replicate count ' ' ++ line) = dropSpaces line := by
  refine List.dropWhile_append_of_pos ?_
  intro c member
  rw [List.eq_of_mem_replicate member]
  rfl

theorem isAllBlank_dropSpaces (line : List Char) : isAllBlank (dropSpaces line) = isAllBlank line := by
  induction line with
  | nil => rfl
  | cons c rest ih =>
    by_cases space : c = ' '
    · subst space
      exact ih
    · rw [dropSpaces,List.dropWhile_cons_of_neg (by simpa using space)]

theorem lines_spaces {text : List Char} (present : text ≠ []) (count : Nat) :
    (lines (List.replicate count ' ' ++ text)).map dropSpaces = (lines text).map dropSpaces := by
  induction count with
  | zero => rfl
  | succ count ih =>
    have filled : lines (List.replicate count ' ' ++ text) ≠ [] := lines_ne_nil (by simp [present])
    obtain ⟨first,more,shown⟩ := List.exists_cons_of_ne_nil filled
    rw [← ih,List.replicate_succ,List.cons_append,lines_cons rfl,shown]
    rfl

def bareLines (text : List Char) : List (List Char) := (text.splitOn '\n').map dropSpaces

theorem bareLines_newline (front back : List Char) :
    bareLines (front ++ '\n' :: back) = bareLines front ++ bareLines back := by
  have split := List.splitOnP_append_cons (p := (· == '\n')) front back (beq_self_eq_true '\n')
  rw [bareLines,List.splitOn_eq_splitOnP,split,List.map_append,bareLines,bareLines,List.splitOn_eq_splitOnP,
    List.splitOn_eq_splitOnP]

theorem bareLines_spaces (count : Nat) (text : List Char) :
    bareLines (List.replicate count ' ' ++ text) = bareLines text := by
  induction count with
  | zero => rfl
  | succ count ih =>
    obtain ⟨first,more,shown⟩ :=
      List.exists_cons_of_ne_nil (List.splitOnP_ne_nil (· == '\n') (List.replicate count ' ' ++ text))
    rw [← ih,bareLines,bareLines,List.splitOn_eq_splitOnP,List.splitOn_eq_splitOnP,List.replicate_succ,List.cons_append,
      List.splitOnP_cons_eq_if_modifyHead,shown]
    rfl

theorem bareLines_unlines {ls : List (List Char)} (present : ls ≠ []) :
    bareLines (unlines ls) = (ls.map bareLines).flatten := by
  induction ls with
  | nil => exact absurd rfl present
  | cons l rest ih =>
    cases rest with
    | nil => simp [unlines_singleton]
    | cons m more =>
      rw [unlines_cons_cons,bareLines_newline,ih (List.cons_ne_nil m more)]
      rfl

theorem Unbroken.indented {margin line : List Char} (plain : Unbroken margin) (whole : Unbroken line) :
    Unbroken (indentLine margin line) := by
  unfold indentLine
  split
  · decide
  · exact plain.append whole

-- An indented block, line by line: the lines of the text, the blank ones empty.
theorem splitOn_indentBlock {margin text : List Char} (plain : Unbroken margin) (present : text ≠ []) :
    (indentBlock margin text).splitOn '\n' = (lines text).map (indentLine margin) := by
  refine List.splitOn_intercalate '\n' ?_ (by simpa using lines_ne_nil present)
  intro l member newline
  obtain ⟨line,among,rfl⟩ := List.mem_map.mp member
  exact absurd (plain.indented (unbroken_of_mem_lines among) '\n' newline) (by decide)

theorem unbroken_of_mem_indentBlock {margin text line : List Char} (plain : Unbroken margin)
    (member : line ∈ (indentBlock margin text).splitOn '\n') : Unbroken line := by
  by_cases empty : text = []
  · subst empty
    rw [List.mem_singleton.mp member]
    decide
  · rw [splitOn_indentBlock plain empty] at member
    obtain ⟨own,among,rfl⟩ := List.mem_map.mp member
    exact plain.indented (unbroken_of_mem_lines among)

end TypedMvc.Text
