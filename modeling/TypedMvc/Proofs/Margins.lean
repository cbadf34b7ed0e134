import TypedMvc.Proofs.Breaks
import TypedMvc.Proofs.Nesting

namespace TypedMvc.CSharp

open Text

def blockLines (cut : List (List Char)) : List (List Char) :=
  if cut = [] then [[]] else cut.map fun line => if isAllBlank line then [] else line

theorem bareLines_indentBlock (width : Nat) (text : List Char) :
    bareLines (indentBlock (Row.margin width) text) = blockLines ((lines text).map dropSpaces) := by
  by_cases empty : text = []
  · subst empty
    rfl
  · have filled : (lines text).map dropSpaces ≠ [] := by simpa using lines_ne_nil empty
    rw [bareLines,splitOn_indentBlock (Row.unbroken_margin width) empty,blockLines,if_neg filled,List.map_map,List.map_map]
    refine List.map_congr_left ?_
    intro line _
    simp only [Function.comp_apply,indentLine,isAllBlank_dropSpaces]
    split
    · rfl
    · exact dropSpaces_spaces width line

-- The text of a class without its margins: the parts between its line feeds, and the lines that a block cuts it into.
structure Outline where
  whole : List (List Char)
  cut : List (List Char)

def outline (text : List Char) : Outline := ⟨bareLines text,(lines text).map dropSpaces⟩

theorem bareLines_rows (width : Nat) {rows : List Row} (present : rows ≠ []) :
    bareLines (unlines (rows.map (Row.line (Row.margin width)))) = bareLines (unlines (rows.map Row.content)) := by
  rw [bareLines_unlines (by simpa using present),bareLines_unlines (by simpa using present),List.map_map,List.map_map]
  refine congrArg List.flatten (List.map_congr_left ?_)
  intro row _
  rw [Function.comp_apply,Row.line_margin,bareLines_spaces]
  rfl

-- The last row must hold something, or its margin alone would be a line.
theorem lines_rows (width : Nat) (front : List Row) {last : Row} (shown : last.content ≠ []) :
    (lines (unlines ((front ++ [last]).map (Row.line (Row.margin width))))).map dropSpaces =
      (lines (unlines ((front ++ [last]).map Row.content))).map dropSpaces := by
  induction front with
  | nil =>
    simp only [List.nil_append,List.map_cons,List.map_nil,unlines_singleton,Row.line_margin]
    exact lines_spaces shown _
  | cons row rest ih =>
    obtain ⟨next,more,later⟩ : ∃ next more, rest ++ [last] = next :: more :=
      List.exists_cons_of_ne_nil (by simp)
    rw [later] at ih
    simp only [List.cons_append,later,List.map_cons,unlines_cons_cons] at ih ⊢
    rw [lines_newline,lines_newline row.content,List.map_append,List.map_append,ih,Row.line_margin,List.append_assoc,
      lines_spaces (by simp)]

theorem outline_rows (width : Nat) (front : List Row) {last : Row} (shown : last.content ≠ []) :
    outline (unlines ((front ++ [last]).map (Row.line (Row.margin width)))) =
      outline (unlines ((front ++ [last]).map Row.content)) := by
  rw [outline,outline,bareLines_rows width (by simp),lines_rows width front shown]

theorem classRows_closed {c : ClassDef} {rows : List Row} (ran : classRows c = .ok rows) :
    ∃ front, rows = front ++ [.ofText 0 "\x7d"] := by
  unfold classRows at ran
  obtain ⟨members,_,rest⟩ := bind_ok_iff.mp ran
  obtain rfl := Except.ok.inj rest
  rw [← List.cons_append,← List.cons_append,← List.append_assoc]
  exact ⟨_,rfl⟩

def classOutline (c : ClassDef) : Except Failure Outline :=
  (classRows c).map fun rows => outline (unlines (rows.map Row.content))

theorem classText_outline (width : Nat) (usings : List String) (c : ClassDef) :
    (classText (Layout.ofWidth width usings) c).map outline = classOutline c := by
  rw [classText,classOutline]
  cases ran : classRows c with
  | error failure => rfl
  | ok rows =>
    obtain ⟨front,rfl⟩ := classRows_closed ran
    exact congrArg Except.ok (outline_rows width front (by simp [Row.ofText]))

def namespaceOutline (group : String × List Outline) : List (List (List Char)) :=
  bareLines [] ::
    if group.1 = "" then List.intercalate [bareLines []] (group.2.map fun o => [o.whole])
    else
      bareLines ("namespace " ++ group.1).toList :: bareLines ['\x7b'] ::
        (List.intercalate [bareLines []] (group.2.map fun o => [blockLines o.cut]) ++ [bareLines ['\x7d']])

theorem namespaceLines_outline (width : Nat) (group : String × List (List Char)) :
    (namespaceLines (Row.margin width) group).map bareLines = namespaceOutline (group.1,group.2.map outline) := by
  rw [namespaceLines,namespaceOutline,List.map_cons]
  refine congrArg (List.cons _) ?_
  split
  · rw [map_intercalate,List.map_map,List.map_map]
    rfl
  · simp only [List.map_cons,List.map_append,map_intercalate,List.map_map,Function.comp_def,List.map_nil,
      bareLines_indentBlock]
    rfl

def fileOutline (usings : List String) (groups : List (String × List Outline)) : List (List Char) :=
  ((headerLines ⟨[],usings⟩).map bareLines ++ (groups.map namespaceOutline).flatten ++ footerLines.map bareLines).flatten

theorem assembled_outline (width : Nat) (usings : List String) (groups : List (String × List (List Char))) :
    bareLines (assembled (Layout.ofWidth width usings) groups) =
      fileOutline usings (groups.map fun group => (group.1,group.2.map outline)) := by
  have present : headerLines (Layout.ofWidth width usings) ++
      (groups.map (namespaceLines (Layout.ofWidth width usings).margin)).flatten ++ footerLines ≠ [] := by
    simp [footerLines]
  rw [assembled,bareLines_unlines present,fileOutline,List.map_append,List.map_append,List.map_flatten,List.map_map,
    List.map_map]
  simp only [Function.comp_def,← namespaceLines_outline width]
  rfl

theorem mapM_map_ok (f : α → Except ε β) (g : β → γ) (l : List α) :
    (l.mapM f).map (List.map g) = l.mapM fun a => (f a).map g := by
  induction l with
  | nil => rfl
  | cons a rest ih =>
    rw [List.mapM_cons,List.mapM_cons,← ih]
    cases f a with
    | error failure => rfl
    | ok b => cases rest.mapM f <;> rfl

def outlinesOf (classes : List ClassDef) : Except Failure (List (String × List Outline)) :=
  (byNamespace classes).mapM fun group => (group.2.mapM classOutline).map fun outlines => (group.1,outlines)

theorem fileText_outline (width : Nat) (usings : List String) (classes : List ClassDef) :
    (fileText (Layout.ofWidth width usings) classes).map bareLines = (outlinesOf classes).map (fileOutline usings) := by
  let texts : String × List ClassDef → Except Failure (String × List (List Char)) := fun group =>
    (group.2.mapM (classText (Layout.ofWidth width usings))).map fun texts => (group.1,texts)
  have each : ∀ group, (texts group).map (fun printed => (printed.1,printed.2.map outline)) =
      (group.2.mapM classOutline).map fun outlines => (group.1,outlines) := by
    intro group
    have inside := mapM_map_ok (classText (Layout.ofWidth width usings)) outline group.2
    simp only [classText_outline] at inside
    rw [← inside]
    dsimp only [texts]
    cases group.2.mapM (classText (Layout.ofWidth width usings)) <;> rfl
  have groups := mapM_map_ok texts (fun printed => (printed.1,printed.2.map outline)) (byNamespace classes)
  simp only [each] at groups
  rw [outlinesOf,← groups,fileText]
  show (((byNamespace classes).mapM texts >>= fun groups => pure _) : Except _ _).map _ = _
  cases (byNamespace classes).mapM texts with
  | error failure => rfl
  | ok printed => exact congrArg Except.ok (assembled_outline width usings printed)

def unindented (text : String) : String := String.ofList (unlines (bareLines text.toList))

theorem printFile_outline (layout : Layout) (classes : List ClassDef) : (printFile layout classes).map unindented =
    ((fileText layout classes).map bareLines).map fun parts => String.ofList (unlines parts) := by
  rw [printFile]
  cases fileText layout classes with
  | error failure => rfl
  | ok text => simp [Except.map,unindented]

-- Two printers that differ in the width of the indentation alone print what differs in leading spaces alone, or fail alike.
theorem printFile_margins (s : Settings) {v w : Value} {left right : Layout}
    (measured : Layout.ofSettings { s with indentSize := v } = .ok left)
    (measuredToo : Layout.ofSettings { s with indentSize := w } = .ok right) (classes : List ClassDef) :
    (printFile left classes).map unindented = (printFile right classes).map unindented := by
  have wide : ∀ {v : Value} {layout : Layout}, Layout.ofSettings { s with indentSize := v } = .ok layout →
      ∃ width, layout = Layout.ofWidth width (s.referencedNamespaces.map Value.text) := by
    intro v layout known
    rw [Layout.ofSettings_eq] at known
    cases counted : Layout.repetitions v with
    | error failure =>
      rw [counted] at known
      cases known
    | ok width =>
      rw [counted] at known
      exact ⟨width,(Except.ok.inj known).symm⟩
  obtain ⟨width,rfl⟩ := wide measured
  obtain ⟨other,rfl⟩ := wide measuredToo
  rw [printFile_outline,printFile_outline,fileText_outline,fileText_outline]

-- A class whose constructor has statements of several lines, with margins and blanks of their own.
def ragged : ClassDef :=
  ⟨"Clock","Shop",[.publicAccess],[],["Serializable"],
    [.constructorOf [] [.publicAccess] none ["  Start();\n\t\n   Stop();","\u000b","Wait();\u2028  "],
      .fieldOf (.str "Zone") (.str "string") [.readOnly] (some "@\"\r\n  UTC\"")]⟩

theorem printFile_margins_ragged :
    Layout.ofSettings { Settings.default with indentSize := .int 0 } = .ok (.ofWidth 0 Settings.defaultReferences) ∧
    Layout.ofSettings { Settings.default with indentSize := .int 8 } = .ok (.ofWidth 8 Settings.defaultReferences) ∧
    (printFile (.ofWidth 0 Settings.defaultReferences) [ragged]).map unindented =
      (printFile (.ofWidth 8 Settings.defaultReferences) [ragged]).map unindented := by
  have flat : Layout.ofSettings { Settings.default with indentSize := .int 0 } =
    .ok (.ofWidth 0 Settings.defaultReferences) := rfl
  have wide : Layout.ofSettings { Settings.default with indentSize := .int 8 } =
    .ok (.ofWidth 8 Settings.defaultReferences) := rfl
  exact ⟨flat,wide,printFile_margins Settings.default flat wide [ragged]⟩

end TypedMvc.CSharp
