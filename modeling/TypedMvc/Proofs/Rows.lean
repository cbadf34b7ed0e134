import TypedMvc.CSharp.Printer
import TypedMvc.Proofs.Placeholders
import TypedMvc.Proofs.Separated

namespace TypedMvc

namespace Text

def Unbroken (cs : List Char) : Prop := ∀ c ∈ cs, isLineBreak c = false

instance (line : List Char) : Decidable (Unbroken line) := List.decidableBAll _ line

theorem Unbroken.append {front back : List Char} (left : Unbroken front) (right : Unbroken back) :
    Unbroken (front ++ back) := by
  intro c member
  rcases List.mem_append.mp member with first | second
  · exact left c first
  · exact right c second

theorem unbroken_spaces (count : Nat) : Unbroken (List.replicate count ' ') := by
  intro c member
  rw [List.eq_of_mem_replicate member]
  rfl

theorem lines_cons {c : Char} (unbroken : isLineBreak c = false) (rest : List Char) :
    lines (c :: rest) = match lines rest with
      | [] => [[c]]
      | first :: more => (c :: first) :: more := by
  rw [lines]
  · exact if_neg (ne_true_of_eq_false unbroken)
  · rintro _ rfl _
    exact absurd unbroken (by decide)

theorem lines_line {line : List Char} (unbroken : Unbroken line) (present : line ≠ []) : lines line = [line] := by
  induction line with
  | nil => exact absurd rfl present
  | cons c rest ih =>
    rw [lines_cons (unbroken c List.mem_cons_self)]
    cases rest with
    | nil => rfl
    | cons d more => rw [ih (fun e member => unbroken e (List.mem_cons_of_mem _ member)) (List.cons_ne_nil d more)]

theorem lines_append {line : List Char} (unbroken : Unbroken line) (rest : List Char) :
    lines (line ++ '\n' :: rest) = line :: lines rest := by
  induction line with
  | nil => rfl
  | cons c more ih =>
    rw [List.cons_append,lines_cons (unbroken c List.mem_cons_self),
      ih fun d member => unbroken d (List.mem_cons_of_mem _ member)]

theorem unlines_singleton (l : List Char) : unlines [l] = l := List.intercalate_singleton

theorem unlines_cons_cons (l m : List Char) (ls : List (List Char)) :
    unlines (l :: m :: ls) = l ++ '\n' :: unlines (m :: ls) := by
  rw [unlines,unlines,List.intercalate_cons_cons,List.append_assoc,List.singleton_append]

-- What was joined from unbroken lines comes apart into them, unless the last one is empty.
theorem lines_unlines {ls : List (List Char)} (unbroken : ∀ l ∈ ls, Unbroken l) (last : ls.getLast? ≠ some []) :
    lines (unlines ls) = ls := by
  induction ls with
  | nil => rfl
  | cons l rest ih =>
    cases rest with
    | nil =>
      have present : l ≠ [] := by simpa using last
      rw [unlines_singleton]
      exact lines_line (unbroken l List.mem_cons_self) present
    | cons m more =>
      rw [List.getLast?_cons_cons] at last
      rw [unlines_cons_cons,lines_append (unbroken l List.mem_cons_self),
        ih (fun k member => unbroken k (List.mem_cons_of_mem _ member)) last]

theorem unlines_append {ls ms : List (List Char)} (left : ls ≠ []) (right : ms ≠ []) :
    unlines (ls ++ ms) = unlines ls ++ '\n' :: unlines ms := by
  rw [unlines,intercalate_append left right,List.append_assoc]
  rfl

theorem flatMap_newline {ls : List (List Char)} (present : ls ≠ []) :
    ls.flatMap (· ++ ['\n']) = unlines ls ++ ['\n'] := by
  induction ls with
  | nil => exact absurd rfl present
  | cons l rest ih =>
    cases rest with
    | nil => simp [unlines_singleton]
    | cons m more =>
      rw [List.flatMap_cons,ih (List.cons_ne_nil m more),unlines_cons_cons]
      simp

theorem unlines_blocks {blocks : List (List (List Char))} (present : ∀ b ∈ blocks, b ≠ []) :
    unlines (blocks.map unlines) = unlines blocks.flatten := by
  induction blocks with
  | nil => rfl
  | cons b rest ih =>
    cases rest with
    | nil => simp [unlines_singleton]
    | cons c more =>
      have later := ih fun d member => present d (List.mem_cons_of_mem _ member)
      have filled : (c :: more).flatten ≠ [] := by
        simp [present c (List.mem_cons_of_mem _ List.mem_cons_self)]
      rw [List.map_cons] at later
      rw [List.map_cons,List.map_cons,unlines_cons_cons,later,List.flatten_cons (l := b),
        unlines_append (present b List.mem_cons_self) filled]

end Text

namespace CSharp

open Text

namespace Row

def deeper (row : Row) : Row := if row.content = [] then blank else ⟨row.depth + 1,row.content⟩

-- A row that is a line of its own: blank, or with a content that starts with a character to be seen.
structure Sound (row : Row) : Prop where
  unbroken : Unbroken row.content
  starts : row = blank ∨ ∃ c rest, row.content = c :: rest ∧ isBlank c = false

def margin (width : Nat) : List Char := List.replicate width ' '

theorem unbroken_margin (width : Nat) : Unbroken (margin width) := unbroken_spaces width

theorem line_margin (width : Nat) (row : Row) :
    row.line (margin width) = List.replicate (row.depth * width) ' ' ++ row.content := by
  rw [line,margin,List.flatten_replicate_replicate]

variable {row : Row}

@[simp] theorem deeper_blank : blank.deeper = blank := rfl

@[simp] theorem deeper_content (row : Row) : row.deeper.content = row.content := by
  unfold deeper
  split
  · rename_i empty
    exact empty.symm
  · rfl

theorem Sound.line_unbroken (sound : row.Sound) (width : Nat) : Unbroken (row.line (margin width)) := by
  rw [line_margin]
  exact (unbroken_spaces _).append sound.unbroken

theorem Sound.indented (sound : row.Sound) (width : Nat) :
    indentLine (margin width) (row.line (margin width)) = row.deeper.line (margin width) := by
  rcases sound.starts with rfl | ⟨c,rest,shown,dark⟩
  · rfl
  · have visible : isAllBlank (row.line (margin width)) = false := by
      rw [isAllBlank,line_margin,shown,List.all_append,List.all_cons,dark]
      simp
    have deeper : row.deeper = ⟨row.depth + 1,row.content⟩ := if_neg (by simp [shown])
    rw [indentLine,visible,deeper,line_margin,line_margin,Nat.succ_mul,Nat.add_comm,List.replicate_add,
      List.append_assoc]
    rfl

end Row
def Member.Typed : Member → Prop
  | .field f => ∃ type, f.type = .str type
  | .property p => ∃ type, p.type = .str type
  | .constructor _ => True

def memberRowsOf (identifier : String) : Member → List Row
  | .field f => [.ofText 1 (fieldText f f.type.text)]
  | .property p => [.ofText 1 (propertyText p p.type.text)]
  | .constructor c =>
    .ofText 1 (constructorText identifier c) :: .ofText 1 "\x7b" :: (c.body.map (.ofText 2) ++ [.ofText 1 "\x7d"])

def markRow (mark : String) : Row := .ofText 0 ("[" ++ mark ++ "]")

def classRowsOf (c : ClassDef) : List Row :=
  c.attributes.map markRow ++ .ofText 0 (headText c) :: .ofText 0 "\x7b" ::
    (List.intercalate [.blank] (c.members.map (memberRowsOf c.identifier)) ++ [.ofText 0 "\x7d"])

theorem memberRows_typed {m : Member} (typed : m.Typed) (identifier : String) :
    memberRows identifier m = .ok (memberRowsOf identifier m) := by
  cases m with
  | field f =>
    obtain ⟨type,shown⟩ := typed
    rw [memberRows,memberRowsOf,shown,Value.text_str]
    rfl
  | property p =>
    obtain ⟨type,shown⟩ := typed
    rw [memberRows,memberRowsOf,shown,Value.text_str]
    rfl
  | constructor c => rfl

-- A class that can be printed as rows: its types are texts, and every row is a line of its own.
structure ClassDef.Printable (c : ClassDef) : Prop where
  typed : ∀ m ∈ c.members, m.Typed
  sound : ∀ row ∈ classRowsOf c, row.Sound

variable {c : ClassDef}

theorem classRows_typed (typed : ∀ m ∈ c.members, m.Typed) : classRows c = .ok (classRowsOf c) := by
  rw [classRows,Synthesis.mapM_ok fun m member => memberRows_typed (typed m member) c.identifier]
  rfl

theorem classRowsOf_ne_nil (c : ClassDef) : classRowsOf c ≠ [] :=
  List.append_ne_nil_of_right_ne_nil _ (List.cons_ne_nil _ _)

theorem getLast?_classRowsOf (c : ClassDef) : (classRowsOf c).getLast? = some (.ofText 0 "\x7d") := by
  rw [classRowsOf,← List.cons_append,← List.cons_append,← List.append_assoc,List.getLast?_concat]

-- Indented once more as a block, a class is its rows one level deeper, since no row breaks a line.
theorem indentBlock_rows (printable : c.Printable) (width : Nat) :
    indentBlock (Row.margin width) (unlines ((classRowsOf c).map (Row.line (Row.margin width)))) =
      unlines (((classRowsOf c).map Row.deeper).map (Row.line (Row.margin width))) := by
  have apart : lines (unlines ((classRowsOf c).map (Row.line (Row.margin width)))) =
      (classRowsOf c).map (Row.line (Row.margin width)) := by
    refine lines_unlines ?_ ?_
    · intro l member
      obtain ⟨row,among,rfl⟩ := List.mem_map.mp member
      exact (printable.sound row among).line_unbroken width
    · rw [List.getLast?_map,getLast?_classRowsOf]
      simp [Row.line,Row.ofText]
  rw [indentBlock,apart,List.map_map,List.map_map]
  congr 1
  exact List.map_congr_left fun row member => (printable.sound row member).indented width

-- The rows of a namespace, which are those of its classes one level deeper, or of the global namespace.
def namespaceRows (group : String × List ClassDef) : List Row :=
  .blank ::
    if group.1 = "" then List.intercalate [.blank] (group.2.map classRowsOf)
    else
      .ofText 0 ("namespace " ++ group.1) :: .ofText 0 "\x7b" ::
        ((List.intercalate [.blank] (group.2.map classRowsOf)).map Row.deeper ++ [.ofText 0 "\x7d"])

def fileRows (layout : Layout) (classes : List ClassDef) : List Row :=
  (headerLines layout).map (Row.mk 0) ++ ((byNamespace classes).map namespaceRows).flatten ++ footerLines.map (Row.mk 0)

def namespaceBlocks (group : String × List ClassDef) : List (List Row) :=
  [.blank] ::
    if group.1 = "" then List.intercalate [[.blank]] (group.2.map fun c => [classRowsOf c])
    else
      [.ofText 0 ("namespace " ++ group.1)] :: [.ofText 0 "\x7b"] ::
        (List.intercalate [[.blank]] (group.2.map fun c => [(classRowsOf c).map Row.deeper]) ++ [[.ofText 0 "\x7d"]])

theorem flatten_namespaceBlocks (group : String × List ClassDef) :
    (namespaceBlocks group).flatten = namespaceRows group := by
  have once := flatten_intercalate [Row.blank] (group.2.map classRowsOf)
  have deeper := flatten_intercalate [Row.blank] (group.2.map fun c => (classRowsOf c).map Row.deeper)
  rw [List.map_map] at once deeper
  have inside : (List.intercalate [Row.blank] (group.2.map classRowsOf)).map Row.deeper =
      List.intercalate [Row.blank] (group.2.map fun c => (classRowsOf c).map Row.deeper) := by
    rw [map_intercalate,List.map_map]
    rfl
  rw [namespaceBlocks,namespaceRows,inside,← once,← deeper]
  split <;> simp [Function.comp_def]

theorem namespaceBlocks_ne_nil (group : String × List ClassDef) : ∀ b ∈ namespaceBlocks group, b ≠ [] := by
  have inside : ∀ rows : ClassDef → List Row, (∀ c, rows c ≠ []) →
      ∀ b ∈ List.intercalate [[Row.blank]] (group.2.map fun c => [rows c]), b ≠ [] := by
    intro rows filled b member
    rcases mem_intercalate member with between | ⟨l,among,here⟩
    · rw [List.mem_singleton.mp between]
      exact List.cons_ne_nil _ _
    · obtain ⟨c,_,rfl⟩ := List.mem_map.mp among
      rw [List.mem_singleton.mp here]
      exact filled c
  intro b member
  rw [namespaceBlocks] at member
  rcases List.mem_cons.mp member with rfl | later
  · exact List.cons_ne_nil _ _
  · split at later
    · exact inside _ classRowsOf_ne_nil b later
    · simp only [List.mem_cons,List.mem_append,List.not_mem_nil,or_false] at later
      rcases later with rfl | rfl | within | rfl
      · exact List.cons_ne_nil _ _
      · exact List.cons_ne_nil _ _
      · exact inside _ (fun c => by simp [classRowsOf_ne_nil]) b within
      · exact List.cons_ne_nil _ _

theorem line_depthless (margin : List Char) (content : List Char) : Row.line margin ⟨0,content⟩ = content := by
  simp [Row.line]

theorem namespaceLines_blocks {group : String × List ClassDef} (printable : ∀ c ∈ group.2, c.Printable) (width : Nat) :
    namespaceLines (Row.margin width)
        (group.1,group.2.map fun c => unlines ((classRowsOf c).map (Row.line (Row.margin width)))) =
      (namespaceBlocks group).map fun rows => unlines (rows.map (Row.line (Row.margin width))) := by
  rw [namespaceLines,namespaceBlocks,List.map_cons]
  refine congrArg₂ List.cons (by simp [Row.blank,line_depthless,unlines_singleton]) ?_
  split
  · rw [map_intercalate,List.map_map,List.map_map]
    simp [Function.comp_def,Row.blank,line_depthless,unlines_singleton]
  · have indented : ∀ c ∈ group.2,
        [indentBlock (Row.margin width) (unlines ((classRowsOf c).map (Row.line (Row.margin width))))] =
        [unlines (((classRowsOf c).map Row.deeper).map (Row.line (Row.margin width)))] :=
      fun c member => congrArg ([·]) (indentBlock_rows (printable c member) width)
    rw [List.map_map,Function.comp_def,List.map_congr_left indented]
    simp only [List.map_cons,List.map_append,map_intercalate,List.map_map]
    simp [Function.comp_def,Row.blank,Row.ofText,line_depthless,unlines_singleton]

theorem byNamespace_eq (classes : List ClassDef) : byNamespace classes =
    (classes.map ClassDef.ns).eraseDups.map fun ns => (ns,classes.filter fun c => decide (c.ns = ns)) := by
  have place : ∀ (l : List ClassDef) (a : ClassDef),
      byNamespaceOf.place id ((l.map ClassDef.ns).eraseDups.map fun ns => (ns,l.filter fun c => decide (c.ns = ns))) a =
        ((l ++ [a]).map ClassDef.ns).eraseDups.map fun ns => (ns,(l ++ [a]).filter fun c => decide (c.ns = ns)) := by
    intro l a
    have present : (((l.map ClassDef.ns).eraseDups.map fun ns => (ns,l.filter fun c => decide (c.ns = ns))).any
        fun group => group.1 == a.ns) = decide (a.ns ∈ l.map ClassDef.ns) := by
      simp [Function.comp_def,List.any_beq']
    rw [byNamespaceOf.place,id_eq,present,List.map_append,List.map_singleton,eraseDups_snoc]
    by_cases known : a.ns ∈ l.map ClassDef.ns
    · rw [if_pos (by simpa using known),if_pos known,List.map_map]
      refine List.map_congr_left ?_
      intro ns _
      by_cases own : ns = a.ns
      · simp [own]
      · simp [own,Ne.symm own]
    · rw [if_neg (by simpa using known),if_neg known,List.map_append,List.map_singleton]
      have without : l.filter (fun c => decide (c.ns = a.ns)) = [] := by
        refine List.filter_eq_nil_iff.mpr ?_
        intro c member equal
        exact known (List.mem_map.mpr ⟨c,member,by simpa using equal⟩)
      congr 1
      · refine List.map_congr_left ?_
        intro ns member
        have other : a.ns ≠ ns := by
          rintro rfl
          exact known (List.mem_eraseDups.mp member)
        simp [other]
      · simp [without]
  induction classes using List.reverseRecOn with
  | nil => rfl
  | append_singleton l a ih =>
    rw [byNamespace,byNamespaceOf,List.foldl_append]
    rw [byNamespace,byNamespaceOf] at ih
    rw [ih]
    exact place l a

theorem mem_of_byNamespace {classes : List ClassDef} {group : String × List ClassDef}
    (grouped : group ∈ byNamespace classes) {c : ClassDef} (member : c ∈ group.2) : c ∈ classes := by
  rw [byNamespace_eq] at grouped
  obtain ⟨ns,_,rfl⟩ := List.mem_map.mp grouped
  exact (List.mem_filter.mp member).1

def fileBlocks (layout : Layout) (classes : List ClassDef) : List (List Row) :=
  (headerLines layout).map (fun content => [⟨0,content⟩]) ++ ((byNamespace classes).map namespaceBlocks).flatten ++
    footerLines.map fun content => [⟨0,content⟩]

theorem flatten_fileBlocks (layout : Layout) (classes : List ClassDef) :
    (fileBlocks layout classes).flatten = fileRows layout classes := by
  have alone : ∀ lines : List (List Char), (lines.map fun content => [Row.mk 0 content]).flatten = lines.map (Row.mk 0) :=
    fun _ => List.map_eq_flatMap.symm
  have groups : ((byNamespace classes).map namespaceBlocks).flatten.flatten =
      ((byNamespace classes).map namespaceRows).flatten := by
    rw [List.flatten_flatten,List.map_map]
    exact congrArg List.flatten (List.map_congr_left fun group _ => flatten_namespaceBlocks group)
  rw [fileBlocks,fileRows,List.flatten_append,List.flatten_append,alone,alone,groups]

theorem fileBlocks_ne_nil (layout : Layout) (classes : List ClassDef) : ∀ b ∈ fileBlocks layout classes, b ≠ [] := by
  intro b member
  rcases List.mem_append.mp member with front | footer
  · rcases List.mem_append.mp front with header | inner
    · obtain ⟨content,_,rfl⟩ := List.mem_map.mp header
      exact List.cons_ne_nil _ _
    · obtain ⟨blocks,among,inside⟩ := List.mem_flatten.mp inner
      obtain ⟨group,_,rfl⟩ := List.mem_map.mp among
      exact namespaceBlocks_ne_nil group b inside
  · obtain ⟨content,_,rfl⟩ := List.mem_map.mp footer
    exact List.cons_ne_nil _ _

theorem fileText_typed {classes : List ClassDef} (typed : ∀ c ∈ classes, ∀ m ∈ c.members, m.Typed) (layout : Layout) :
    fileText layout classes = .ok (assembled layout ((byNamespace classes).map fun group =>
      (group.1,group.2.map fun c => unlines ((classRowsOf c).map (Row.line layout.margin))))) := by
  have texts : ∀ group ∈ byNamespace classes,
      ((group.2.mapM (classText layout)).map fun texts => (group.1,texts)) =
        .ok (group.1,group.2.map fun c => unlines ((classRowsOf c).map (Row.line layout.margin))) := by
    intro group grouped
    rw [Synthesis.mapM_ok fun c member => by
      rw [classText,classRows_typed (typed c (mem_of_byNamespace grouped member))]
      rfl]
    rfl
  rw [fileText,Synthesis.mapM_ok texts]
  rfl

-- The text of a file is its rows line by line.
theorem fileText_rows {classes : List ClassDef} (printable : ∀ c ∈ classes, c.Printable) (width : Nat)
    (usings : List String) : fileText (Layout.ofWidth width usings) classes =
      .ok (unlines ((fileRows (Layout.ofWidth width usings) classes).map (Row.line (Row.margin width)))) := by
  have alone : ∀ lines : List (List Char), lines =
      (lines.map fun content => [Row.mk 0 content]).map fun rows => unlines (rows.map (Row.line (Row.margin width))) := by
    intro lines
    simp [Function.comp_def,line_depthless,unlines_singleton]
  have groups : ((byNamespace classes).map fun group => namespaceLines (Row.margin width)
        (group.1,group.2.map fun c => unlines ((classRowsOf c).map (Row.line (Row.margin width))))).flatten =
      ((byNamespace classes).map namespaceBlocks).flatten.map fun rows =>
        unlines (rows.map (Row.line (Row.margin width))) := by
    rw [List.map_flatten,List.map_map]
    exact congrArg List.flatten (List.map_congr_left fun group grouped =>
      namespaceLines_blocks (fun c member => printable c (mem_of_byNamespace grouped member)) width)
  have joined : assembled (Layout.ofWidth width usings) ((byNamespace classes).map fun group =>
        (group.1,group.2.map fun c => unlines ((classRowsOf c).map (Row.line (Row.margin width))))) =
      unlines ((fileBlocks (Layout.ofWidth width usings) classes).map fun rows =>
        unlines (rows.map (Row.line (Row.margin width)))) := by
    rw [assembled,List.map_map,fileBlocks,List.map_append,List.map_append,← alone,← alone,← groups]
    rfl
  rw [fileText_typed fun c member => (printable c member).typed]
  refine congrArg Except.ok (joined.trans ?_)
  have present : ∀ b ∈ (fileBlocks (Layout.ofWidth width usings) classes).map (List.map (Row.line (Row.margin width))),
      b ≠ [] := by
    intro b member
    obtain ⟨rows,among,rfl⟩ := List.mem_map.mp member
    simpa using fileBlocks_ne_nil _ _ rows among
  have whole := unlines_blocks present
  rw [List.map_map,← List.map_flatten,flatten_fileBlocks] at whole
  exact whole

end CSharp
end TypedMvc
