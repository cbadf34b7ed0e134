import TypedMvc.Proofs.Legibility

namespace TypedMvc

open Text CSharp Synthesis

-- A row shows its content behind its margin, unless it starts with a blank itself.
theorem CSharp.Row.Sound.content_of_line {row : Row} (sound : row.Sound) (width : Nat) :
    (row.line (Row.margin width)).dropWhile (· == ' ') = row.content := by
  have spaces : ∀ count : Nat, (List.replicate count ' ' ++ row.content).dropWhile (· == ' ') =
      row.content.dropWhile (· == ' ') := by
    intro count
    induction count with
    | zero => rfl
    | succ count ih => rw [List.replicate_succ,List.cons_append,List.dropWhile_cons_of_pos (by rfl),ih]
  rw [Row.line_margin,spaces]
  rcases sound.starts with rfl | ⟨c,rest,shown,visible⟩
  · rfl
  · have other : (c == ' ') = false := by
      rw [beq_eq_false_iff_ne]
      rintro rfl
      exact absurd visible (by decide)
    rw [shown,List.dropWhile_cons_of_neg (by simp [other])]

theorem contents_of_text {rows more : List Row} (left : ∀ row ∈ rows, row.Sound) (right : ∀ row ∈ more, row.Sound)
    (present : rows ≠ []) (presentToo : more ≠ []) (width : Nat)
    (same : unlines (rows.map (Row.line (Row.margin width))) = unlines (more.map (Row.line (Row.margin width)))) :
    rows.map Row.content = more.map Row.content := by
  have free : ∀ rows : List Row, (∀ row ∈ rows, row.Sound) →
      ∀ l ∈ rows.map (Row.line (Row.margin width)), '\n' ∉ l := by
    intro rows sound l member newline
    obtain ⟨row,among,rfl⟩ := List.mem_map.mp member
    exact absurd ((sound row among).line_unbroken width '\n' newline) (by decide)
  have contents : ∀ rows : List Row, (∀ row ∈ rows, row.Sound) →
      (rows.map (Row.line (Row.margin width))).map (List.dropWhile (· == ' ')) = rows.map Row.content := by
    intro rows sound
    rw [List.map_map]
    exact List.map_congr_left fun row member => (sound row member).content_of_line width
  have lines := intercalate_unique (free rows left) (free more right) (by simpa using present)
    (by simpa using presentToo) same
  rw [← contents rows left,lines,contents more right]

section Namespaces

variable {root : String} {front own : List ClassDef} {helpers : ClassDef}

-- Classes of the root namespace around a class of the global one.
structure Around (root : String) (front own : List ClassDef) (helpers : ClassDef) : Prop where
  rooted : root ≠ ""
  before : ∀ c ∈ front, c.ns = root
  global : helpers.ns = ""
  behind : ∀ c ∈ own, c.ns = root
  present : own ≠ []

theorem Around.inside (around : Around root front own helpers) :
    ∀ c ∈ front ++ own, c ∈ front ++ helpers :: own ∧ c.ns = root := by
  intro c member
  rcases List.mem_append.mp member with first | last
  · exact ⟨List.mem_append_left _ first,around.before c first⟩
  · exact ⟨List.mem_append_right _ (List.mem_cons_of_mem _ last),around.behind c last⟩

theorem Around.filters (around : Around root front own helpers) :
    (front ++ helpers :: own).filter (fun c => decide (c.ns = root)) = front ++ own ∧
      (front ++ helpers :: own).filter (fun c => decide (c.ns = "")) = [helpers] := by
  have inside : ∀ l : List ClassDef, (∀ c ∈ l, c.ns = root) → l.filter (fun c => decide (c.ns = root)) = l ∧
      l.filter (fun c => decide (c.ns = "")) = [] := by
    intro l each
    constructor
    · exact List.filter_eq_self.mpr fun c member => by simp [each c member]
    · exact List.filter_eq_nil_iff.mpr fun c member => by simp [each c member,around.rooted]
  obtain ⟨frontRoot,frontGlobal⟩ := inside front around.before
  obtain ⟨ownRoot,ownGlobal⟩ := inside own around.behind
  rw [List.filter_append,List.filter_append,frontRoot,frontGlobal,List.filter_cons_of_neg,List.filter_cons_of_pos,ownRoot,
    ownGlobal]
  · exact ⟨rfl,rfl⟩
  · simp [around.global]
  · simp [around.global,around.rooted.symm]

theorem Around.namespaces (around : Around root front own helpers) :
    ((front ++ helpers :: own).map ClassDef.ns).eraseDups = if front = [] then ["",root] else [root,""] := by
  have away : ∀ l : List ClassDef, (∀ c ∈ l, c.ns = root) → (l.map ClassDef.ns).filter (fun ns => !ns == root) = [] := by
    intro l each
    refine List.filter_eq_nil_iff.mpr ?_
    intro ns member
    obtain ⟨c,among,rfl⟩ := List.mem_map.mp member
    simp [each c among]
  cases own with
  | nil => exact absurd rfl around.present
  | cons last others =>
    have rest := away others fun c member => around.behind c (List.mem_cons_of_mem _ member)
    have lastInside := around.behind last List.mem_cons_self
    cases front with
    | nil =>
      have kept : ((last :: others).map ClassDef.ns).filter (fun ns => !ns == "") = (last :: others).map ClassDef.ns := by
        refine List.filter_eq_self.mpr ?_
        intro ns member
        obtain ⟨c,among,rfl⟩ := List.mem_map.mp member
        simp [around.behind c among,around.rooted]
      rw [if_pos rfl,List.nil_append,List.map_cons,around.global,List.eraseDups_cons,kept,List.map_cons,lastInside,
        List.eraseDups_cons,rest]
      rfl
    | cons first more =>
      have firsts := away more fun c member => around.before c (List.mem_cons_of_mem _ member)
      have lasts := away (last :: others) around.behind
      have other : (!(helpers.ns == root)) = true := by simp [around.global,around.rooted.symm]
      rw [if_neg (List.cons_ne_nil _ _),List.cons_append,List.map_cons,around.before first List.mem_cons_self,
        List.eraseDups_cons,List.map_append,List.filter_append,firsts,List.map_cons,
        List.filter_cons_of_pos (p := fun ns => !ns == root) other,lasts,
        around.global]
      rfl

theorem Around.byNamespace (around : Around root front own helpers) : CSharp.byNamespace (front ++ helpers :: own) =
    if front = [] then [("",[helpers]),(root,own)] else [(root,front ++ own),("",[helpers])] := by
  obtain ⟨inRoot,inGlobal⟩ := around.filters
  rw [byNamespace_eq,around.namespaces]
  by_cases empty : front = []
  · rw [if_pos empty,if_pos empty,List.map_cons,List.map_cons,inRoot,inGlobal,empty]
    rfl
  · rw [if_neg empty,if_neg empty,List.map_cons,List.map_cons,inRoot,inGlobal]
    rfl

def bodyLines (classes : List ClassDef) : List (List Char) := List.intercalate [[]] (classes.map classLines)

theorem namespaceRows_contents (group : String × List ClassDef) : (namespaceRows group).map Row.content =
    [] :: if group.1 = "" then bodyLines group.2
      else ("namespace " ++ group.1).toList :: ['{'] :: (bodyLines group.2 ++ [['}']]) := by
  have body : (List.intercalate [Row.blank] (group.2.map classRowsOf)).map Row.content = bodyLines group.2 := by
    rw [map_intercalate,List.map_map]
    rfl
  have deeper : ((List.intercalate [Row.blank] (group.2.map classRowsOf)).map Row.deeper).map Row.content =
      bodyLines group.2 := by
    rw [List.map_map,← body]
    exact List.map_congr_left fun row _ => row.deeper_content
  rw [namespaceRows,List.map_cons]
  refine congrArg₂ List.cons rfl ?_
  split
  · exact body
  · rw [List.map_cons,List.map_cons,List.map_append,deeper]
    rfl

theorem fileRows_contents (layout : Layout) (classes : List ClassDef) : (fileRows layout classes).map Row.content =
    headerLines layout ++ (((byNamespace classes).map fun group => (namespaceRows group).map Row.content).flatten ++
      footerLines) := by
  have depthless : ∀ lines : List (List Char), (lines.map (Row.mk 0)).map Row.content = lines := by
    intro lines
    simp [Function.comp_def]
  rw [fileRows,List.map_append,List.map_append,depthless,depthless,List.map_flatten,List.map_map,List.append_assoc]
  rfl

theorem Around.contents (around : Around root front own helpers) (layout : Layout) :
    (fileRows layout (front ++ helpers :: own)).map Row.content = headerLines layout ++ [] ::
      if front = [] then classLines helpers ++ ([] :: ("namespace " ++ root).toList :: ['{'] ::
        (bodyLines own ++ ['}'] :: footerLines))
      else ("namespace " ++ root).toList :: ['{'] ::
        (bodyLines (front ++ own) ++ ['}'] :: [] :: (classLines helpers ++ footerLines)) := by
  have alone : bodyLines [helpers] = classLines helpers := List.intercalate_singleton
  rw [fileRows_contents,around.byNamespace]
  split
  · simp [namespaceRows_contents,around.rooted,alone]
  · simp [namespaceRows_contents,around.rooted,alone]

-- The first line of a class is a mark or starts with a modifier, so it is no namespace.
theorem classLines_letter {c : ClassDef} (legible : c.Legible) :
    ∃ line rest, classLines c = line :: rest ∧ line.head? ≠ some 'n' ∧ line ≠ ['}'] := by
  rw [classLines_eq]
  cases c.attributes with
  | nil =>
    obtain ⟨letter,among,first⟩ := headText_letter legible
    refine ⟨_,_,rfl,?_,?_⟩
    · rw [first]
      intro same
      cases Option.some.inj same
      exact absurd among (by decide)
    · intro same
      rw [same] at first
      cases Option.some.inj first
      exact absurd among (by decide)
  | cons mark rest => exact ⟨_,_,rfl,by simp [markLine],by simp [markLine]⟩

-- Two files of one root namespace with the same contents have the same classes around and in the global namespace.
theorem Around.unique {other : List ClassDef} {another : ClassDef} (left : Around root front own helpers)
    (right : Around root other own another) (legible : ∀ c ∈ front ++ helpers :: own, c.Legible)
    (legibleToo : ∀ c ∈ other ++ another :: own, c.Legible) {layout : Layout}
    (same : (fileRows layout (front ++ helpers :: own)).map Row.content =
      (fileRows layout (other ++ another :: own)).map Row.content) : front = other ∧ helpers = another := by
  have first := legible helpers (by simp)
  have second := legibleToo another (by simp)
  have global : ∀ {r s : List (List Char)}, classLines helpers ++ r = classLines another ++ s → helpers = another :=
    fun equal => (classLines_code "" helpers another ⟨first,left.global⟩ ⟨second,right.global⟩ _ _ equal).1
  -- no class begins like a namespace, so the files have their first namespace in common
  have noNamespace : ∀ (c : ClassDef), c.Legible → ∀ r s : List (List Char),
      classLines c ++ r ≠ ("namespace " ++ root).toList :: s := by
    intro c known r s equal
    obtain ⟨line,rest,shown,letter,_⟩ := classLines_letter known
    rw [shown,List.cons_append] at equal
    rw [(List.cons.inj equal).1] at letter
    exact letter (by simp)
  rw [left.contents,right.contents] at same
  have bodies := (List.cons.inj (List.append_cancel_left same)).2
  by_cases empty : front = []
  · by_cases emptyToo : other = []
    · rw [if_pos empty,if_pos emptyToo] at bodies
      exact ⟨by rw [empty,emptyToo],global bodies⟩
    · rw [if_pos empty,if_neg emptyToo] at bodies
      exact absurd bodies (noNamespace helpers first _ _)
  · by_cases emptyToo : other = []
    · rw [if_neg empty,if_pos emptyToo] at bodies
      exact absurd bodies.symm (noNamespace another second _ _)
    · rw [if_neg empty,if_neg emptyToo] at bodies
      have inside := (List.cons.inj (List.cons.inj bodies).2).2
      obtain ⟨classes,rest⟩ := (classLines_code root).separated (by decide)
        (fun c known => (classLines_letter known.1).imp fun line => Exists.imp fun rest parts => ⟨parts.1,parts.2.2⟩)
        (fun c member => (left.inside c member).imp_left (legible c))
        (fun c member => (right.inside c member).imp_left (legibleToo c)) inside
      exact ⟨List.append_cancel_right classes,global (List.cons.inj rest).2⟩

end Namespaces

open Identifier

theorem token_of_dotted {s : String} (dotted : DottedText s) : Token s := by
  refine ⟨?_,Dotted.chars dotted⟩
  rintro rfl
  exact Dotted.ne_nil dotted rfl

theorem MadeMember.legible {m : Member} (made : MadeMember WordText DottedText m) : m.Legible := by
  have filled : ∀ {s : String}, s.toList ≠ [] → some s ≠ some "" := by
    rintro s present ⟨⟩
    exact present rfl
  cases made with
  | bare =>
    refine ⟨List.cons_ne_nil _ _,?_,?_,?_⟩ <;> simp
  | label named _ =>
    refine ⟨List.cons_ne_nil _ _,⟨_,rfl,token_of_dotted named.dotted⟩,⟨_,rfl,by decide⟩,filled ?_⟩
    simp [stringLiteral,quote]
  | handle isStatic named typed =>
    refine ⟨by cases isStatic <;> exact List.cons_ne_nil _ _,⟨_,rfl,token_of_dotted named.dotted⟩,
      ⟨_,rfl,token_of_dotted typed⟩,filled ?_⟩
    simp

theorem Wrapper.legible {root : String} {c : ClassDef} (wrapper : Wrapper root c) : c.Legible := by
  have token : ∀ {s : String}, WordText s → Token s := fun word => token_of_dotted word.dotted
  refine ⟨token wrapper.identifier,wrapper.modifiers,fun type member => token (wrapper.baseTypes type member),?_⟩
  intro m member
  cases wrapper.members m member with
  | constructor modifiers parameters arguments body =>
    refine ⟨modifiers,?_,fun own given a among => token (arguments own given a among),by rw [body]; decide⟩
    intro p among
    obtain ⟨name,type,default⟩ := parameters p among
    exact ⟨token name,token type,fun value given => token (default value given)⟩
  | property modifiers name type =>
    exact ⟨modifiers,name.imp fun _ both => ⟨both.1,token both.2⟩,type.imp fun _ both => ⟨both.1,token both.2⟩⟩

theorem Made.legible {target : Target} {c : ClassDef} (made : Made WordText DottedText target c) : c.Legible := by
  cases made with
  | grouping named _ members isStatic =>
    refine ⟨token_of_dotted named.dotted,?_,by simp [marked],fun m member => (members m member).legible⟩
    cases isStatic <;> exact List.cons_ne_nil _ _
  | wrapper among => exact (wrapper_words among).legible

namespace Generation

variable {target : Target} {cs ds : List Controller}

theorem plan_around (rooted : target.root ≠ "") (cs : List Controller) :
    Around target.root ((placeholderKeys cs).map (placeholderOf target.root) ++ areaPlan target.root cs)
      (wrappers target.root) (helpersOf target (namedAreas cs) (inArea "" cs)) where
  rooted := rooted
  before := by
    intro c member
    rcases List.mem_append.mp member with placeholder | area
    · obtain ⟨key,_,rfl⟩ := List.mem_map.mp placeholder
      rfl
    · obtain ⟨area,_,rfl⟩ := List.mem_map.mp area
      rfl
  global := rfl
  behind := by
    intro c member
    rcases List.mem_cons.mp member with rfl | last
    · rfl
    · rw [List.mem_singleton.mp last]
      rfl
  present := List.cons_ne_nil _ _

theorem source_contents {s : Settings} (accepted : s.validate = .ok target) (clean : s.OneLine)
    (left : ∀ c ∈ cs, c.Within PlainText PlainText) (right : ∀ d ∈ ds, d.Within PlainText PlainText)
    {classes others : List ClassDef} (generated : (generate target cs).outcome = .ok classes)
    (generatedToo : (generate target ds).outcome = .ok others) {text : String}
    (printed : (source target (Layout.ofSettings s) cs).outcome = .ok text)
    (printedToo : (source target (Layout.ofSettings s) ds).outcome = .ok text) :
    ∃ layout, (fileRows layout classes).map Row.content = (fileRows layout others).map Row.content := by
  have tidy := generate_tidy accepted clean left generated
  have tidyToo := generate_tidy accepted clean right generatedToo
  rw [source_rows s generated fun c member => (tidy c member).1.printable] at printed
  rw [source_rows s generatedToo fun c member => (tidyToo c member).1.printable] at printedToo
  cases measured : Layout.repetitions s.indentSize with
  | error failure =>
    rw [measured] at printed
    cases printed
  | ok width =>
    rw [measured] at printed printedToo
    have same := (Except.ok.inj printed).trans (Except.ok.inj printedToo).symm
    refine ⟨_,contents_of_text (generate_laid accepted clean left generated width).sound
      (generate_laid accepted clean right generatedToo width).sound (fileRows_ne_nil _ _) (fileRows_ne_nil _ _) width ?_⟩
    simpa using congrArg String.toList same

-- The text of a file tells the classes of the generation, each with all its members.
theorem source_injective {s : Settings} (accepted : s.validate = .ok target) (clean : s.OneLine)
    (left : ∀ c ∈ cs, c.Within WordText DottedText) (right : ∀ d ∈ ds, d.Within WordText DottedText)
    {classes others : List ClassDef} (generated : (generate target cs).outcome = .ok classes)
    (generatedToo : (generate target ds).outcome = .ok others) {text : String}
    (printed : (source target (Layout.ofSettings s) cs).outcome = .ok text)
    (printedToo : (source target (Layout.ofSettings s) ds).outcome = .ok text) : classes = others := by
  have rooted := Settings.root_ne_empty accepted
  have present := Settings.helpers_ne_empty accepted
  obtain ⟨root,helpers,_⟩ := clean.texts accepted
  obtain ⟨layout,same⟩ := source_contents accepted clean (fun c member => (left c member).plain)
    (fun d member => (right d member).plain) generated generatedToo printed printedToo
  have legible := generate_made vocabulary root helpers present left generated
  have legibleToo := generate_made vocabulary root helpers present right generatedToo
  obtain ⟨_,rfl⟩ := generate_clear present (fun c member => (left c member).textual) generated
  obtain ⟨_,rfl⟩ := generate_clear present (fun d member => (right d member).textual) generatedToo
  obtain ⟨front,global⟩ := (plan_around rooted _).unique (plan_around rooted _)
    (fun c member => (legible c member).legible) (fun d member => (legibleToo d member).legible) same
  rw [plan,plan,front,global]

-- The storefront with another generated name for its view-only controller, which does not count.
def relabelled : List Controller :=
  storefront.map fun c => if c.isViewOnly then { c with generatedName := .str "Shop.Baskets" } else c

theorem relabelled_within : ∀ c ∈ relabelled, c.Within WordText DottedText := by
  intro c member
  obtain ⟨d,old,rfl⟩ := List.mem_map.mp member
  have known := storefront_within d old
  split
  · exact ⟨known.name,known.area,known.ns,.inr ⟨_,rfl,.inr (dotted_of_isDotted (by decide))⟩⟩
  · exact known

theorem relabelled_generate : (generate ⟨"R4Mvc","MVC"⟩ relabelled).outcome =
    .ok (plan ⟨"R4Mvc","MVC"⟩ (storefront.map (Controller.prepared "R4Mvc"))) := by
  have prepared : relabelled.map (Controller.prepared "R4Mvc") = storefront.map (Controller.prepared "R4Mvc") := by
    rw [relabelled,List.map_map]
    refine List.map_congr_left ?_
    intro c _
    rw [Function.comp_apply]
    split
    · rename_i viewOnly
      refine Controller.prepared_congr viewOnly ?_ ?_ ?_ "R4Mvc" <;> rfl
    · rfl
  rw [← prepared]
  refine generate_of_distinguished _ (by decide) (by decide) (fun c member => (relabelled_within c member).textual) ?_ ?_
  · constructor <;> simp [relabelled,storefront,Controller.ofTexts,Controller.isViewOnly]
  · simp [PlaceholdersDiffer,relabelled,storefront,Controller.ofTexts,Controller.isViewOnly]

theorem source_injective_relabelled :
    Settings.default.validate = .ok ⟨"R4Mvc","MVC"⟩ ∧ Settings.default.OneLine ∧
    (∀ c ∈ storefront, c.Within WordText DottedText) ∧ (∀ c ∈ relabelled, c.Within WordText DottedText) ∧
    ∃ classes others text, (generate ⟨"R4Mvc","MVC"⟩ storefront).outcome = .ok classes ∧
      (generate ⟨"R4Mvc","MVC"⟩ relabelled).outcome = .ok others ∧
      (source ⟨"R4Mvc","MVC"⟩ (Layout.ofSettings Settings.default) storefront).outcome = .ok text ∧
      (source ⟨"R4Mvc","MVC"⟩ (Layout.ofSettings Settings.default) relabelled).outcome = .ok text ∧
      classes = others := by
  have accepted := Settings.default_accepted
  have clean := Settings.default_oneLine
  have generated := storefront_generate ⟨"R4Mvc","MVC"⟩ (by decide) (by decide)
  have tidy := generate_tidy accepted clean storefront_plain generated
  have printed := source_rows Settings.default generated fun c member => (tidy c member).1.printable
  have printedToo := source_rows Settings.default relabelled_generate fun c member => (tidy c member).1.printable
  have width : Layout.repetitions Settings.default.indentSize = .ok 4 := rfl
  rw [width] at printed printedToo
  exact ⟨accepted,clean,storefront_within,relabelled_within,_,_,_,generated,relabelled_generate,printed,printedToo,
    source_injective accepted clean storefront_within relabelled_within generated relabelled_generate printed printedToo⟩

end Generation
end TypedMvc
