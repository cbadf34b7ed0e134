import TypedMvc.Proofs.Loading
import TypedMvc.Proofs.Placeholders

namespace TypedMvc.Settings

variable {s : Settings} {target : Target} {root helpers : String} {references : List String} {indent : Int}

-- Settings that are accepted differ from settings of texts in their indentation only.
theorem eq_ofTexts (accepted : s.validate = .ok target) (whole : s.indentSize = .int indent) :
    ∃ references, s = ofTexts target.root target.helpers references indent := by
  obtain ⟨root,helpers,referenced,_⟩ := validate_ok accepted
  obtain ⟨references,texts⟩ : ∃ references : List String, s.referencedNamespaces = references.map .str := by
    have each := checkReferences_ok referenced
    generalize s.referencedNamespaces = values at each
    induction values with
    | nil => exact ⟨[],rfl⟩
    | cons v rest ih =>
      obtain ⟨text,rfl,_⟩ := each v List.mem_cons_self
      obtain ⟨others,rfl⟩ := ih fun w member => each w (List.mem_cons_of_mem _ member)
      exact ⟨text :: others,rfl⟩
  obtain ⟨_,_,_,_⟩ := s
  obtain rfl := (checkNamespace_ok root).1
  obtain rfl := (checkHelpers_ok helpers).1
  obtain rfl := whole
  obtain rfl := texts
  exact ⟨references,rfl⟩

theorem indent_nonnegative (accepted : s.validate = .ok target) (whole : s.indentSize = .int indent) : 0 ≤ indent := by
  have checked := (validate_ok accepted).2.2.2
  rw [whole,checkIndent] at checked
  split at checked
  · cases checked
  · omega

theorem toValue_written (short : indent.natAbs < Binary64.tenTo Text.digitLimit) :
    Json.Written Json.depthLimit (ofTexts root helpers references indent).toValue := by
  have distinct : ["generated_namespace","helpers_prefix","referenced_namespaces","indent_size"].Nodup := by decide
  refine .map _ [("generated_namespace",.str root),("helpers_prefix",.str helpers),
    ("referenced_namespaces",.list (references.map .str)),("indent_size",.int indent)] distinct ?_
  have texts : ∀ item ∈ references.map Value.str, Json.Written 983 item := by
    intro item member
    obtain ⟨text,_,rfl⟩ := List.mem_map.mp member
    exact .str _ text
  simp only [List.forall_mem_cons]
  exact ⟨.str _ root,.str _ helpers,.list _ _ texts,.int _ indent short,fun _ member => absurd member List.not_mem_nil⟩

theorem toReferences_texts (references : List String) : toReferences (.list (references.map .str)) = .ok references := by
  unfold toReferences
  cases references with
  | nil => rfl
  | cons first rest =>
    have each : ∀ v ∈ (first :: rest).map Value.str, v.shown = .ok v.text := by
      intro v member
      obtain ⟨text,_,rfl⟩ := List.mem_map.mp member
      rw [Value.shown_str,Value.text_str]
    refine (Synthesis.mapM_ok each).trans ?_
    rw [List.map_map]
    congr 1
    exact List.map_id'' Value.text_str (first :: rest)

theorem convert_toValue (root helpers : String) (references : List String) (indent : Int) :
    ∃ entries, (ofTexts root helpers references indent).toValue = .map entries ∧
      convert entries = .ok (ofTexts root helpers references indent) := by
  refine ⟨_,rfl,?_⟩
  simp only [convert,entryOr,ofTexts,Value.lookup_cons_str,String.reduceEq,if_true,if_false,Value.shown_str,toReferences_texts]
  rfl

theorem ofValue_toValue (accepted : (ofTexts root helpers references indent).validate = .ok target) :
    ∃ entries, (ofTexts root helpers references indent).toValue = .map entries ∧
      ofValue (.map entries) = .ok (ofTexts root helpers references indent) := by
  obtain ⟨entries,mapping,converted⟩ := convert_toValue root helpers references indent
  refine ⟨entries,mapping,?_⟩
  simp only [ofValue,converted]
  exact bind_ok_iff.mpr ⟨_,rfl,bind_ok_iff.mpr ⟨target,accepted,rfl⟩⟩

theorem pathOf_some {folder : Folder} {file : String} (named : file ≠ "") : pathOf folder (some file) = .ofText file :=
  if_neg named

theorem writable_ne_empty {folder : Folder} {file : String} (writable : folder.Writable (.ofText file)) : file ≠ "" := by
  rintro rfl
  obtain ⟨place,located,free⟩ := writable
  have here : folder.locate (.ofText "") = .ok [] := rfl
  rw [here] at located
  obtain rfl := Except.ok.inj located
  exact free rfl

theorem save_writable {folder : Folder} {file : String} (writable : folder.Writable (.ofText file)) :
    ∃ after, (save folder s file).outcome = .ok after ∧
      folder.write (.ofText file) (Text.encodeUtf8 (saved (Path.ofText file).isYaml s)) = .ok after := by
  obtain ⟨after,written⟩ := Folder.write_writable writable (Text.encodeUtf8 (saved (Path.ofText file).isYaml s))
  refine ⟨after,?_,written⟩
  delta save
  dsimp only
  rw [written]
  rfl

-- Whatever is saved in a JSON file is what the file loads as, while the environment gives no namespace of its own.
theorem load_saved {folder : Folder} {environment file : String} (accepted : s.validate = .ok target)
    (whole : s.indentSize = .int indent) (short : indent < Binary64.tenTo Text.digitLimit)
    (json : (Path.ofText file).isYaml = false) (writable : folder.Writable (.ofText file))
    (blank : Text.isAllBlank environment.toList = true) :
    ∃ after, (save folder s file).outcome = .ok after ∧ (load after environment (some file)).outcome = .ok s := by
  obtain ⟨after,outcome,written⟩ := save_writable (s := s) writable
  refine ⟨after,outcome,?_⟩
  have small : indent.natAbs < Binary64.tenTo Text.digitLimit := by
    obtain ⟨n,rfl⟩ := Int.eq_ofNat_of_zero_le (indent_nonnegative accepted whole)
    exact Int.ofNat_lt.mp short
  obtain ⟨references,rfl⟩ := eq_ofTexts accepted whole
  obtain ⟨entries,mapping,made⟩ := ofValue_toValue accepted
  have path : pathOf after (some file) = .ofText file := pathOf_some (writable_ne_empty writable)
  have read : Document.read after (pathOf after (some file)) = .ok (.map entries) := by
    have found := (Folder.read_write written).1
    rw [json,saved,if_neg Bool.false_ne_true] at found
    rw [path,← mapping]
    exact Document.read_document json found (toValue_written small)
  have unchanged : ∀ u : Settings, u.override environment = .ok u := by
    intro u
    rw [override,Text.trim_of_isAllBlank blank]
  rw [load_read read,ofDocument_map _ rfl,made]
  exact unchanged _

def bare : Settings := ofTexts "Site\n" "MVC" [] 0

def emptyFolder : Folder := ⟨"/work/",[]⟩

theorem load_saved_bare :
    bare.validate = .ok ⟨"Site\n","MVC"⟩ ∧ (Path.ofText "site.json").isYaml = false ∧
      emptyFolder.Writable (.ofText "site.json") ∧
      ∃ after, (save emptyFolder bare "site.json").outcome = .ok after ∧
        (load after "  " (some "site.json")).outcome = .ok bare := by
  have accepted : bare.validate = .ok ⟨"Site\n","MVC"⟩ := rfl
  have short : (0 : Int) < Binary64.tenTo Text.digitLimit := Int.ofNat_lt.mpr (Binary64.tenTo_pos _)
  have json : (Path.ofText "site.json").isYaml = false := by
    rw [Bool.eq_false_iff,ne_eq,Path.isYaml_iff]
    decide
  have located : emptyFolder.locate (.ofText "site.json") = .ok ["site.json"] :=
    Folder.locate_name (.inl rfl) rfl (by decide) (by decide) (by decide) (by decide)
  have writable : emptyFolder.Writable (.ofText "site.json") := ⟨_,located,by decide⟩
  exact ⟨accepted,json,writable,load_saved accepted rfl short json writable (by decide)⟩

end TypedMvc.Settings
