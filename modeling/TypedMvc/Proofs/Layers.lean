import TypedMvc.Proofs.SettingsFile
import TypedMvc.Proofs.Validation
import TypedMvc.Session

namespace TypedMvc

namespace Settings

open Identifier

variable {s base : Settings} {target : Target} {entries others : List (Value × Value)} {failure : Failure}

theorem entryOr_congr {key : String} (same : Value.lookup (.str key) others = Value.lookup (.str key) entries)
    (fallback : β) (conversion : Value → Except Failure β) :
    entryOr others key fallback conversion = entryOr entries key fallback conversion := by
  rw [entryOr,entryOr,same]

theorem ofValue_congr (same : ∀ key ∈ knownKeys, Value.lookup (.str key) others = Value.lookup (.str key) entries) :
    ofValue (.map others) = ofValue (.map entries) := by
  have converted : convert others = convert entries := by
    unfold convert
    rw [entryOr_congr (same "generated_namespace" (by decide)),entryOr_congr (same "helpers_prefix" (by decide)),
      entryOr_congr (same "referenced_namespaces" (by decide)),entryOr_congr (same "indent_size" (by decide))]
  unfold ofValue
  dsimp only
  rw [converted]

-- What a mapping gives is accepted, is given again by the mapping that it is shown as, and depends on the known keys
-- alone; and all accepted settings with a whole number for the indentation are given by the mapping they are shown as.
theorem ofValue_settles (entries : List (Value × Value)) :
    (∀ s, ofValue (.map entries) = .ok s → (∃ target, s.validate = .ok target) ∧ ofValue s.toValue = .ok s ∧
      ∀ others, (∀ key ∈ knownKeys, Value.lookup (.str key) others = Value.lookup (.str key) entries) →
        ofValue (.map others) = .ok s) ∧
    ∀ s target indent, s.validate = .ok target → s.indentSize = .int indent → ofValue s.toValue = .ok s := by
  constructor
  · intro s made
    obtain ⟨converted,target,accepted⟩ := ofValue_map_ok made
    refine ⟨⟨target,accepted⟩,?_,fun others same => (ofValue_congr same).trans made⟩
    obtain ⟨root,helpers,references,indent,rfl⟩ := convert_ok converted
    obtain ⟨shown,mapping,again⟩ := ofValue_toValue accepted
    rw [mapping,again]
  · intro s target indent accepted whole
    obtain ⟨references,rfl⟩ := eq_ofTexts accepted whole
    obtain ⟨shown,mapping,again⟩ := ofValue_toValue accepted
    rw [mapping,again]

def oddKinds : List (Value × Value) :=
  [(.str "generated_namespace",.bool true),(.str "referenced_namespaces",.str "System"),(.str "indent_size",.str " 3\n"),
    (.str "colour",.null)]

theorem ofValue_settles_oddKinds :
    ofValue (.map oddKinds) = .ok (ofTexts "True" "MVC" ["System"] 3) ∧
      ofValue (ofTexts "True" "MVC" ["System"] 3).toValue = .ok (ofTexts "True" "MVC" ["System"] 3) ∧
      ofValue (.map (oddKinds.take 3)) = .ok (ofTexts "True" "MVC" ["System"] 3) ∧
      ofValue default.toValue = .ok default := by
  have made : ofValue (.map oddKinds) = .ok (ofTexts "True" "MVC" ["System"] 3) := rfl
  have same : ∀ key ∈ knownKeys, Value.lookup (.str key) (oddKinds.take 3) = Value.lookup (.str key) oddKinds := by
    simp only [knownKeys,List.forall_mem_cons]
    exact ⟨rfl,rfl,rfl,rfl,fun _ none => absurd none List.not_mem_nil⟩
  obtain ⟨settled,shown⟩ := ofValue_settles oddKinds
  obtain ⟨_,again,alone⟩ := settled _ made
  exact ⟨made,again,alone _ same,shown default _ 4 default_accepted rfl⟩

-- A failure that is about a setting and names no file, or that nothing tells of.
def Fileless (failure : Failure) : Prop :=
  failure.report = none ∨
    ∃ setting message, failure.report = some (.configuration (.str message) (.str setting) .null)

theorem toInteger_fileless {v : Value} (failed : toInteger v = .error failure) : Fileless failure := by
  have blame : ∀ {given : Value}, (invalid (.indentKind given) : Except Failure Int) = .error failure → Fileless failure := by
    intro given equal
    obtain rfl := Except.error.inj equal
    exact .inr ⟨_,_,rfl⟩
  unfold toInteger at failed
  split at failed
  · cases failed
  · cases failed
  · split at failed
    · obtain rfl := Except.error.inj failed
      exact .inl rfl
    · split at failed
      · cases failed
      · exact blame failed
  · split at failed
    · cases failed
    · exact blame failed
  · split at failed
    · split at failed
      · cases failed
      · exact blame failed
    · exact blame failed
  · rcases bind_error failed with unshown | ⟨_,_,invalid⟩
    · exact .inl (shown_unreported unshown)
    · exact blame invalid

theorem convert_fileless (failed : convert entries = .error failure) : Fileless failure := by
  unfold convert at failed
  rcases bind_error failed with root | ⟨_,_,rest⟩
  · exact .inl (entryOr_unreported (fun _ _ => shown_unreported) root)
  rcases bind_error rest with helpers | ⟨_,_,rest⟩
  · exact .inl (entryOr_unreported (fun _ _ => shown_unreported) helpers)
  rcases bind_error rest with references | ⟨_,_,rest⟩
  · exact .inl (entryOr_unreported (fun _ _ => toReferences_unreported) references)
  rcases bind_error rest with indent | ⟨_,_,made⟩
  · obtain ⟨_,_,refused⟩ := entryOr_error indent
    exact toInteger_fileless refused
  · cases made

theorem ofValue_map_fileless (failed : ofValue (.map entries) = .error failure) : Fileless failure := by
  unfold ofValue at failed
  rcases bind_error failed with unconverted | ⟨s,converted,rest⟩
  · exact convert_fileless unconverted
  obtain ⟨root,helpers,references,indent,rfl⟩ := convert_ok converted
  rcases bind_error rest with refused | ⟨_,_,made⟩
  · rcases correct_or_offence root helpers references indent with correct | ⟨setting,message,offence⟩
    · rw [validate_correct correct] at refused
      cases refused
    · obtain ⟨cause,ended,told⟩ := validate_offence offence
      rw [refused] at ended
      obtain rfl := Except.error.inj ended
      exact .inr ⟨_,_,told⟩
  · cases made

theorem blamed_report {path : Path} {setting message : String}
    (told : failure.report = some (.configuration (.str message) (.str setting) .null)) :
    (blamed path failure).report = some (.configuration (.str message) (.str setting) (.str path.text)) := by
  cases failure with
  | setting fault source =>
    simp only [Failure.report,Option.some.injEq,Report.configuration.injEq] at told
    rw [← told.1,← told.2.1]
    rfl
  | template fault => cases fault <;> cases told
  | _ => cases told

variable {folder : Folder} {environment : String} {file : Option String} {data : Value}

-- What a file gives by itself: the defaults if it is missing or empty, and otherwise the settings of its mapping.
inductive Given (folder : Folder) (file : Option String) : Settings → Prop where
  | missing (absent : folder.exists? (pathOf folder file) = .ok false) : Given folder file default
  | empty (read : Document.read folder (pathOf folder file) = .ok .null) : Given folder file default
  | mapping {data : Value} {entries : List (Value × Value)} {s : Settings}
    (read : Document.read folder (pathOf folder file) = .ok data) (opened : data.opened = .map entries)
    (made : ofValue (.map entries) = .ok s) : Given folder file s

theorem Given.accepted (given : Given folder file base) : ∃ target, base.validate = .ok target := by
  cases given with
  | missing _ => exact ⟨_,default_accepted⟩
  | empty _ => exact ⟨_,default_accepted⟩
  | mapping _ _ made => exact (ofValue_map_ok made).2

theorem ofValue_none : ofValue (.map []) = .ok default := by
  have converted : convert [] = .ok default := rfl
  unfold ofValue
  exact bind_ok_iff.mpr ⟨default,converted,bind_ok_iff.mpr ⟨_,default_accepted,rfl⟩⟩

theorem ofDocument_null {path : Path} :
    (ofDocument path environment .null).outcome = default.override environment := by
  simp only [ofDocument,Value.isNull,if_true,ofValue_none]
  rfl

theorem load_given (given : Given folder file base) :
    (load folder environment file).outcome = base.override environment := by
  cases given with
  | missing absent =>
    delta load
    dsimp only
    rw [absent]
    rfl
  | empty read => rw [load_read read,ofDocument_null]
  | mapping read opened made =>
    rw [load_read read,ofDocument_map _ opened,made]
    rfl

theorem ofDocument_ok {path : Path} (loaded : (ofDocument path environment data).outcome = .ok s) :
    data = .null ∧ default.override environment = .ok s ∨
      ∃ entries base, data.opened = .map entries ∧ ofValue (.map entries) = .ok base ∧
        base.override environment = .ok s := by
  cases empty : data.isNull with
  | true =>
    obtain rfl : data = .null := by
      cases data with
      | null => rfl
      | _ => cases empty
    exact .inl ⟨rfl,ofDocument_null.symm.trans loaded⟩
  | false =>
    cases opened : data.opened with
    | map entries =>
      rw [ofDocument_map _ opened] at loaded
      cases made : ofValue (.map entries) with
      | error failure =>
        rw [made] at loaded
        cases loaded
      | ok base =>
        rw [made] at loaded
        exact .inr ⟨entries,base,rfl,made,loaded⟩
    | _ =>
      delta ofDocument at loaded
      simp only [empty,opened,Bool.false_eq_true,if_false] at loaded
      cases loaded

theorem given_of_load (loaded : (load folder environment file).outcome = .ok s) :
    ∃ base, Given folder file base ∧ base.override environment = .ok s := by
  delta load at loaded
  dsimp only at loaded
  split at loaded
  · cases loaded
  · rename_i absent
    exact ⟨default,.missing absent,loaded⟩
  · split at loaded
    · cases loaded
    · cases loaded
    · rename_i data read
      rcases ofDocument_ok loaded with ⟨rfl,overridden⟩ | ⟨entries,base,opened,made,overridden⟩
      · exact ⟨default,.empty read,overridden⟩
      · exact ⟨base,.mapping read opened made,overridden⟩

def outerRoot (environment : String) : String := String.ofList (Text.trim environment.toList)

-- The settings with the namespace of the environment in the place of their own, if there is one.
structure Layered (environment : String) (base s : Settings) : Prop where
  root : s.generatedNamespace =
    if outerRoot environment = "" then base.generatedNamespace else .str (outerRoot environment)
  helpers : s.helpersPrefix = base.helpersPrefix
  references : s.referencedNamespaces = base.referencedNamespaces
  indent : s.indentSize = base.indentSize

theorem override_blank (blank : outerRoot environment = "") : base.override environment = .ok base := by
  have none : Text.trim environment.toList = [] := String.ofList_eq_empty_iff.mp blank
  rw [override,none]

theorem override_named (named : outerRoot environment ≠ "") :
    base.override environment =
      ({ base with generatedNamespace := .str (outerRoot environment) }.validate >>= fun _ =>
        .ok { base with generatedNamespace := .str (outerRoot environment) }) := by
  unfold override
  split
  · rename_i none
    exact absurd (String.ofList_eq_empty_iff.mpr none) named
  · rfl

theorem override_correct (accepted : base.validate = .ok target) (named : outerRoot environment ≠ "")
    (correct : Terminated Qualified (outerRoot environment)) :
    base.override environment = .ok { base with generatedNamespace := .str (outerRoot environment) } := by
  obtain ⟨_,helpers,references,indent⟩ := validate_ok accepted
  rw [override_named named]
  simp only [validate,checkNamespace_correct correct,helpers,references,indent]
  rfl

theorem override_wrong (named : outerRoot environment ≠ "") (wrong : ¬ Terminated Qualified (outerRoot environment)) :
    Blames none "generated_namespace" ("Invalid generated namespace: '" ++ outerRoot environment ++ "'")
      (base.override environment) := by
  rw [override_named named]
  simp only [validate,checkNamespace_wrong wrong]
  exact ⟨_,rfl,rfl⟩

theorem layered_of_override (overridden : base.override environment = .ok s) : Layered environment base s := by
  by_cases named : outerRoot environment = ""
  · rw [override_blank named] at overridden
    obtain rfl := Except.ok.inj overridden
    exact ⟨(if_pos named).symm,rfl,rfl,rfl⟩
  · rw [override_named named] at overridden
    obtain ⟨_,_,made⟩ := bind_ok_iff.mp overridden
    obtain rfl := Except.ok.inj made
    exact ⟨(if_neg named).symm,rfl,rfl,rfl⟩

-- What is loaded is accepted, so that a service starts with it, and it is what the file gives below the namespace of the
-- environment. It is loaded if that namespace is none or a correct one; a wrong one is told of, and before it whatever is
-- told of the mapping of the file, then with the path of the file.
theorem load_layers (folder : Folder) (environment : String) (file : Option String) :
    (∀ s, (load folder environment file).outcome = .ok s →
      (∃ target, s.validate = .ok target ∧ Service.ofSettings s = .ok ⟨s,target⟩) ∧
      ∃ base, Given folder file base ∧ Layered environment base s) ∧
    (∀ base, Given folder file base → outerRoot environment = "" ∨ Terminated Qualified (outerRoot environment) →
      ∃ s, (load folder environment file).outcome = .ok s) ∧
    (∀ base, Given folder file base → outerRoot environment ≠ "" → ¬ Terminated Qualified (outerRoot environment) →
      Blames none "generated_namespace" ("Invalid generated namespace: '" ++ outerRoot environment ++ "'")
        (load folder environment file).outcome) ∧
    ∀ data entries failure, Document.read folder (pathOf folder file) = .ok data → data.opened = .map entries →
      ofValue (.map entries) = .error failure → Told Report.OfConfiguration failure →
      ∃ setting message, Blames none setting message (ofValue (.map entries)) ∧
        Blames (some (pathOf folder file).text) setting message (load folder environment file).outcome := by
  refine ⟨?_,?_,?_,?_⟩
  · intro s loaded
    obtain ⟨base,given,overridden⟩ := given_of_load loaded
    obtain ⟨target,own⟩ := given.accepted
    obtain ⟨other,accepted⟩ := override_ok own overridden
    have started : Service.ofSettings s = .ok ⟨s,other⟩ := by
      rw [Service.ofSettings,accepted]
      rfl
    exact ⟨⟨other,accepted,started⟩,base,given,layered_of_override overridden⟩
  · intro base given fine
    rw [load_given given]
    by_cases named : outerRoot environment = ""
    · exact ⟨base,override_blank named⟩
    · obtain ⟨target,own⟩ := given.accepted
      exact ⟨_,override_correct own named (fine.resolve_left named)⟩
  · intro base given named wrong
    rw [load_given given]
    exact override_wrong named wrong
  · intro data entries failure read opened failed told
    rcases ofValue_map_fileless failed with unreported | ⟨setting,message,reported⟩
    · exact absurd told (not_told unreported)
    · refine ⟨setting,message,⟨failure,failed,reported⟩,blamed (pathOf folder file) failure,?_,blamed_report reported⟩
      rw [load_read read,ofDocument_map _ opened,failed]
      rfl

def worded : List (Value × Value) := [(.str "indent_size",.str "wide")]

theorem load_layers_truth :
    Given truthFolder none (ofTexts "R4Mvc" "MVC" defaultReferences 1) ∧
    (∃ s, (load truthFolder " App.Web\n" none).outcome = .ok s ∧
      ∃ base, Given truthFolder none base ∧ Layered " App.Web\n" base s) ∧
    Blames none "generated_namespace" "Invalid generated namespace: '1x'" (load truthFolder "1x" none).outcome ∧
    ∃ setting message, Blames none setting message (ofValue (.map worded)) ∧
      Blames (some "/work/r4mvc.json") setting message (load (holding worded) " App.Web\n" none).outcome := by
  have given : Given truthFolder none (ofTexts "R4Mvc" "MVC" defaultReferences 1) := .mapping read_truth rfl rfl
  obtain ⟨comes,fits,_⟩ := load_layers truthFolder " App.Web\n" none
  have correct : Terminated Qualified (outerRoot " App.Web\n") := acceptsDotted_iff.mp (by decide)
  obtain ⟨s,loaded⟩ := fits _ given (.inr correct)
  have unnamed : ¬ Terminated Qualified (outerRoot "1x") := by
    rw [← acceptsDotted_iff]
    decide
  have refused := (load_layers truthFolder "1x" none).2.2.1 _ given (by decide) unnamed
  have read : Document.read (holding worded) (pathOf (holding worded) none) = .ok (.map worded) :=
    read_holding (.map _ [("indent_size",.str "wide")] (by decide) (by simp [Json.Written.str]))
  have rejected := (load_layers (holding worded) " App.Web\n" none).2.2.2 _ worded (.setting (.indentKind (.str "wide")) none)
    read rfl rfl ⟨_,rfl,trivial⟩
  exact ⟨given,⟨s,loaded,(comes s loaded).2⟩,refused,rejected⟩

end Settings
end TypedMvc
