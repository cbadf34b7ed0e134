import TypedMvc.Proofs.Files
import TypedMvc.Proofs.JsonText
import TypedMvc.Proofs.Writing
import TypedMvc.Storage

namespace TypedMvc

def Told (kind : Report → Prop) (failure : Failure) : Prop := ∃ report, failure.report = some report ∧ kind report

-- If anything fails, a report of the kind tells of it.
def Contained (kind : Report → Prop) (outcome : Except Failure α) : Prop :=
  ∀ failure, outcome = .error failure → Told kind failure

section Contained

variable {kind : Report → Prop} {failure : Failure}

theorem contained_ok (a : α) : Contained kind (.ok a) := by
  rintro _ ⟨⟩

theorem contained_error : Contained kind (.error failure : Except Failure α) ↔ Told kind failure := by
  constructor
  · exact fun contained => contained failure rfl
  · rintro told _ ⟨⟩
    exact told

theorem not_told (unreported : failure.report = none) : ¬ Told kind failure := by
  rintro ⟨report,reported,_⟩
  rw [unreported] at reported
  cases reported

theorem not_contained {outcome : Except Failure α} (failed : outcome = .error failure)
    (unreported : failure.report = none) : ¬ Contained kind outcome :=
  fun contained => not_told unreported (contained failure failed)

theorem contained_bind {first : Except Failure α} {next : α → Except Failure β} (contained : Contained kind first)
    (continued : ∀ a, first = .ok a → Contained kind (next a)) : Contained kind (first >>= next) := by
  cases outcome : first with
  | ok a => exact continued a outcome
  | error failure => exact contained_error.mpr (contained failure outcome)

theorem contained_bind_iff {first : Except Failure α} {next : α → Except Failure β}
    (unreported : ∀ failure, first = .error failure → failure.report = none) :
    Contained kind (first >>= next) ↔ ∃ a, first = .ok a ∧ Contained kind (next a) := by
  cases outcome : first with
  | ok a => simp [bind,Except.bind]
  | error failure =>
    have escapes : ¬ Told kind failure := not_told (unreported failure outcome)
    simp only [reduceCtorEq,false_and,exists_false,iff_false]
    exact fun contained => escapes (contained failure rfl)

end Contained

def Report.OfConfiguration : Report → Prop
  | .configuration .. => True
  | _ => False

namespace Settings

theorem invalid_contained (fault : SettingFault) : Contained Report.OfConfiguration (invalid fault : Except Failure α) :=
  contained_error.mpr ⟨_,rfl,trivial⟩

variable {v : Value} {entries : List (Value × Value)}

theorem shown_ok_iff : (∃ text, v.shown = .ok text) ↔ v.hasLongNumber = false := by
  unfold Value.shown
  cases v.hasLongNumber <;> simp

theorem shown_unreported {failure : Failure} (failed : v.shown = .error failure) : failure.report = none := by
  unfold Value.shown at failed
  split at failed
  · obtain rfl := Except.error.inj failed
    rfl
  · cases failed

def Listable (v : Value) : Prop :=
  v.truthy = true → ∃ parts, parts? v.opened = some parts ∧ ∀ part ∈ parts, part.hasLongNumber = false

theorem mapM_shown_unreported {parts : List Value} {failure : Failure} (failed : parts.mapM Value.shown = .error failure) :
    failure.report = none := by
  induction parts with
  | nil => cases failed
  | cons part rest ih =>
    rw [List.mapM_cons] at failed
    rcases bind_error failed with first | ⟨_,_,rest⟩
    · exact shown_unreported first
    rcases bind_error rest with later | ⟨_,_,made⟩
    · exact ih later
    · cases made

theorem mapM_shown_ok_iff {parts : List Value} :
    (∃ texts, parts.mapM Value.shown = .ok texts) ↔ ∀ part ∈ parts, part.hasLongNumber = false := by
  induction parts with
  | nil => simp [pure,Except.pure]
  | cons part rest ih =>
    rw [List.mapM_cons,List.forall_mem_cons,← ih,← shown_ok_iff]
    cases part.shown with
    | error failure => simp [bind,Except.bind]
    | ok text => cases rest.mapM Value.shown <;> simp [bind,Except.bind,pure,Except.pure]

theorem toReferences_ok_iff : (∃ texts, toReferences v = .ok texts) ↔ Listable v := by
  unfold toReferences Listable
  cases present : v.truthy with
  | false => simp
  | true =>
    simp only [if_true,true_implies]
    split
    · -- a text is a list of one, though its parts are its characters
      rename_i s
      refine ⟨fun _ => ⟨_,rfl,?_⟩,fun _ => ⟨_,rfl⟩⟩
      intro part member
      obtain ⟨c,_,rfl⟩ := List.mem_map.mp member
      rfl
    · cases parts? v.opened with
      | none => simp [misused]
      | some parts => simpa using mapM_shown_ok_iff

theorem toReferences_unreported {failure : Failure} (failed : toReferences v = .error failure) :
    failure.report = none := by
  unfold toReferences at failed
  split at failed
  · split at failed
    · cases failed
    · split at failed
      · exact mapM_shown_unreported failed
      · obtain rfl := Except.error.inj failed
        rfl
  · cases failed

structure Measurable (v : Value) : Prop where
  finite : ∀ negative, v ≠ .float (.infinite negative)
  shown : (∃ i, v = .int i) ∨ v.hasLongNumber = false

theorem toInteger_contained_iff : Contained Report.OfConfiguration (toInteger v) ↔ Measurable v := by
  have shown : ∀ v : Value, v.hasLongNumber = false → (∃ i, v = .int i) ∨ v.hasLongNumber = false := fun _ => .inr
  unfold toInteger
  split
  · exact ⟨fun _ => ⟨by simp,.inl ⟨_,rfl⟩⟩,fun _ => contained_ok _⟩
  · exact ⟨fun _ => ⟨by simp,.inr rfl⟩,fun _ => contained_ok _⟩
  · split
    · rename_i negative
      exact ⟨fun contained => absurd contained (not_contained rfl rfl),
        fun measurable => absurd rfl (measurable.finite negative)⟩
    · rename_i x finite
      refine ⟨fun _ => ⟨?_,.inr rfl⟩,fun _ => ?_⟩
      · rintro negative ⟨⟩
        exact finite negative rfl
      · split
        · exact contained_ok _
        · exact invalid_contained _
  · refine ⟨fun _ => ⟨by simp,.inr rfl⟩,fun _ => ?_⟩
    split
    · exact contained_ok _
    · exact invalid_contained _
  · refine ⟨fun _ => ⟨by simp,.inr rfl⟩,fun _ => ?_⟩
    split
    · split
      · exact contained_ok _
      · exact invalid_contained _
    · exact invalid_contained _
  · rename_i noInt _ noFloat _ _
    rw [contained_bind_iff fun failure => shown_unreported]
    constructor
    · rintro ⟨text,ran,_⟩
      refine ⟨fun negative equal => noFloat _ equal,.inr (shown_ok_iff.mp ⟨text,ran⟩)⟩
    · rintro ⟨_,short⟩
      obtain ⟨text,ran⟩ := shown_ok_iff.mpr (short.resolve_left fun ⟨i,equal⟩ => noInt i equal)
      exact ⟨text,ran,invalid_contained _⟩

theorem entryOr_ok_iff {key : String} {fallback : β} {convert : Value → Except Failure β} :
    (∃ b, entryOr entries key fallback convert = .ok b) ↔
      ∀ v, Value.lookup (.str key) entries = some v → ∃ b, convert v = .ok b := by
  unfold entryOr
  cases Value.lookup (.str key) entries <;> simp

theorem entryOr_error {key : String} {fallback : β} {convert : Value → Except Failure β} {failure : Failure}
    (failed : entryOr entries key fallback convert = .error failure) :
    ∃ v, Value.lookup (.str key) entries = some v ∧ convert v = .error failure := by
  unfold entryOr at failed
  split at failed
  · rename_i v found
    exact ⟨v,found,failed⟩
  · cases failed

theorem entryOr_unreported {key : String} {fallback : β} {convert : Value → Except Failure β}
    (unreported : ∀ v failure, convert v = .error failure → failure.report = none) {failure : Failure}
    (failed : entryOr entries key fallback convert = .error failure) : failure.report = none := by
  obtain ⟨v,_,refused⟩ := entryOr_error failed
  exact unreported v failure refused

theorem entryOr_contained_iff {kind : Report → Prop} {key : String} (fallback : β) {convert : Value → Except Failure β} :
    Contained kind (entryOr entries key fallback convert) ↔
      ∀ v, Value.lookup (.str key) entries = some v → Contained kind (convert v) := by
  unfold entryOr
  cases Value.lookup (.str key) entries with
  | none => simpa using contained_ok fallback
  | some v => simp

-- What a mapping must have for its known keys so that its settings are accepted or reported. A number too long to be shown,
-- references without parts and an infinite indentation end a run with a failure that nothing tells of.
structure Convertible (entries : List (Value × Value)) : Prop where
  root : ∀ v, Value.lookup (.str "generated_namespace") entries = some v → v.hasLongNumber = false
  helpers : ∀ v, Value.lookup (.str "helpers_prefix") entries = some v → v.hasLongNumber = false
  references : ∀ v, Value.lookup (.str "referenced_namespaces") entries = some v → Listable v
  indent : ∀ v, Value.lookup (.str "indent_size") entries = some v → Measurable v

theorem convert_contained_iff : Contained Report.OfConfiguration (convert entries) ↔ Convertible entries := by
  have last : ∀ root helpers references,
      Contained Report.OfConfiguration (entryOr entries "indent_size" 4 toInteger >>= fun indent =>
        pure (ofTexts root helpers references indent)) ↔
      ∀ v, Value.lookup (.str "indent_size") entries = some v → Measurable v := by
    intro root helpers references
    simp only [← toInteger_contained_iff]
    rw [← entryOr_contained_iff 4]
    cases entryOr entries "indent_size" 4 toInteger with
    | ok i => exact ⟨fun _ => contained_ok _,fun _ => contained_ok _⟩
    | error failure => exact contained_error.trans contained_error.symm
  have step : ∀ {β γ : Type} {key : String} {fallback : β} {conversion : Value → Except Failure β}
      {next : β → Except Failure γ} {rest : Prop},
      (∀ v failure, conversion v = .error failure → failure.report = none) →
      (∀ b, Contained Report.OfConfiguration (next b) ↔ rest) →
      (Contained Report.OfConfiguration (entryOr entries key fallback conversion >>= next) ↔
        (∀ v, Value.lookup (.str key) entries = some v → ∃ b, conversion v = .ok b) ∧ rest) := by
    intro β γ key fallback conversion next rest unreported later
    rw [contained_bind_iff fun failure => entryOr_unreported unreported]
    simp only [later,exists_and_right,entryOr_ok_iff]
  unfold convert
  rw [step (fun _ _ => shown_unreported) fun _ => step (fun _ _ => shown_unreported) fun _ =>
    step (fun _ _ => toReferences_unreported) fun _ => last _ _ _]
  simp only [shown_ok_iff,toReferences_ok_iff]
  exact ⟨fun ⟨root,helpers,references,indent⟩ => ⟨root,helpers,references,indent⟩,
    fun ⟨root,helpers,references,indent⟩ => ⟨root,helpers,references,indent⟩⟩

theorem checkReferences_contained (references : List String) :
    Contained Report.OfConfiguration (checkReferences (references.map .str)) := by
  induction references with
  | nil => exact contained_ok ()
  | cons reference rest ih =>
    rw [List.map_cons,checkReferences]
    split
    · exact ih
    · exact invalid_contained _

theorem checkNamespace_contained (root : String) :
    Contained Report.OfConfiguration (checkNamespace (.str root)) := by
  simp only [checkNamespace]
  split
  · exact invalid_contained _
  · split
    · exact contained_ok _
    · exact invalid_contained _

theorem checkHelpers_contained (helpers : String) :
    Contained Report.OfConfiguration (checkHelpers (.str helpers)) := by
  simp only [checkHelpers]
  split
  · exact contained_ok _
  · exact invalid_contained _

theorem checkIndent_contained (indent : Int) : Contained Report.OfConfiguration (checkIndent (.int indent)) := by
  simp only [checkIndent]
  split
  · exact invalid_contained _
  · exact contained_ok _

theorem validate_contained (root helpers : String) (references : List String) (indent : Int) :
    Contained Report.OfConfiguration (ofTexts root helpers references indent).validate :=
  contained_bind (checkNamespace_contained root) fun _ _ => contained_bind (checkHelpers_contained helpers) fun _ _ =>
    contained_bind (checkReferences_contained references) fun _ _ =>
      contained_bind (checkIndent_contained indent) fun _ _ => contained_ok _

theorem convert_ok {s : Settings} (converted : convert entries = .ok s) :
    ∃ root helpers references indent, s = ofTexts root helpers references indent := by
  unfold convert at converted
  obtain ⟨root,_,rest⟩ := bind_ok_iff.mp converted
  obtain ⟨helpers,_,rest⟩ := bind_ok_iff.mp rest
  obtain ⟨references,_,rest⟩ := bind_ok_iff.mp rest
  obtain ⟨indent,_,rest⟩ := bind_ok_iff.mp rest
  exact ⟨root,helpers,references,indent,(Except.ok.inj rest).symm⟩

theorem ofValue_map_ok {s : Settings} (made : ofValue (.map entries) = .ok s) :
    convert entries = .ok s ∧ ∃ target, s.validate = .ok target := by
  unfold ofValue at made
  obtain ⟨own,converted,rest⟩ := bind_ok_iff.mp made
  obtain ⟨target,accepted,rest⟩ := bind_ok_iff.mp rest
  obtain rfl := Except.ok.inj rest
  exact ⟨converted,target,accepted⟩

theorem ofValue_map_contained_iff :
    Contained Report.OfConfiguration (ofValue (.map entries)) ↔ Convertible entries := by
  rw [← convert_contained_iff]
  unfold ofValue
  dsimp only
  cases converted : convert entries with
  | error failure => exact Iff.rfl
  | ok s =>
    obtain ⟨root,helpers,references,indent,rfl⟩ := convert_ok converted
    refine ⟨fun _ => contained_ok _,fun _ => ?_⟩
    show Contained _ ((ofTexts root helpers references indent).validate >>= fun _ => pure _)
    exact contained_bind (validate_contained root helpers references indent) fun _ _ => contained_ok _

variable {folder : Folder} {environment : String} {file : Option String} {data : Value}

theorem override_contained (root helpers : String) (references : List String) (indent : Int) (environment : String) :
    Contained Report.OfConfiguration ((ofTexts root helpers references indent).override environment) := by
  unfold override
  split
  · exact contained_ok _
  · exact contained_bind (validate_contained _ helpers references indent) fun _ _ => contained_ok _

theorem override_ok {s t : Settings} {target : Target} (accepted : s.validate = .ok target)
    (overridden : s.override environment = .ok t) : ∃ target, t.validate = .ok target := by
  unfold override at overridden
  split at overridden
  · obtain rfl := Except.ok.inj overridden
    exact ⟨target,accepted⟩
  · obtain ⟨other,again,rest⟩ := bind_ok_iff.mp overridden
    obtain rfl := Except.ok.inj rest
    exact ⟨other,again⟩

theorem told_blamed {path : Path} {failure : Failure} :
    Told Report.OfConfiguration (blamed path failure) ↔ Told Report.OfConfiguration failure := by
  unfold blamed
  split
  · exact ⟨fun _ => ⟨_,rfl,trivial⟩,fun _ => ⟨_,rfl,trivial⟩⟩
  · exact Iff.rfl

theorem load_read (read : Document.read folder (pathOf folder file) = .ok data) :
    load folder environment file = ofDocument (pathOf folder file) environment data := by
  have there : folder.exists? (pathOf folder file) = .ok true := by
    unfold Document.read at read
    split at read
    · cases read
    · rename_i content found
      obtain ⟨place,located,rest⟩ := bind_ok_iff.mp found
      cases found : folder.at? place with
      | none => simp [found] at rest
      | some entry => simp only [Folder.exists?,located,found,Option.isSome_some]
  simp only [load,there,read]

theorem ofDocument_map (path : Path) (mapping : data.opened = .map entries) :
    (ofDocument path environment data).outcome =
      ((ofValue (.map entries)).mapError (blamed path) >>= fun s => s.override environment) := by
  have present : data.isNull = false := by
    cases data with
    | null => cases mapping
    | _ => rfl
  simp only [ofDocument,present,mapping,Bool.false_eq_true,if_false]
  rw [Run.outcome_bind]
  rfl

theorem load_contained {path : Path} : Contained Report.OfConfiguration
      ((ofValue (.map entries)).mapError (blamed path) >>= fun s => s.override environment) ↔ Convertible entries := by
  rw [← ofValue_map_contained_iff]
  cases made : ofValue (.map entries) with
  | error failure => exact contained_error.trans (told_blamed.trans contained_error.symm)
  | ok s =>
    obtain ⟨root,helpers,references,indent,rfl⟩ := convert_ok (ofValue_map_ok made).1
    exact ⟨fun _ => contained_ok _,fun _ => override_contained root helpers references indent environment⟩

-- A mapping gives settings that are accepted, or a report about a setting, exactly if it is convertible; and so does a
-- file that holds it.
theorem mapping_contained_iff (entries : List (Value × Value)) :
    ((∀ s, ofValue (.map entries) = .ok s → ∃ target, s.validate = .ok target) ∧
      (Contained Report.OfConfiguration (ofValue (.map entries)) ↔ Convertible entries)) ∧
    ∀ folder environment file data, Document.read folder (pathOf folder file) = .ok data →
      data.opened = .map entries →
      (∀ s, (load folder environment file).outcome = .ok s → ∃ target, s.validate = .ok target) ∧
      (Contained Report.OfConfiguration (load folder environment file).outcome ↔ Convertible entries) := by
  refine ⟨⟨fun s made => (ofValue_map_ok made).2,ofValue_map_contained_iff⟩,?_⟩
  intro folder environment file data read mapping
  rw [load_read read,ofDocument_map _ mapping]
  refine ⟨?_,load_contained⟩
  intro t loaded
  obtain ⟨s,made,overridden⟩ := bind_ok_iff.mp loaded
  cases own : ofValue (.map entries) with
  | error failure =>
    rw [own] at made
    cases made
  | ok u =>
    rw [own] at made
    obtain rfl := Except.ok.inj made
    obtain ⟨target,accepted⟩ := (ofValue_map_ok own).2
    exact override_ok accepted overridden

def holding (entries : List (Value × Value)) : Folder :=
  ⟨"/work/",[(["r4mvc.json"],.file (Text.encodeUtf8 (Json.document (.map entries))))]⟩

theorem read_holding (written : Json.Written Json.depthLimit (.map entries)) :
    Document.read (holding entries) (pathOf (holding entries) none) = .ok (.map entries) := by
  have path : pathOf (holding entries) none = ⟨"/work/",["r4mvc.json"]⟩ := rfl
  rw [path]
  have located : (holding entries).locate ⟨"/work/",["r4mvc.json"]⟩ = .ok ["r4mvc.json"] :=
    Folder.locate_name (.inr rfl) rfl (by decide) (by decide) (by decide) (by decide)
  have found : (holding entries).read ⟨"/work/",["r4mvc.json"]⟩ = .ok (Text.encodeUtf8 (Json.document (.map entries))) := by
    rw [Folder.read,located]
    rfl
  have json : (Path.mk "/work/" ["r4mvc.json"]).isYaml = false := by
    rw [Bool.eq_false_iff,ne_eq,Path.isYaml_iff]
    decide
  exact Document.read_document json found written

def truth : List (Value × Value) := [(.str "indent_size",.bool true)]

def truthFolder : Folder := ⟨"/work/",[(["r4mvc.json"],.file (Text.encodeUtf8 (Json.document (.map truth))))]⟩

theorem read_truth : Document.read truthFolder (pathOf truthFolder none) = .ok (.map truth) :=
  read_holding (.map _ [("indent_size",.bool true)] (by decide) (by simp [Json.Written.bool]))

theorem mapping_contained_truth :
    Document.read truthFolder (pathOf truthFolder none) = .ok (.map truth) ∧ Convertible truth ∧
    Contained Report.OfConfiguration (load truthFolder "" none).outcome := by
  have known : ∀ key, Value.lookup (.str key) truth = if "indent_size" = key then some (.bool true) else none :=
    fun key => Value.lookup_cons_str "indent_size" key _ []
  have convertible : Convertible truth := by
    constructor
    · simp [known]
    · simp [known]
    · simp [known]
    · intro v found
      obtain rfl : .bool true = v := by simpa [known] using found
      exact ⟨by simp,.inr rfl⟩
  exact ⟨read_truth,convertible,
    ((mapping_contained_iff truth).2 truthFolder "" none _ read_truth rfl).2.mpr convertible⟩

-- An infinite indentation, and a number for the references.
theorem mapping_escapes :
    ¬ Contained Report.OfConfiguration (ofValue (.map [(.str "indent_size",.float (.infinite false))])) ∧
    ¬ Contained Report.OfConfiguration (ofValue (.map [(.str "referenced_namespaces",.int 5)])) :=
  by
  have infinite : ofValue (.map [(.str "indent_size",.float (.infinite false))]) = .error (.misuse .infinite) := rfl
  have uniterable : ofValue (.map [(.str "referenced_namespaces",.int 5)]) = .error (.misuse .notIterable) := rfl
  exact ⟨not_contained infinite rfl,not_contained uniterable rfl⟩

end Settings
end TypedMvc
