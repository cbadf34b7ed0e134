import TypedMvc.Proofs.Loading
import TypedMvc.Proofs.Spelling
import TypedMvc.Tool

namespace TypedMvc

open CSharp Synthesis

def Report.OfMetadata : Report → Prop
  | .metadata .. | .duplicateClass .. | .duplicateMember .. => True
  | _ => False

-- The metadata are no list of records with names, whatever classes would follow from them.
def Report.OfRecords : Report → Prop
  | .metadata .. => True
  | _ => False

theorem Report.OfRecords.ofMetadata {report : Report} (invalid : report.OfRecords) : report.OfMetadata := by
  cases report with
  | metadata message field area ns source => trivial
  | _ => cases invalid

namespace Record

def Named (record : Value) : Prop := (record.opened.field "name").truthy = true

def Shown (record : Value) : Prop :=
  (record.opened.field "name").hasLongNumber = false ∧ (record.opened.field "namespace").hasLongNumber = false

-- The area is a text, or it does not count as present.
def Situated (record : Value) : Prop :=
  (record.opened.field "area").truthy = true → (record.opened.field "area").IsText

def made (record : Value) : Controller :=
  .make (.str (record.opened.field "name").text) ((record.opened.field "namespace").orElse .null)
    ((record.opened.field "area").orElse (.str "")) .null

variable {record : Value} {records : List Value}

theorem controller_named (named : Named record) : controller record =
    if (record.opened.field "name").hasLongNumber || (record.opened.field "namespace").hasLongNumber then
      .error .longNumber
    else .ok (made record) := by
  unfold Named at named
  unfold controller made
  cases opened : record.opened with
  | map entries =>
    rw [opened] at named
    have field : ∀ name, (Value.map entries).field name = (Value.lookup (.str name) entries).getD .null := fun _ => rfl
    have shown : (((Value.map entries).field "namespace").orElse .null).hasLongNumber =
        ((Value.map entries).field "namespace").hasLongNumber := by
      unfold Value.orElse
      split
      · rfl
      · rename_i absent
        exact (Value.hasLongNumber_absent (by simpa using absent)).symm
    simp only [← field,if_pos named,Value.shown,shown]
    cases ((Value.map entries).field "name").hasLongNumber with
    | true => rfl
    | false => cases ((Value.map entries).field "namespace").hasLongNumber <;> rfl
  | _ => simp [opened,Value.field,Value.field?] at named

theorem controller_ok (named : Named record) (shown : Shown record) : controller record = .ok (made record) := by
  rw [controller_named named,shown.1,shown.2]
  rfl

theorem controller_unshown (named : Named record) (unshown : ¬ Shown record) :
    controller record = .error .longNumber := by
  rw [controller_named named,if_pos]
  by_contra short
  simp only [Bool.or_eq_true,not_or,Bool.not_eq_true] at short
  exact unshown short

theorem controller_unnamed (unnamed : ¬ Named record) :
    ∃ failure, controller record = .error failure ∧ Told Report.OfRecords failure := by
  unfold Named at unnamed
  unfold controller
  cases opened : record.opened with
  | map entries =>
    rw [opened] at unnamed
    have field : ∀ name, (Value.map entries).field name = (Value.lookup (.str name) entries).getD .null := fun _ => rfl
    simp only [← field,if_neg unnamed]
    exact ⟨_,rfl,_,rfl,trivial⟩
  | _ => exact ⟨_,rfl,_,rfl,trivial⟩

theorem made_name (named : Named record) : ∃ s, s ≠ "" ∧ (made record).name = .str s :=
  ⟨_,Value.text_ne_empty named,rfl⟩

theorem made_area (record : Value) : (made record).area = (record.opened.field "area").orElse (.str "") := by
  have given : ((record.opened.field "area").orElse (.str "")).isNull = false := by
    unfold Value.orElse
    split
    · rename_i present
      cases shown : record.opened.field "area" <;> simp [shown,Value.isNull] at present ⊢
    · rfl
  rw [made,Controller.make,given]
  rfl

theorem made_placed (named : Named record) : (made record).Placed where
  name := made_name named
  area := by
    rw [made_area]
    unfold Value.orElse
    split
    · rename_i present
      exact .inl present
    · exact .inr rfl

theorem made_area_text : (made record).area.IsText ↔ Situated record := by
  rw [made_area]
  unfold Situated Value.orElse
  split
  · rename_i present
    exact ⟨fun text _ => text,fun situated => situated present⟩
  · rename_i absent
    exact ⟨fun _ present => absurd present absent,fun _ => ⟨"",rfl⟩⟩

theorem made_spellable (named : Named record) (situated : Situated record) : (made record).Spellable := by
  have name : (Value.str (record.opened.field "name").text).truthy = true := by
    simpa using Value.text_ne_empty named
  refine ⟨made_name named,made_area_text.mpr situated,?_,?_⟩
  · cases backed : (record.opened.field "namespace").truthy with
    | false => exact .inl (by simp [made,Controller.make,Value.orElse,backed])
    | true => exact .inr (by simp [made,Controller.make,Value.orElse,backed,name,Value.isNull,Controller.className])
  · unfold made Controller.make
    dsimp only
    split
    · exact .inr ⟨_,rfl⟩
    · exact .inl rfl

-- The first record that gives no controller has no name, which is reported.
def Refused (records : List Value) : Prop :=
  ∃ before record after, records = before ++ record :: after ∧ (∀ r ∈ before, Named r ∧ Shown r) ∧ ¬ Named record

theorem mapM_first {f : α → Except Failure β} {g : α → β} {before : List α} (each : ∀ a ∈ before, f a = .ok (g a))
    {a : α} {failure : Failure} (failed : f a = .error failure) (after : List α) :
    (before ++ a :: after).mapM f = .error failure := by
  rw [List.mapM_append,mapM_ok each,List.mapM_cons,failed]
  rfl

theorem mapM_made (each : ∀ r ∈ records, Named r ∧ Shown r) : records.mapM controller = .ok (records.map made) :=
  mapM_ok fun r member => controller_ok (each r member).1 (each r member).2

theorem first_failing {P : Value → Prop} (records : List Value) : (∀ r ∈ records, P r) ∨
    ∃ before r after, records = before ++ r :: after ∧ (∀ b ∈ before, P b) ∧ ¬ P r := by
  induction records with
  | nil => exact .inl (by simp)
  | cons r rest ih =>
    by_cases holds : P r
    · rcases ih with all | ⟨before,s,after,rfl,each,fails⟩
      · exact .inl (by simpa using ⟨holds,all⟩)
      · exact .inr ⟨r :: before,s,after,rfl,by simpa using ⟨holds,each⟩,fails⟩
    · exact .inr ⟨[],r,rest,rfl,by simp,holds⟩

theorem mapM_refused (refused : Refused records) :
    ∃ failure, records.mapM controller = .error failure ∧ Told Report.OfRecords failure := by
  obtain ⟨before,r,after,rfl,each,unnamed⟩ := refused
  obtain ⟨failure,failed,told⟩ := controller_unnamed unnamed
  exact ⟨failure,mapM_first (fun b member => controller_ok (each b member).1 (each b member).2) failed after,told⟩

theorem mapM_unrefused (unrefused : ¬ Refused records) :
    (∀ r ∈ records, Named r ∧ Shown r) ∨ records.mapM controller = .error .longNumber := by
  rcases first_failing (P := fun r => Named r ∧ Shown r) records with all | ⟨before,r,after,rfl,each,fails⟩
  · exact .inl all
  · have named : Named r := by
      by_contra unnamed
      exact unrefused ⟨before,r,after,rfl,each,unnamed⟩
    have unshown : ¬ Shown r := fun shown => fails ⟨named,shown⟩
    exact .inr (mapM_first (fun b member => controller_ok (each b member).1 (each b member).2)
      (controller_unshown named unshown) after)

end Record

def Settings.Spaced (s : Settings) : Prop :=
  (∃ i, s.indentSize = .int i ∧ i < Layout.countLimit) ∨ ∃ b, s.indentSize = .bool b

theorem Settings.spaced_iff {s : Settings} {target : Target} (accepted : s.validate = .ok target) :
    s.Spaced ↔ ∃ layout, Layout.ofSettings s = .ok layout := by
  have indent := (Settings.validate_ok accepted).2.2.2
  unfold Settings.Spaced
  rw [Layout.ofSettings,Layout.marginOf]
  cases shown : s.indentSize with
  | int i =>
    have natural : 0 ≤ i := by
      by_contra negative
      rw [shown,Settings.checkIndent,if_pos (not_le.mp negative)] at indent
      cases indent
    have least : -Layout.countLimit ≤ i := le_trans (by decide) natural
    by_cases small : i < Layout.countLimit
    · simp [Layout.repetitions,least,small,Except.map]
    · simp [Layout.repetitions,small,Except.map]
  | bool b => simp [Layout.repetitions,Except.map]
  | _ => simp [Layout.repetitions,Except.map]

theorem Layout.ofSettings_unreported {s : Settings} {failure : Failure}
    (failed : Layout.ofSettings s = .error failure) : failure.report = none := by
  rw [Layout.ofSettings,Layout.marginOf] at failed
  cases repeated : Layout.repetitions s.indentSize with
  | ok width => simp [repeated,Except.map] at failed
  | error cause =>
    rw [repeated] at failed
    obtain rfl := Except.error.inj failed
    unfold Layout.repetitions at repeated
    split at repeated
    · split at repeated
      · cases repeated
      · obtain rfl := Except.error.inj repeated
        rfl
    · cases repeated
    · obtain rfl := Except.error.inj repeated
      rfl

namespace Record

def source (target : Target) (layout : Except Failure Layout) (records : List Value) : Run String := do
  let controllers ← Run.settled (records.mapM controller)
  Generation.source target layout controllers

structure Usable (record : Value) : Prop where
  named : Named record
  shown : Shown record
  situated : Situated record

-- Either a record is refused, or all of them are usable and the source can be printed if there is one.
def Handled (s : Settings) (target : Target) (records : List Value) : Prop :=
  Refused records ∨ (∀ r ∈ records, Usable r) ∧
    (s.Spaced ∨ ∀ classes, (Generation.generate target (records.map made)).outcome ≠ .ok classes)

variable {s : Settings} {target : Target} {records : List Value}

theorem source_made (named : ∀ r ∈ records, Named r ∧ Shown r) (layout : Except Failure Layout) :
    (source target layout records).outcome = (Generation.source target layout (records.map made)).outcome := by
  rw [source,mapM_made named]
  rfl

theorem generate_usable (accepted : s.validate = .ok target) (usable : ∀ r ∈ records, Usable r) :
    Contained Report.OfMetadata (Generation.generate target (records.map made)).outcome ∧
    ∀ classes, (Generation.generate target (records.map made)).outcome = .ok classes →
      ∀ layout, ∃ text, printFile layout classes = .ok text := by
  have spellable : ∀ c ∈ records.map made, c.Spellable := by
    intro c member
    obtain ⟨r,among,rfl⟩ := List.mem_map.mp member
    exact made_spellable (usable r among).named (usable r among).situated
  have texts := Generation.spelled_textual spellable
  rw [← Generation.generate_spelled target spellable]
  refine ⟨?_,?_⟩
  · intro failure failed
    obtain ⟨_,kinds,_⟩ := Generation.generate_accepts_iff accepted texts
    rcases kinds failure failed with ⟨_,_,rfl⟩ | ⟨_,_,_,rfl⟩ | ⟨_,_,rfl⟩ <;> exact ⟨_,rfl,trivial⟩
  · intro classes succeeded layout
    exact Generation.printFile_generated (Settings.helpers_ne_empty accepted) texts succeeded layout

theorem source_contained_iff (accepted : s.validate = .ok target) (records : List Value) :
    Contained Report.OfMetadata (source target (Layout.ofSettings s) records).outcome ↔ Handled s target records := by
  constructor
  · intro contained
    by_cases refused : Refused records
    · exact .inl refused
    rcases mapM_unrefused refused with named | long
    · rw [source_made named,Generation.source_outcome] at contained
      have usable : ∀ r ∈ records, Usable r := by
        intro r member
        refine ⟨(named r member).1,(named r member).2,?_⟩
        -- an area that is no text ends the run, and nothing tells of it
        by_contra misfit
        have placed : ∀ c ∈ records.map made, c.Placed := by
          intro c among
          obtain ⟨q,inside,rfl⟩ := List.mem_map.mp among
          exact made_placed (named q inside).1
        obtain ⟨failure,failed,unreported⟩ := Generation.generate_misfit target placed
          (List.mem_map_of_mem member) (mt made_area_text.mp misfit)
        rw [failed] at contained
        exact not_contained rfl unreported contained
      refine .inr ⟨usable,?_⟩
      by_cases spaced : s.Spaced
      · exact .inl spaced
      · refine .inr fun classes succeeded => ?_
        cases printed : Layout.ofSettings s with
        | ok layout => exact spaced ((Settings.spaced_iff accepted).mpr ⟨layout,printed⟩)
        | error failure =>
          rw [succeeded,printed] at contained
          exact not_contained rfl (Layout.ofSettings_unreported printed) contained
    · have failed : (source target (Layout.ofSettings s) records).outcome = .error .longNumber := by
        rw [source,long]
        rfl
      exact absurd contained (not_contained failed rfl)
  · rintro (refused | ⟨usable,fine⟩)
    · obtain ⟨failure,failed,report,reported,invalid⟩ := mapM_refused refused
      rw [source,failed]
      exact contained_error.mpr ⟨report,reported,invalid.ofMetadata⟩
    · rw [source_made fun r member => ⟨(usable r member).named,(usable r member).shown⟩,Generation.source_outcome]
      obtain ⟨contained,printable⟩ := generate_usable accepted usable
      cases outcome : (Generation.generate target (records.map made)).outcome with
      | error failure => exact contained_error.mpr (contained failure outcome)
      | ok classes =>
        obtain ⟨layout,printed⟩ := (Settings.spaced_iff accepted).mp (fine.resolve_right fun none => none classes outcome)
        obtain ⟨text,shown⟩ := printable classes outcome layout
        rw [printed]
        simp only [bind,Except.bind,shown]
        exact contained_ok text

end Record

namespace Record

variable {folder : Folder} {file : String} {data : Value} {records : List Value}

theorem load_listed (read : Document.read folder (.ofText file) = .ok data) (listed : listOf? data = some records) :
    (load folder file).outcome = records.mapM controller := by
  delta load
  dsimp only
  rw [read]
  dsimp only
  rw [listed]
  cases made : records.mapM controller <;> simp [Run.settled_ok_bind,Run.settled_error_bind,made]

theorem load_misshapen (read : Document.read folder (.ofText file) = .ok data) (unlisted : listOf? data = none) :
    (load folder file).outcome = .error (.metadataShape (Path.ofText file).text) := by
  delta load
  dsimp only
  rw [read]
  dsimp only
  rw [unlisted]
  rfl

end Record

namespace Tool

variable {s : Settings} {target : Target}

theorem sourceOf_parsed {surroundings : Surroundings} {choice : CommandLine.Choice} {file : String} {data : Value}
    (loaded : (Settings.load surroundings.folder surroundings.namespaceOverride choice.config).outcome = .ok s)
    (accepted : s.validate = .ok target) (chosen : choice.controllers = some file)
    (parsed : Document.read surroundings.folder (Path.ofText file) = .ok data) :
    (sourceOf surroundings choice).outcome =
      match Record.listOf? data with
      | none => .error (.metadataShape (Path.ofText file).text)
      | some records => (Record.source target (Layout.ofSettings s) records).outcome := by
  have controllers : (loadControllers surroundings.folder choice.controllers).outcome =
      match Record.listOf? data with
      | none => .error (.metadataShape (Path.ofText file).text)
      | some records => records.mapM Record.controller := by
    rw [chosen,loadControllers]
    cases listed : Record.listOf? data with
    | none => exact Record.load_misshapen parsed listed
    | some records => exact Record.load_listed parsed listed
  rw [sourceOf,Run.outcome_bind,loaded]
  show (loadControllers surroundings.folder choice.controllers >>= _).outcome = _
  rw [Run.outcome_bind,controllers]
  cases Record.listOf? data with
  | none => rfl
  | some records =>
    dsimp only
    rw [Record.source,Run.outcome_bind,Run.settled_outcome,accepted]
    rfl

-- Whatever the metadata are, a source or a report about them comes out exactly as long as the records are handled. With
-- metadata from a file that is parsed the tool gets no further.
theorem metadata_contained_iff (accepted : s.validate = .ok target) :
    (∀ records, Contained Report.OfMetadata (Record.source target (Layout.ofSettings s) records).outcome ↔
      Record.Handled s target records) ∧
    ∀ surroundings choice file data,
      (Settings.load surroundings.folder surroundings.namespaceOverride choice.config).outcome = .ok s →
      choice.controllers = some file → Document.read surroundings.folder (Path.ofText file) = .ok data →
      (Contained Report.OfMetadata (sourceOf surroundings choice).outcome ↔
        ∀ records, Record.listOf? data = some records → Record.Handled s target records) := by
  refine ⟨Record.source_contained_iff accepted,?_⟩
  intro surroundings choice file data loaded chosen parsed
  rw [sourceOf_parsed loaded accepted chosen parsed]
  cases Record.listOf? data with
  | none =>
    have told : Told Report.OfMetadata (.metadataShape (Path.ofText file).text) := ⟨_,rfl,trivial⟩
    simpa using contained_error.mpr told
  | some records => simpa using Record.source_contained_iff accepted records

-- A truth value for a name, a list for a namespace, and an area that does not count as present.
def oddities : List Value :=
  [.map [(.str "name",.bool true),(.str "namespace",.list [.bool true]),(.str "area",.bool false)]]

theorem metadata_contained_oddities :
    Settings.default.validate = .ok ⟨"R4Mvc","MVC"⟩ ∧ Record.Handled .default ⟨"R4Mvc","MVC"⟩ oddities ∧
    Contained Report.OfMetadata (Record.source ⟨"R4Mvc","MVC"⟩ (Layout.ofSettings .default) oddities).outcome := by
  have handled : Record.Handled .default ⟨"R4Mvc","MVC"⟩ oddities := by
    refine .inr ⟨?_,.inl (.inl ⟨4,rfl,by decide⟩)⟩
    intro r member
    rw [List.mem_singleton.mp member]
    exact ⟨rfl,⟨by decide,by decide⟩,by intro present; cases present⟩
  exact ⟨Settings.default_accepted,handled,((metadata_contained_iff Settings.default_accepted).1 oddities).mpr handled⟩

def numbered : Value := .map [(.str "name",.str "Home"),(.str "area",.int 1)]

theorem metadata_escapes :
    Settings.default.validate = .ok ⟨"R4Mvc","MVC"⟩ ∧
    ¬ Contained Report.OfMetadata (Record.source ⟨"R4Mvc","MVC"⟩ (Layout.ofSettings .default) [numbered]).outcome := by
  refine ⟨Settings.default_accepted,?_⟩
  rw [Record.source_contained_iff Settings.default_accepted]
  rintro (⟨before,r,after,split,_,unnamed⟩ | ⟨usable,_⟩)
  · have member : r ∈ [numbered] := by simp [split]
    rw [List.mem_singleton.mp member] at unnamed
    exact unnamed rfl
  · obtain ⟨s,text⟩ := (usable numbered List.mem_cons_self).situated rfl
    cases text

end Tool
end TypedMvc
