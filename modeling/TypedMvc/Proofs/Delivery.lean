import TypedMvc.Proofs.MetadataFile

namespace TypedMvc

namespace Journal

-- The two words that name other things than levels.
def Misnamed (word : String) : Prop := Text.capitals word = "BASIC_FORMAT" ∨ Text.capitals word = "_STYLES"

theorem threshold_misnamed {word : String} (misnamed : Misnamed word) :
    ∃ failure, threshold word = .error failure ∧ failure.report = none := by
  unfold threshold
  dsimp only
  obtain layout | styles := misnamed
  · rw [layout]
    exact ⟨_,rfl,rfl⟩
  · rw [styles]
    exact ⟨_,rfl,rfl⟩

theorem threshold_ok {word : String} (level : ¬ Misnamed word) : ∃ t, threshold word = .ok t := by
  rw [Misnamed,not_or] at level
  unfold threshold
  dsimp only
  cases thresholdOf? (Text.capitals word) with
  | some t => exact ⟨t,rfl⟩
  | none =>
    dsimp only
    rw [if_neg level.1,if_neg level.2]
    exact ⟨_,rfl⟩

end Journal

namespace Folder

variable {folder : Folder} {path : Path}

def Creatable (folder : Folder) (path : Path) : Prop :=
  ∃ made, folder.makeDirectory path.parent = .ok made ∧ made.Writable path

-- One file is replaced or new. Directories may be new, but none is gone, and no other file is touched.
structure Replaced (before after : Folder) (path : Path) (content : List UInt8) : Prop where
  file : ∃ place, after.locate path = .ok place ∧
    ∀ other, after.file? other = if other = place then some content else before.file? other
  directories : ∀ other, before.at? other = some .directory → after.at? other = some .directory

theorem Creatable.replaced (creatable : folder.Creatable path) (content : List UInt8) :
    ∃ made after, folder.makeDirectory path.parent = .ok made ∧ made.write path content = .ok after ∧
      Replaced folder after path content := by
  obtain ⟨made,above,writable⟩ := creatable
  obtain ⟨place,located,free⟩ := writable
  obtain ⟨after,written⟩ := write_writable ⟨place,located,free⟩ content
  have grown := makeDirectory_grown above
  have placed := at?_write located written
  refine ⟨made,after,above,written,⟨place,?_,?_⟩,?_⟩
  · obtain ⟨own,there,_,rfl⟩ := write_ok_iff.mp written
    rw [located] at there
    obtain rfl := Except.ok.inj there
    obtain ⟨reached,kept⟩ := locate_ok located
    exact kept reached free _
  · intro other
    rw [← grown.file? other,file?,placed,file?]
    by_cases same : other = place
    · rw [if_pos same,if_pos same]
    · rw [if_neg same,if_neg same]
  · intro other directory
    have still : made.at? other = some .directory := by rw [grown.kept other (by simp [directory]),directory]
    have apart : other ≠ place := by
      rintro rfl
      exact free still
    rw [placed,if_neg apart,still]

end Folder

namespace Tool

variable {s : Surroundings} {choice : CommandLine.Choice} {text file : String} {failure : Failure} {report : Report}

theorem produce_printed (source : (sourceOf s choice).outcome = .ok text) (printed : outputFile choice = none) :
    (produce s choice).outcome = .ok (text,s.folder) := by
  rw [produce,Run.outcome_bind,source]
  simp only [printed]
  rfl

theorem writeSource_outcome {made after : Folder} (above : s.folder.makeDirectory (Path.ofText file).parent = .ok made)
    (written : made.write (Path.ofText file) (Text.encodeUtf8 text) = .ok after) :
    (writeSource s.folder file text).outcome = .ok after := by
  delta writeSource
  dsimp only
  rw [above]
  dsimp only
  rw [written]
  rfl

theorem produce_written {after : Folder} (source : (sourceOf s choice).outcome = .ok text) (asked : outputFile choice = some file)
    (written : (writeSource s.folder file text).outcome = .ok after) : (produce s choice).outcome = .ok ("",after) := by
  rw [produce,Run.outcome_bind,source]
  simp only [asked,Run.outcome_bind]
  exact bind_ok_iff.mpr ⟨text,rfl,bind_ok_iff.mpr ⟨after,written,rfl⟩⟩

theorem produce_failed (failed : (sourceOf s choice).outcome = .error failure) : (produce s choice).outcome = .error failure := by
  rw [produce,Run.outcome_bind,failed]
  rfl

def journalWord (choice : CommandLine.Choice) : String := (choice.logLevel.filter (· != "")).getD defaultWord

theorem thresholdOf_eq (choice : CommandLine.Choice) : thresholdOf choice = Journal.threshold (journalWord choice) := rfl

-- Either mode delivers the source and nothing else, and a failure that is told of delivers nothing.
structure Delivers (s : Surroundings) (choice : CommandLine.Choice) (result : Except Failure Outcome) : Prop where
  printed : ∀ text, (sourceOf s choice).outcome = .ok text → outputFile choice = none →
    ∃ notices, result = .ok ⟨.finished 0,text,notices,s.folder⟩
  written : ∀ text file, (sourceOf s choice).outcome = .ok text → outputFile choice = some file →
    s.folder.Creatable (.ofText file) → ∃ notices after, result = .ok ⟨.finished 0,"",notices,after⟩ ∧
      s.folder.Replaced after (.ofText file) (Text.encodeUtf8 text)
  reported : ∀ failure report, (sourceOf s choice).outcome = .error failure → failure.report = some report →
    report.hasLongNumber = false →
      ∃ notices, result = .ok ⟨.finished 1,"",notices ++ ("Error: " ++ report.text ++ "\n"),s.folder⟩

def shownNotices (threshold : Journal.Threshold) (s : Surroundings) (choice : CommandLine.Choice) : String :=
  Journal.shown threshold s.time ((produce s choice).notices.map Journal.lineOf)

theorem execute_ok {threshold : Journal.Threshold} {stdout : String} {after : Folder}
    (leveled : thresholdOf choice = .ok threshold) (produced : (produce s choice).outcome = .ok (stdout,after)) :
    execute s choice = .ok ⟨.finished 0,stdout,shownNotices threshold s choice,after⟩ := by
  rw [execute,leveled]
  simp only [bind,Except.bind,produced]
  rfl

theorem execute_reported {threshold : Journal.Threshold} (leveled : thresholdOf choice = .ok threshold)
    (failed : (produce s choice).outcome = .error failure) (told : failure.report = some report)
    (short : report.hasLongNumber = false) :
    execute s choice = .ok ⟨.finished 1,"",shownNotices threshold s choice ++ errorLine report,s.folder⟩ := by
  rw [execute,leveled]
  simp only [bind,Except.bind,failed,told,short,Bool.false_eq_true,if_false]
  rfl

theorem execute_misnamed (misnamed : Journal.Misnamed (journalWord choice)) :
    ∃ failure, execute s choice = .error failure ∧ failure.report = none := by
  obtain ⟨failure,refused,unreported⟩ := Journal.threshold_misnamed misnamed
  refine ⟨failure,?_,unreported⟩
  rw [execute,thresholdOf_eq,refused]
  rfl

theorem execute_delivers {threshold : Journal.Threshold} (leveled : thresholdOf choice = .ok threshold) :
    Delivers s choice (execute s choice) := by
  refine ⟨?_,?_,?_⟩
  · intro text source printed
    exact ⟨_,execute_ok leveled (produce_printed source printed)⟩
  · intro text file source asked creatable
    obtain ⟨made,after,above,written,replaced⟩ := creatable.replaced (Text.encodeUtf8 text)
    exact ⟨_,after,execute_ok leveled (produce_written source asked (writeSource_outcome above written)),replaced⟩
  · intro failure report failed told short
    exact ⟨_,execute_reported leveled (produce_failed failed) told short⟩

theorem execute_unshown (failed : (sourceOf s choice).outcome = .error failure) (told : failure.report = some report)
    (long : report.hasLongNumber = true) : ∃ cause, execute s choice = .error cause ∧ cause.report = none := by
  by_cases misnamed : Journal.Misnamed (journalWord choice)
  · exact execute_misnamed misnamed
  · obtain ⟨threshold,leveled⟩ := Journal.threshold_ok misnamed
    refine ⟨.longNumber,?_,rfl⟩
    rw [execute,thresholdOf_eq,leveled]
    simp only [bind,Except.bind,produce_failed failed,told,long,if_true]

theorem run_chosen {arguments : List String} (chosen : CommandLine.read arguments = .chosen choice) :
    run s arguments = execute s choice := by
  rw [run,chosen]

-- What was chosen is delivered unless the word for the journal is misnamed, and then nothing comes of it. A report that
-- cannot be shown ends the run as well.
theorem run_delivers {arguments : List String} (chosen : CommandLine.read arguments = .chosen choice) :
    (¬ Journal.Misnamed (journalWord choice) → Delivers s choice (run s arguments)) ∧
    (Journal.Misnamed (journalWord choice) → ∃ cause, run s arguments = .error cause ∧ cause.report = none) ∧
    ∀ failure report, (sourceOf s choice).outcome = .error failure → failure.report = some report →
      report.hasLongNumber = true → ∃ cause, run s arguments = .error cause ∧ cause.report = none := by
  rw [run_chosen chosen]
  refine ⟨?_,execute_misnamed,?_⟩
  · intro level
    obtain ⟨threshold,leveled⟩ := Journal.threshold_ok level
    exact execute_delivers leveled
  · intro failure report failed told long
    exact execute_unshown failed told long

def noRecords : Surroundings := ⟨⟨"/work/",[(["c.json"],.file (Text.encodeUtf8 (Json.document (.list []))))]⟩,"","now"⟩

theorem sourceOf_noRecords (choice : CommandLine.Choice) (asked : choice.controllers = some "c.json")
    (other : choice.config = none) :
    ∃ text, (sourceOf noRecords choice).outcome = .ok text := by
  have loaded : (Settings.load noRecords.folder noRecords.namespaceOverride choice.config).outcome = .ok .default := by
    rw [other]
    rfl
  have parsed : Document.read noRecords.folder (.ofText "c.json") = .ok (.list []) :=
    Record.read_listing (.list _ [] fun _ none => absurd none List.not_mem_nil)
  have generated : (Generation.generate ⟨"R4Mvc","MVC"⟩ []).outcome = .ok (Generation.plan ⟨"R4Mvc","MVC"⟩ []) :=
    Generation.generate_of_distinguished _ (by decide) (by decide) (fun _ none => absurd none List.not_mem_nil)
      (by constructor <;> simp) (by simp [Generation.PlaceholdersDiffer])
  have laid : CSharp.Layout.ofSettings .default = .ok (.ofWidth 4 Settings.defaultReferences) := rfl
  obtain ⟨text,printed⟩ := Generation.printFile_generated (by decide) (fun _ none => absurd none List.not_mem_nil) generated
    (.ofWidth 4 Settings.defaultReferences)
  refine ⟨text,?_⟩
  have made : (Record.source ⟨"R4Mvc","MVC"⟩ (CSharp.Layout.ofSettings .default) []).outcome = .ok text := by
    rw [Record.source_made (fun _ none => absurd none List.not_mem_nil),Generation.source_outcome,laid]
    exact bind_ok_iff.mpr ⟨_,generated,printed⟩
  rw [sourceOf_parsed loaded Settings.default_accepted asked parsed]
  exact made

def toOutput : List String := ["-c","c.json","-o","out/G.cs"]

def toOutputChoice : CommandLine.Choice := ⟨true,some "c.json",none,some "out/G.cs",none⟩

theorem run_delivers_toOutput : CommandLine.read toOutput = .chosen toOutputChoice ∧
    ∃ text notices after, (sourceOf noRecords toOutputChoice).outcome = .ok text ∧
      run noRecords toOutput = .ok ⟨.finished 0,"",notices,after⟩ ∧
      noRecords.folder.Replaced after (.ofText "out/G.cs") (Text.encodeUtf8 text) := by
  have chosen : CommandLine.read toOutput = .chosen toOutputChoice := rfl
  have level : ¬ Journal.Misnamed (journalWord toOutputChoice) := by
    unfold Journal.Misnamed
    decide
  have creatable : noRecords.folder.Creatable (.ofText "out/G.cs") :=
    ⟨noRecords.folder.put ["out"] .directory,rfl,["out","G.cs"],rfl,by decide⟩
  obtain ⟨text,source⟩ := sourceOf_noRecords toOutputChoice rfl rfl
  obtain ⟨notices,after,result,replaced⟩ := ((run_delivers chosen).1 level).written text _ source rfl creatable
  exact ⟨chosen,text,notices,after,source,result,replaced⟩

def misnamedLevel : List String := ["-c","c.json","--log-level","BASIC_FORMAT"]

def misnamedChoice : CommandLine.Choice := ⟨true,some "c.json",none,none,some "BASIC_FORMAT"⟩

-- With the name of a layout for a level there is a source, and it is not delivered.
theorem run_fails_to_deliver : CommandLine.read misnamedLevel = .chosen misnamedChoice ∧
    (∃ text, (sourceOf noRecords misnamedChoice).outcome = .ok text) ∧
    ¬ Delivers noRecords misnamedChoice (run noRecords misnamedLevel) := by
  have chosen : CommandLine.read misnamedLevel = .chosen misnamedChoice := rfl
  have misnamed : Journal.Misnamed (journalWord misnamedChoice) := .inl rfl
  obtain ⟨text,source⟩ := sourceOf_noRecords misnamedChoice rfl rfl
  refine ⟨chosen,⟨text,source⟩,?_⟩
  intro delivers
  obtain ⟨notices,result⟩ := delivers.printed text source rfl
  obtain ⟨failure,failed,_⟩ := execute_misnamed (s := noRecords) misnamed
  rw [run_chosen chosen,failed] at result
  cases result

end Tool
end TypedMvc
