import TypedMvc.Proofs.Delivery

namespace TypedMvc

namespace Journal

variable {folder : Folder} {given environment file : Option String} {word : String} {failure : Failure}

def levelNumbers : List (String × Nat) :=
  [("DEBUG",10),("INFO",20),("WARN",30),("WARNING",30),("ERROR",40),("CRITICAL",50),("FATAL",50),("NOTSET",0)]

-- The number of the level that a word names in any case; any other word stands for information.
def levelNumber (word : String) : Nat := (levelNumbers.lookup (Text.capitals word)).getD 20

theorem thresholdOf?_eq (capital : String) : thresholdOf? capital = (levelNumbers.lookup capital).map Threshold.mk := by
  unfold thresholdOf?
  split
  · rfl
  · rfl
  · rfl
  · rfl
  · rfl
  · rfl
  · rfl
  · rfl
  · have unknown : levelNumbers.lookup capital = none := by
      rw [List.lookup_eq_none_iff]
      simpa [levelNumbers] using ⟨‹_›,‹_›,‹_›,‹_›,‹_›,‹_›,‹_›,‹_›⟩
    rw [unknown]
    rfl

theorem threshold_level (level : ¬ Misnamed word) : threshold word = .ok ⟨levelNumber word⟩ := by
  rw [Misnamed,not_or] at level
  unfold threshold levelNumber
  dsimp only
  rw [thresholdOf?_eq]
  cases levelNumbers.lookup (Text.capitals word) with
  | some number => rfl
  | none =>
    dsimp only [Option.map_none]
    rw [if_neg level.1,if_neg level.2]
    rfl

namespace Logger

def consoleAt (number : Nat) : Logger := ⟨⟨number⟩,[⟨.own .console,⟨number⟩⟩],false⟩

variable {l : Logger}

theorem setUp_refused (refused : Journal.threshold (wordOf given environment) = .error failure) :
    l.setUp folder given environment file = (.error failure,l,folder) := by
  rw [setUp,refused]

theorem foldl_detached (l : Logger) (hs : List Handler) :
    hs.foldl detached { l with handlers := hs } = { l with handlers := [] } := by
  induction hs with
  | nil => rfl
  | cons h rest ih =>
    have gone : detached { l with handlers := h :: rest } h = { l with handlers := rest } := by
      rw [detached,List.erase_cons_head]
    rw [List.foldl_cons,gone,ih]

theorem cleared_eq (l : Logger) : l.cleared = { l with handlers := [] } := foldl_detached l l.handlers

theorem setUp_console {number : Nat} (named : Journal.threshold (wordOf given environment) = .ok ⟨number⟩)
    (without : file = none ∨ file = some "") :
    l.setUp folder given environment file = (.ok (),consoleAt number,folder) := by
  rw [setUp,named]
  simp only [cleared_eq]
  obtain rfl | rfl := without
  · rfl
  · rfl

theorem thresholdOf_setUp (l : Logger) (folder : Folder) (environment : Option String)
    (without : file = none ∨ file = some "") (choice : CommandLine.Choice) :
    Tool.thresholdOf choice = (l.setUp folder (some (Tool.journalWord choice)) environment file).1.map fun _ =>
      (l.setUp folder (some (Tool.journalWord choice)) environment file).2.1.threshold := by
  have chosen : Tool.thresholdOf choice = Journal.threshold (wordOf (some (Tool.journalWord choice)) environment) := rfl
  rw [chosen]
  cases named : Journal.threshold (wordOf (some (Tool.journalWord choice)) environment) with
  | error failure =>
    rw [setUp_refused named]
    rfl
  | ok t =>
    rw [setUp_console named without]
    rfl

-- Nothing of the logger as it was counts for what it becomes, and it stays as it was where its word is refused.
theorem setUp_falls_back (l : Logger) (folder : Folder) (given environment : Option String)
    (without : file = none ∨ file = some "") :
    (¬ Misnamed (wordOf given environment) → l.setUp folder given environment file =
      (.ok (),consoleAt (levelNumber (wordOf given environment)),folder)) ∧
    (Misnamed (wordOf given environment) → ∃ failure,
      l.setUp folder given environment file = (.error failure,l,folder) ∧ failure.report = none) ∧
    ∀ choice : CommandLine.Choice,
      Tool.thresholdOf choice = (l.setUp folder (some (Tool.journalWord choice)) environment file).1.map fun _ =>
        (l.setUp folder (some (Tool.journalWord choice)) environment file).2.1.threshold := by
  refine ⟨?_,?_,thresholdOf_setUp l folder environment without⟩
  · intro level
    exact setUp_console (threshold_level level) without
  · intro misnamed
    obtain ⟨failure,refused,unreported⟩ := threshold_misnamed misnamed
    exact ⟨failure,setUp_refused refused,unreported⟩

def hosted : Logger := ⟨.ofLevel .error,[⟨.foreign "syslog",.unset⟩,⟨.foreign "mail",.ofLevel .critical⟩],true⟩

theorem setUp_falls_back_hosted : ¬ Misnamed (wordOf none (some "verbose")) ∧
    hosted.setUp ⟨"/work/",[]⟩ none (some "verbose") none = (.ok (),consoleAt 20,⟨"/work/",[]⟩) := by
  have level : ¬ Misnamed (wordOf none (some "verbose")) := by
    unfold Misnamed
    decide
  exact ⟨level,(setUp_falls_back hosted ⟨"/work/",[]⟩ none (some "verbose") (.inl rfl)).1 level⟩

-- The name of a layout is no name of a level, and yet the level of information does not stand in for it.
theorem setUp_refuses_layout : (consoleAt 20).setUp ⟨"/work/",[]⟩ (some "BASIC_FORMAT") none none =
      (.error (.unknownLevel plainLayout),consoleAt 20,⟨"/work/",[]⟩) ∧
    levelNumbers.lookup (Text.capitals "BASIC_FORMAT") = none :=
  ⟨rfl,rfl⟩

end Logger
end Journal
end TypedMvc
