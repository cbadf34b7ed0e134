import TypedMvc.Proofs.Metadata
import TypedMvc.Proofs.Separated

namespace TypedMvc

namespace Record

variable {folder : Folder} {file : String} {data : Value} {records : List Value}

-- The report is about the metadata, and it names a file: as its source, and among its details.
def Blames (source : String) (outcome : Except Failure α) : Prop :=
  ∃ failure report, outcome = .error failure ∧ failure.report = some report ∧ report.OfRecords ∧
    ("source",.str source) ∈ report.attributes ∧ (.str "source",.str source) ∈ report.details

def listing (data : Value) : Folder := ⟨"/work/",[(["c.json"],.file (Text.encodeUtf8 (Json.document data)))]⟩

theorem json_plain : (Path.ofText "c.json").isYaml = false := by
  rw [Bool.eq_false_iff,ne_eq,Path.isYaml_iff]
  decide

theorem read_listing (written : Json.Written Json.depthLimit data) :
    Document.read (listing data) (.ofText "c.json") = .ok data :=
  Document.read_document json_plain rfl written

def home : Value := .map [(.str "name",.str "Home"),(.str "area",.bool false)]

def opening (count : Nat) : Folder :=
  ⟨"/work/",[(["c.json"],.file (Text.encodeUtf8 (String.ofList (List.replicate count '['))))]⟩

end Record
end TypedMvc
