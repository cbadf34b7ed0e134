import Mathlib.Data.Prod.Lex
import Mathlib.Data.String.Basic
import TypedMvc.Generation
import TypedMvc.Proofs.Uniqueness
import TypedMvc.Proofs.Writing

namespace TypedMvc

open CSharp

abbrev Key := String ×ₗ String

namespace Key

def area (key : Key) : String := (ofLex key).1

def name (key : Key) : String := (ofLex key).2

def values (key : Key) : Value × Value := (.str key.area,.str key.name)

theorem ext {k l : Key} (area : k.area = l.area) (name : k.name = l.name) : k = l :=
  ofLex.injective (Prod.ext area name)

theorem sameKey_values (k l : Key) : Synthesis.sameKey k.values l.values = decide (k = l) := by
  by_cases equal : k = l
  · subst equal
    simp [Synthesis.sameKey,values]
  · have different : ¬(k.area = l.area ∧ k.name = l.name) := fun both => equal (ext both.1 both.2)
    simpa [Synthesis.sameKey,values,equal] using different

theorem keyBefore?_values (k l : Key) : Controller.keyBefore? k.values l.values = some (decide (k < l)) := by
  have less : k < l ↔ k.area < l.area ∨ k.area = l.area ∧ k.name < l.name := Prod.Lex.lt_iff
  unfold Controller.keyBefore? values
  simp only [Value.same_str,Value.before?_str]
  by_cases sameArea : k.area = l.area
  · by_cases sameName : k.name = l.name
    · simp [less,sameArea,sameName]
    · simp [less,sameArea,sameName]
  · simp [less,sameArea]

end Key

def Controller.key (c : Controller) : Key := toLex (c.area.text,c.name.text)

@[simp] theorem Controller.key_area (c : Controller) : c.key.area = c.area.text := rfl

@[simp] theorem Controller.key_name (c : Controller) : c.key.name = c.name.text := rfl

theorem Controller.Textual.key_values {c : Controller} (texts : c.Textual) : c.key.values = (c.area,c.name) := by
  rw [texts.area_eq,texts.name_eq]
  rfl

namespace Synthesis

def placeholderOf (root : String) (key : Key) : ClassDef :=
  marked (Controller.placeholderName key.area key.name) root [.publicAccess,.partialClass]
    (.constructorOf [] [.publicAccess] none [] :: textMember "Name" key.name ::
      if key.area = "" then [] else [textMember "Area" key.area])

theorem placeholderName_ne_empty (area name : String) : Controller.placeholderName area name ≠ "" := by
  intro empty
  have shown := congrArg String.toList empty
  unfold Controller.placeholderName Controller.className at shown
  split at shown <;> simp [Controller.suffix] at shown

theorem placeholderClass_texts {c : Controller} (texts : c.Textual) (root : String) :
    placeholderClass root (Controller.placeholderName c.area.text c.name.text) c =
      .ok (placeholderOf root c.key) := by
  have given := placeholderName_ne_empty c.area.text c.name.text
  rw [placeholderClass,texts.area_truthy,texts.area_eq,texts.name_eq]
  by_cases inRoot : c.area.text = ""
  · have made := markedClass_texts [.constructorOf [] [.publicAccess] none [],textMember "Name" c.name.text] ["Name"] rfl
      given root [.publicAccess,.partialClass]
    simpa [inRoot,textField_str,bind,Except.bind,repeatedMember,firstRepeated,placeholderOf] using made
  · have made := markedClass_texts [.constructorOf [] [.publicAccess] none [],textMember "Name" c.name.text,
      textMember "Area" c.area.text] ["Name","Area"] rfl given root [.publicAccess,.partialClass]
    simpa [inRoot,textField_str,bind,Except.bind,Except.map,repeatedMember,firstRepeated,placeholderOf] using made

theorem mapM_ok {f : α → Except Failure β} {g : α → β} {l : List α} (each : ∀ a ∈ l, f a = .ok (g a)) :
    l.mapM f = .ok (l.map g) := by
  induction l with
  | nil => rfl
  | cons a rest ih =>
    rw [List.mapM_cons,each a List.mem_cons_self,ih fun b member => each b (List.mem_cons_of_mem _ member)]
    rfl

theorem sortedByKey_total {key : α → Except Failure κ} {k : α → κ} {before? : κ → κ → Option Bool} {l : List α}
    [LinearOrder ι] (order : α → ι) (keys : ∀ a ∈ l, key a = .ok (k a))
    (compared : ∀ a ∈ l, ∀ b ∈ l, before? (k a) (k b) = some (decide (order a < order b))) :
    sortedByKey key before? l = .ok (l.mergeSort fun a b => decide (order a ≤ order b)) := by
  have keyed : (l.mapM fun a => (key a).map fun k => (k,a)) = .ok (l.map fun a => (k a,a)) := by
    refine mapM_ok ?_
    intro a member
    rw [keys a member]
    rfl
  have pairs : ∀ p ∈ l.map (fun a => (k a,a)), ∀ q ∈ l.map (fun a => (k a,a)),
      before? p.1 q.1 = some (decide (order p.2 < order q.2)) := by
    intro p left q right
    obtain ⟨a,inLeft,rfl⟩ := List.mem_map.mp left
    obtain ⟨b,inRight,rfl⟩ := List.mem_map.mp right
    exact compared a inLeft b inRight
  have sorts := sortedBy?_total (fun p : κ × α => order p.2) pairs
  have forgotten := List.map_mergeSort (l := l.map fun a => (k a,a)) (f := Prod.snd)
    (r := fun p q : κ × α => decide (order p.2 ≤ order q.2)) (s := fun a b => decide (order a ≤ order b))
    (fun _ _ _ _ => rfl)
  rw [List.map_map,show Prod.snd ∘ (fun a => (k a,a)) = id from rfl,List.map_id] at forgotten
  rw [sortedByKey,keyed]
  simp only [bind,Except.bind,sorts,pure,Except.pure,← forgotten]

variable {controllers : List (Controller × Nat)}

theorem keys_unnamed {l : List (Controller × Nat)} (texts : ∀ p ∈ l, p.1.Textual) {p : Controller × Nat}
    (found : l.find? (fun p => !p.1.name.truthy) = some p) :
    (l.mapM fun p => (p.1.sortKey).map fun key => (key,p)) = .error (.unnamedController p.1.area p.1.ns) := by
  induction l with
  | nil => simp at found
  | cons q rest ih =>
    rw [List.mapM_cons]
    cases named : q.1.name.truthy with
    | false =>
      rw [List.find?_cons_of_pos (by simp [named])] at found
      cases found
      rw [Controller.sortKey_unnamed named]
      rfl
    | true =>
      rw [List.find?_cons_of_neg (by simp [named])] at found
      rw [(texts q List.mem_cons_self).sortKey_named named,
        ih (fun r member => texts r (List.mem_cons_of_mem _ member)) found]
      rfl

theorem candidates_unnamed (texts : ∀ p ∈ controllers, p.1.Textual) {p : Controller × Nat}
    (found : (controllers.filter fun p => p.1.isViewOnly).find? (fun p => !p.1.name.truthy) = some p) :
    candidates controllers = .error (.unnamedController p.1.area p.1.ns) := by
  rw [candidates,sortedByKey,keys_unnamed (fun q member => texts q (List.mem_filter.mp member).1) found]
  rfl

theorem candidates_keyed (key : Controller → Key)
    (keys : ∀ p ∈ controllers, p.1.isViewOnly = true → p.1.sortKey = .ok (key p.1).values) :
    candidates controllers =
      .ok ((controllers.filter fun p => p.1.isViewOnly).mergeSort fun p q => decide (key p.1 ≤ key q.1)) := by
  refine sortedByKey_total (k := fun p : Controller × Nat => (key p.1).values) (fun p => key p.1) ?_ ?_
  · intro p member
    obtain ⟨present,viewOnly⟩ := List.mem_filter.mp member
    exact keys p present viewOnly
  · intro p _ q _
    exact Key.keyBefore?_values _ _

-- What the stage makes of a candidate: the key that tells it apart, the name that it resolves to, and its class.
structure Candidate (root : String) (values : κ → Value × Value) (made : κ → ClassDef) (c : Controller) (key : κ)
    (name : String) : Prop where
  values : values key = (c.area,c.name)
  hashable : (c.area.hashable && c.name.hashable) = true
  resolved : c.resolve (.str root) = .ok name
  made : ∃ identifier, c.viewOnlyClassName = .ok identifier ∧ placeholderClass root identifier c = .ok (made key)

theorem any_sameKey [BEq κ] [LawfulBEq κ] [DecidableEq κ] {values : κ → Value × Value}
    (apart : ∀ i j, sameKey (values i) (values j) = decide (i = j)) (seen : List κ) (key : κ) :
    (seen.map values).any (sameKey (values key)) = decide (key ∈ seen) := by
  induction seen with
  | nil => rfl
  | cons first rest ih =>
    rw [List.map_cons,List.any_cons,ih,apart]
    by_cases equal : key = first <;> simp [equal]

-- Over the candidates that are left: what has been seen gets no second class, but a name all the same.
theorem placeholdersFrom_keyed [BEq κ] [LawfulBEq κ] [DecidableEq κ] {root : String} {values : κ → Value × Value}
    {made : κ → ClassDef} (apart : ∀ i j, sameKey (values i) (values j) = decide (i = j)) (key : Controller → κ)
    (name : Controller → String) {l : List (Controller × Nat)}
    (each : ∀ p ∈ l, Candidate root values made p.1 (key p.1) (name p.1)) (seen : List κ) :
    (placeholdersFrom root (seen.map values) l).outcome =
      .ok (((l.map fun p => key p.1).filter fun key => decide (key ∉ seen)).eraseDups.map made) ∧
    namings (placeholdersFrom root (seen.map values) l).trace = l.map fun p => (p.2,name p.1) := by
  induction l generalizing seen with
  | nil => exact ⟨rfl,rfl⟩
  | cons p rest ih =>
    obtain ⟨c,position⟩ := p
    have later := ih fun q member => each q (List.mem_cons_of_mem _ member)
    obtain ⟨own,hashable,resolved,identifier,named,printed⟩ : Candidate root values made c (key c) (name c) :=
      each (c,position) List.mem_cons_self
    have known : (seen.map values).any (sameKey (c.area,c.name)) = decide (key c ∈ seen) := by
      rw [← own,any_sameKey apart]
    unfold placeholdersFrom
    simp only [resolved,Run.settled_ok_bind,Run.name_bind,hashable,known]
    by_cases again : key c ∈ seen
    · obtain ⟨outcome,names⟩ := later seen
      simp [again,outcome,names]
    · obtain ⟨outcome,names⟩ := later (key c :: seen)
      rw [List.map_cons,own] at outcome names
      have fresh : (((c,position) :: rest).map fun p => key p.1).filter (fun key => decide (key ∉ seen)) =
          key c :: (rest.map fun p => key p.1).filter fun key => decide (key ∉ seen) := by
        simp [again]
      have others : ((rest.map fun p => key p.1).filter fun key => decide (key ∉ seen)).filter (fun k => !k == key c) =
          (rest.map fun p => key p.1).filter fun k => decide (k ∉ key c :: seen) := by
        rw [List.filter_filter]
        refine List.filter_congr ?_
        intro k _
        by_cases same : k = key c <;> simp [same]
      rw [fresh,List.eraseDups_cons,others]
      simp [again,named,printed,Run.bind_of_ok _ outcome,names]

theorem candidate_texts {c : Controller} (texts : c.Textual) (named : c.name.truthy = true) (root : String) :
    Candidate root Key.values (placeholderOf root) c c.key (c.resolvedName root) where
  values := texts.key_values
  hashable := by
    rw [texts.area_eq,texts.name_eq,Value.hashable_str,Value.hashable_str]
    rfl
  resolved := texts.resolve_named named root
  made := ⟨_,texts.viewOnlyClassName_named named,placeholderClass_texts texts root⟩

theorem placeholders_unnamed (root : String) (texts : ∀ p ∈ controllers, p.1.Textual) {p : Controller × Nat}
    (found : (controllers.filter fun p => p.1.isViewOnly).find? (fun p => !p.1.name.truthy) = some p) :
    placeholders root controllers = Run.settled (.error (.unnamedController p.1.area p.1.ns)) := by
  rw [placeholders,candidates_unnamed texts found]
  rfl

theorem placeholders_named (root : String) (texts : ∀ p ∈ controllers, p.1.Textual)
    (named : ∀ p ∈ controllers, p.1.isViewOnly = true → p.1.name.truthy = true) :
    (placeholders root controllers).outcome = .ok
      ((ascending ((controllers.filter fun p => p.1.isViewOnly).map fun p => p.1.key)).map (placeholderOf root)) ∧
    (namings (placeholders root controllers).trace).Perm
      ((controllers.filter fun p => p.1.isViewOnly).map fun p => (p.2,p.1.resolvedName root)) := by
  let sorted := (controllers.filter fun p => p.1.isViewOnly).mergeSort fun p q => decide (p.1.key ≤ q.1.key)
  have perm : sorted.Perm (controllers.filter fun p => p.1.isViewOnly) := List.mergeSort_perm _ _
  have nondescending : (sorted.map fun p => p.1.key).Pairwise (· ≤ ·) :=
    List.pairwise_map.mpr (mergeSort_key_le (fun p : Controller × Nat => p.1.key) _)
  have candidate : ∀ p ∈ sorted, p ∈ controllers ∧ p.1.isViewOnly = true :=
    fun p member => List.mem_filter.mp (perm.mem_iff.mp member)
  have each : ∀ p ∈ sorted, Candidate root Key.values (placeholderOf root) p.1 p.1.key (p.1.resolvedName root) :=
    fun p member =>
      candidate_texts (texts p (candidate p member).1) (named p (candidate p member).1 (candidate p member).2) root
  obtain ⟨outcome,names⟩ := placeholdersFrom_keyed Key.sameKey_values Controller.key (Controller.resolvedName root)
    each []
  have keys : ((sorted.map fun p => p.1.key).filter fun key => decide (key ∉ [])).eraseDups =
      ascending ((controllers.filter fun p => p.1.isViewOnly).map fun p => p.1.key) := by
    rw [List.filter_eq_self.mpr (by simp)]
    exact (eraseDups_of_sorted nondescending).trans (ascending_congr fun key => (perm.map _).mem_iff)
  have sortKeys : ∀ p ∈ controllers, p.1.isViewOnly = true → p.1.sortKey = .ok p.1.key.values :=
    fun p present viewOnly => (texts p present).sortKey_named (named p present viewOnly)
  rw [placeholders,candidates_keyed Controller.key sortKeys,Run.settled_ok_bind]
  refine ⟨?_,?_⟩
  · rw [← keys]
    exact outcome
  · have written := perm.map fun p => (p.2,p.1.resolvedName root)
    rw [← names] at written
    exact written

end Synthesis
end TypedMvc
