import TypedMvc.Folder
import TypedMvc.Proofs.Grammar

namespace TypedMvc.Folder

variable {folder : Folder} {path : Path} {place other : Place} {entry : Entry} {content : List UInt8}

def file? (folder : Folder) (place : Place) : Option (List UInt8) :=
  match folder.at? place with
  | some (.file content) => some content
  | _ => none

theorem lookup_replaced (entries : List (Place × Entry)) (place other : Place) (entry : Entry) :
    (entries.map fun known => if known.1 == place then (place,entry) else known).lookup other =
      if other = place then (entries.lookup other).map fun _ => entry else entries.lookup other := by
  induction entries with
  | nil => simp
  | cons known rest ih =>
    rw [List.map_cons,List.lookup_cons,ih,List.lookup_cons]
    by_cases asked : other = place
    · subst asked
      cases here : known.1 == other with
      | true => simp [beq_iff_eq.mp here]
      | false =>
        have apart : (other == known.1) = false := by rwa [BEq.comm]
        simp [apart]
    · have apart : (other == place) = false := beq_eq_false_iff_ne.mpr asked
      cases here : known.1 == place with
      | true => simp [asked,apart,beq_iff_eq.mp here]
      | false => simp [asked]

theorem entry?_put (folder : Folder) (place other : Place) (entry : Entry) :
    Folder.entry? (folder.put place entry) other = if other = place then some entry else folder.entry? other := by
  unfold put entry?
  split
  · rename_i known
    rw [lookup_replaced]
    by_cases asked : other = place
    · subst asked
      obtain ⟨old,member,same⟩ := List.any_eq_true.mp known
      have present : (folder.entries.lookup other).isSome = true :=
        List.lookup_isSome_iff.mpr ⟨old,member,by rwa [BEq.comm]⟩
      obtain ⟨found,looked⟩ := Option.isSome_iff_exists.mp present
      rw [if_pos rfl,if_pos rfl,looked,Option.map_some]
    · rw [if_neg asked,if_neg asked]
  · rename_i unknown
    rw [List.lookup_append]
    by_cases asked : other = place
    · subst asked
      have absent : folder.entries.lookup other = none := by
        refine List.lookup_eq_none_iff.mpr ?_
        intro old member
        refine bne_iff_ne.mpr ?_
        rintro rfl
        exact unknown (List.any_eq_true.mpr ⟨old,member,beq_self_eq_true old.1⟩)
      simp [absent]
    · have apart : (other == place) = false := beq_eq_false_iff_ne.mpr asked
      simp [asked,apart,List.lookup_cons]

theorem isBelow_iff : isBelow place other = true ↔ place <+: other ∧ place.length < other.length := by
  simp [isBelow]

theorem any_below_put (folder : Folder) (place other : Place) (entry : Entry) :
    ((folder.put place entry).entries.any fun known => isBelow other known.1) = true ↔
      (folder.entries.any fun known => isBelow other known.1) = true ∨ isBelow other place = true := by
  unfold put
  split
  · rename_i known
    obtain ⟨old,member,same⟩ := List.any_eq_true.mp known
    have keys : ∀ known : Place × Entry, (if known.1 == place then (place,entry) else known).1 = known.1 := by
      intro known
      split
      · rename_i here
        exact (beq_iff_eq.mp here).symm
      · rfl
    simp only [List.any_map,Function.comp_def,keys]
    refine ⟨.inl,?_⟩
    rintro (found | below)
    · exact found
    · exact List.any_eq_true.mpr ⟨old,member,by rwa [beq_iff_eq.mp same]⟩
  · simp

def Reached (folder : Folder) (place : Place) : Prop :=
  ∀ above, isBelow above place = true → folder.at? above = some .directory

theorem isAbove_eq_false (free : folder.at? place ≠ some .directory) : isAbove place = false := by
  refine Bool.eq_false_iff.mpr fun above => free ?_
  rw [at?,if_pos above]

theorem at?_put (reached : folder.Reached place) (free : folder.at? place ≠ some .directory) (entry : Entry)
    (other : Place) : (folder.put place entry).at? other = if other = place then some entry else folder.at? other := by
  unfold at?
  rw [entry?_put]
  by_cases asked : other = place
  · subst asked
    simp [isAbove_eq_false free]
  · rw [if_neg asked,if_neg asked]
    split
    · rfl
    · rename_i low
      cases known : folder.entry? other with
      | some found => rfl
      | none =>
        dsimp only
        by_cases below : isBelow other place = true
        · have directory := reached other below
          rw [at?,if_neg low,known] at directory
          rw [if_pos ((any_below_put folder place other entry).mpr (.inr below))]
          exact directory.symm
        · have same : ((folder.put place entry).entries.any fun known => isBelow other known.1) =
              folder.entries.any fun known => isBelow other known.1 :=
            Bool.eq_iff_iff.mpr ((any_below_put folder place other entry).trans (or_iff_left below))
          rw [same]

theorem Reached.append (reached : folder.Reached place) (directory : folder.at? place = some .directory) (name : String) :
    folder.Reached (place ++ [name]) := by
  intro above below
  obtain ⟨front,shorter⟩ := isBelow_iff.mp below
  have within : above.length ≤ place.length := by simpa using Nat.lt_succ_iff.mp (by simpa using shorter)
  have onWay : above <+: place := List.prefix_of_prefix_length_le front (List.prefix_append place [name]) within
  rcases Nat.lt_or_eq_of_le within with strict | full
  · exact reached above (isBelow_iff.mpr ⟨onWay,strict⟩)
  · rw [onWay.eq_of_length full]
    exact directory

theorem Reached.ascend (reached : folder.Reached place) (directory : folder.at? place = some .directory) :
    folder.Reached (ascend place) := by
  unfold Folder.ascend
  split
  · exact reached
  · split
    · exact reached.append directory up
    · intro above below
      obtain ⟨front,shorter⟩ := isBelow_iff.mp below
      have dropped : place.dropLast <+: place := List.dropLast_prefix place
      exact reached above (isBelow_iff.mpr ⟨front.trans dropped,Nat.lt_of_lt_of_le shorter dropped.length_le⟩)

theorem Reached.start (start : Place) (known : start = [] ∨ start = ["/"]) : folder.Reached start := by
  intro above below
  obtain ⟨_,shorter⟩ := isBelow_iff.mp below
  have empty : above = [] := by
    rcases known with rfl | rfl
    · simp at shorter
    · exact List.length_eq_zero_iff.mp (Nat.lt_one_iff.mp shorter)
  rw [empty]
  rfl

def onward (place : Place) (name : String) : Place := if name == up then ascend place else place ++ [name]

theorem walk_cons_ok {name : String} {rest : List String} {result : Place}
    (walked : folder.walk path place (name :: rest) = .ok result) :
    folder.at? place = some .directory ∧ ¬ nameLimit < name.utf8ByteSize ∧
      folder.walk path (onward place name) rest = .ok result := by
  unfold walk at walked
  split at walked
  · cases walked
  · cases walked
  · rename_i directory
    split at walked
    · cases walked
    · rename_i short
      exact ⟨directory,short,walked⟩

theorem walk_reached {names : List String} {result : Place} (reached : folder.Reached place)
    (walked : folder.walk path place names = .ok result) : folder.Reached result := by
  induction names generalizing place with
  | nil =>
    obtain rfl := Except.ok.inj walked
    exact reached
  | cons name rest ih =>
    obtain ⟨directory,_,further⟩ := walk_cons_ok walked
    refine ih ?_ further
    unfold onward
    split
    · exact reached.ascend directory
    · exact reached.append directory name

-- A walk does not see what is put where no directory is.
theorem walk_put {start result : Place} {names : List String} (reached : folder.Reached place)
    (free : folder.at? place ≠ some .directory) (walked : folder.walk path start names = .ok result) (entry : Entry) :
    (folder.put place entry).walk path start names = .ok result := by
  induction names generalizing start with
  | nil => exact walked
  | cons name rest ih =>
    obtain ⟨directory,short,further⟩ := walk_cons_ok walked
    have elsewhere : start ≠ place := by
      rintro rfl
      exact free directory
    have seen : (folder.put place entry).at? start = some .directory := by
      rw [at?_put reached free,if_neg elsewhere,directory]
    rw [walk,seen]
    dsimp only
    rw [if_neg short]
    exact ih further

theorem locate_ok (located : folder.locate path = .ok place) :
    folder.Reached place ∧ ∀ {target : Place}, folder.Reached target → folder.at? target ≠ some .directory →
      ∀ entry, (folder.put target entry).locate path = .ok place := by
  have sameLocation : ∀ target entry, (folder.put target entry).location = folder.location := by
    intro target entry
    unfold put
    split <;> rfl
  unfold locate at located ⊢
  dsimp only at located ⊢
  simp only [sameLocation]
  split at located
  · cases located
  · rename_i clean
    split at located
    · cases located
    · rename_i short
      refine ⟨walk_reached (Reached.start _ (by split <;> simp)) located,?_⟩
      intro target reached free entry
      rw [if_neg clean,if_neg short]
      exact walk_put reached free located entry

theorem locate_name {name : String} (rooted : path.root = "" ∨ path.root = folder.location) (parts : path.parts = [name])
    (ordinary : name ≠ up) (clean : path.text.toList.contains (Char.ofNat 0) = false)
    (short : path.text.utf8ByteSize < pathLimit) (nameShort : name.utf8ByteSize ≤ nameLimit) :
    folder.locate path = .ok [name] := by
  have start : (path.root == "" || path.root == folder.location) = true := by
    simpa using rooted
  have here : folder.at? [] = some .directory := rfl
  unfold locate
  dsimp only
  rw [clean,if_neg Bool.false_ne_true,if_neg (Nat.not_le.mpr short),start,if_pos rfl,parts,walk,here]
  dsimp only
  rw [if_neg (Nat.not_lt.mpr nameShort),if_neg (by simpa using ordinary)]
  rfl

theorem write_ok_iff {after : Folder} : folder.write path content = .ok after ↔
    ∃ place, folder.locate path = .ok place ∧ folder.at? place ≠ some .directory ∧
      after = folder.put place (.file content) := by
  unfold write
  rw [bind_ok_iff]
  refine exists_congr fun place => and_congr_right fun _ => ?_
  split
  · rename_i directory
    simp [directory]
  · rename_i free
    exact ⟨fun written => ⟨free,(Except.ok.inj written).symm⟩,fun both => congrArg Except.ok both.2.symm⟩

-- A path that leads to something other than a directory, or to nothing in a directory that exists.
def Writable (folder : Folder) (path : Path) : Prop :=
  ∃ place, folder.locate path = .ok place ∧ folder.at? place ≠ some .directory

theorem write_writable (writable : folder.Writable path) (content : List UInt8) :
    ∃ after, folder.write path content = .ok after := by
  obtain ⟨place,located,free⟩ := writable
  exact ⟨_,write_ok_iff.mpr ⟨place,located,free,rfl⟩⟩

-- A file that was written is there and reads back by its path.
theorem read_write {after : Folder} (written : folder.write path content = .ok after) :
    after.read path = .ok content ∧ after.exists? path = .ok true := by
  obtain ⟨place,located,free,rfl⟩ := write_ok_iff.mp written
  obtain ⟨reached,kept⟩ := locate_ok located
  have there : (folder.put place (.file content)).at? place = some (.file content) := by
    rw [at?_put reached free,if_pos rfl]
  have again := kept reached free (.file content)
  constructor
  · rw [read,again]
    simp only [bind,Except.bind,there]
    rfl
  · simp only [exists?,again,there,Option.isSome_some]

theorem at?_write {after : Folder} (located : folder.locate path = .ok place)
    (written : folder.write path content = .ok after) (other : Place) :
    after.at? other = if other = place then some (.file content) else folder.at? other := by
  obtain ⟨own,there,free,rfl⟩ := write_ok_iff.mp written
  rw [located] at there
  obtain rfl := Except.ok.inj there
  exact at?_put (locate_ok located).1 free _ other

-- Directories may have come, and all else is as it was.
structure Grown (before after : Folder) : Prop where
  kept : ∀ place, before.at? place ≠ none → after.at? place = before.at? place
  added : ∀ place, before.at? place = none → after.at? place = none ∨ after.at? place = some .directory

theorem Grown.refl (folder : Folder) : Grown folder folder := ⟨fun _ _ => rfl,fun _ absent => .inl absent⟩

theorem Grown.trans {before middle after : Folder} (first : Grown before middle) (second : Grown middle after) :
    Grown before after := by
  refine ⟨?_,?_⟩
  · intro place present
    have same := first.kept place present
    rw [second.kept place (by rwa [same]),same]
  · intro place absent
    rcases first.added place absent with still | made
    · exact second.added place still
    · exact .inr ((second.kept place (by simp [made])).trans made)

theorem Grown.file? {before after : Folder} (grown : Grown before after) (place : Place) :
    after.file? place = before.file? place := by
  unfold Folder.file?
  cases found : before.at? place with
  | some entry => rw [grown.kept place (by simp [found]),found]
  | none => rcases grown.added place found with still | made <;> simp_all

theorem makeOne_grown {made : Folder} (ran : folder.makeOne path = .ok (some made)) : Grown folder made := by
  unfold makeOne at ran
  split at ran
  · cases ran
  · cases ran
  · rename_i place located
    split at ran
    · obtain rfl := Option.some.inj (Except.ok.inj ran)
      exact .refl folder
    · cases ran
    · rename_i absent
      obtain rfl := Option.some.inj (Except.ok.inj ran)
      have spot := at?_put (locate_ok located).1 (by simp [absent]) Entry.directory
      refine ⟨?_,?_⟩
      · intro other present
        rw [spot,if_neg]
        rintro rfl
        exact present absent
      · intro other missing
        rw [spot]
        split
        · exact .inr rfl
        · exact .inl missing

theorem makeFrom_grown {fuel : Nat} {made : Folder} (ran : folder.makeFrom fuel path = .ok made) : Grown folder made := by
  induction fuel generalizing path made with
  | zero => cases ran
  | succ fuel ih =>
    unfold makeFrom at ran
    obtain ⟨first,tried,rest⟩ := bind_ok_iff.mp ran
    cases first with
    | some folder' =>
      obtain rfl := Except.ok.inj rest
      exact makeOne_grown tried
    | none =>
      obtain ⟨above,parents,rest⟩ := bind_ok_iff.mp rest
      obtain ⟨second,again,rest⟩ := bind_ok_iff.mp rest
      cases second with
      | some folder' =>
        obtain rfl := Except.ok.inj rest
        exact (ih parents).trans (makeOne_grown again)
      | none => cases rest

theorem makeDirectory_grown {made : Folder} (ran : folder.makeDirectory path = .ok made) : Grown folder made :=
  makeFrom_grown ran

end TypedMvc.Folder
