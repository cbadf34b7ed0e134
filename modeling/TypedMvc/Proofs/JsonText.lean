import TypedMvc.Proofs.Encoding
import TypedMvc.Proofs.JsonToken
import TypedMvc.Proofs.Separated
import TypedMvc.Storage

namespace TypedMvc
namespace Json

open Text

theorem skip_text {first : Char} {rest : List Char} (visible : isSpace first = false) :
    skip (first :: rest) = first :: rest := by
  simp [skip,visible]

theorem value_number {fuel room : Nat} {c : Char} {rest : List Char} (unquoted : c ≠ '"') (single : c ≠ '[' ∧ c ≠ '\x7b')
    (wordless : word (c :: rest) = none) : value (fuel + 1) room (c :: rest) = number (c :: rest) := by
  rw [value,wordless]
  · rintro tail ⟨⟩
    exact unquoted rfl
  · rintro tail ⟨⟩
    exact single.1 rfl
  · rintro tail ⟨⟩
    exact single.2 rfl

theorem value_square {fuel room : Nat} {c : Char} {tail inner : List Char} (skipped : skip tail = c :: inner)
    (other : c ≠ ']') :
    value (fuel + 1) (room + 1) ('[' :: tail) = (items fuel room (c :: inner)).map fun read => (.list read.1,read.2) := by
  rw [value,if_neg (Nat.succ_ne_zero room),skipped]
  split
  · rename_i same
    exact absurd (List.cons.inj same).1 other
  · rfl

theorem value_curly {fuel room : Nat} {c : Char} {tail inner : List Char} (skipped : skip tail = c :: inner)
    (other : c ≠ '\x7d') :
    value (fuel + 1) (room + 1) ('\x7b' :: tail) =
      (members fuel room (c :: inner)).map fun read => (.map (Value.mapping read.1),read.2) := by
  rw [value,if_neg (Nat.succ_ne_zero room),skipped]
  split
  · rename_i same
    exact absurd (List.cons.inj same).1 other
  · rfl

theorem value_integerText {fuel room : Nat} {i : Int} {rest : List Char} (short : i.natAbs < Binary64.tenTo digitLimit)
    (stops : Stops rest) :
    value (fuel + 1) room ((integerText i).toList ++ rest) = .ok (.int i,rest) := by
  have read := number_integerText short stops
  obtain ⟨first,more,digits,digit⟩ := decimal_head i.natAbs
  unfold integerText at read ⊢
  split
  · rename_i negative
    rw [if_pos negative,String.toList_append,digits] at read
    rw [String.toList_append,digits]
    rw [show "-".toList = ['-'] from rfl] at read ⊢
    rw [List.singleton_append,List.cons_append,List.cons_append] at read ⊢
    rw [value_number (by decide) (by decide) (word_negative digit)]
    exact read
  · rename_i positive
    rw [if_neg positive,digits,List.cons_append] at read
    rw [digits,List.cons_append,
      value_number (digit_ne digit rfl) ⟨digit_ne digit rfl,digit_ne digit rfl⟩ (word_digit digit)]
    exact read

-- A text that reads as a value, whatever stops it.
structure Reads (room : Nat) (text : List Char) (v : Value) : Prop where
  legible : ∀ c ∈ text, Legible c
  begins : ∃ first more, text = first :: more ∧ isSpace first = false ∧ first ≠ ']'
  read : ∀ fuel rest, 2 * text.length ≤ fuel → Stops rest → value fuel room (text ++ rest) = .ok (v,rest)

def Gap (cs : List Char) : Prop := ∀ c ∈ cs, isSpace c = true ∧ Legible c

theorem Gap.append {front back : List Char} (left : Gap front) (right : Gap back) : Gap (front ++ back) :=
  List.forall_mem_append.mpr ⟨left,right⟩

theorem Gap.skip {gap : List Char} (spaces : Gap gap) (rest : List Char) : skip (gap ++ rest) = Json.skip rest :=
  List.dropWhile_append_of_pos fun c member => (spaces c member).1

theorem Gap.stops {gap rest : List Char} (spaces : Gap gap) (stops : Stops rest) : Stops (gap ++ rest) := by
  cases gap with
  | nil => exact stops
  | cons c gap =>
    rintro d tail same
    obtain ⟨rfl,_⟩ := List.cons.inj same
    obtain ⟨space,_⟩ := spaces c List.mem_cons_self
    refine ⟨?_,?_,?_,?_⟩
    · simp only [isSpace,Bool.or_eq_true,beq_iff_eq] at space
      obtain ((rfl | rfl) | rfl) | rfl := space <;> rfl
    all_goals
      rintro rfl
      exact absurd space (by decide)

theorem stops_char {c : Char} {rest : List Char} (other : isDigit c = false ∧ c ≠ '.' ∧ c ≠ 'e' ∧ c ≠ 'E') :
    Stops (c :: rest) := by
  rintro d tail same
  obtain ⟨rfl,_⟩ := List.cons.inj same
  exact other

section

variable {room : Nat} {gap closing : List Char}

theorem items_reads {parts : List (List Char × Value)} (present : parts ≠ [])
    (each : ∀ part ∈ parts, Reads room part.1 part.2) (gapped : Gap gap) (closed : Gap closing) (fuel : Nat) (rest : List Char)
    (enough : 2 * ((',' :: gap).intercalate (parts.map (·.1))).length + 1 ≤ fuel) :
    items fuel room ((',' :: gap).intercalate (parts.map (·.1)) ++ (closing ++ ']' :: rest)) = .ok (parts.map (·.2),rest) := by
  induction parts generalizing fuel with
  | nil => exact absurd rfl present
  | cons part parts ih =>
    obtain ⟨fuel,rfl⟩ : ∃ left, fuel = left + 1 := ⟨fuel - 1,by omega⟩
    have first := each part List.mem_cons_self
    cases parts with
    | nil =>
      rw [List.map_singleton,List.intercalate_singleton] at enough ⊢
      rw [items,first.read fuel _ (by omega) (closed.stops (stops_char (by decide)))]
      simp only [closed.skip,skip_text (show isSpace ']' = false from rfl)]
      rfl
    | cons second parts =>
      have others := fun other member => each other (List.mem_cons_of_mem part member)
      obtain ⟨c,more,text,visible,_⟩ := (others second List.mem_cons_self).begins
      have inner := ih (List.cons_ne_nil second parts) others fuel
      rw [List.map_cons,text] at inner
      rw [List.map_cons,List.map_cons,List.intercalate_cons_cons,text] at enough ⊢
      obtain ⟨tail,joined⟩ := intercalate_head (',' :: gap) c more (parts.map (·.1))
      rw [joined] at inner enough ⊢
      simp only [List.length_append,List.length_cons] at enough inner
      rw [List.append_assoc,List.append_assoc,List.cons_append,items,first.read fuel _ (by omega) (stops_char (by decide))]
      simp only [List.cons_append,skip_text (show isSpace ',' = false from rfl),gapped.skip,skip_text visible]
      rw [← List.cons_append,inner (by omega)]
      rfl

def memberText (key : String) (text : List Char) : List Char := (stringText key).toList ++ ':' :: ' ' :: text

theorem memberText_head (key : String) (text : List Char) : ∃ more, memberText key text = '"' :: more := by
  rw [memberText,toList_stringText]
  exact ⟨_,rfl⟩

theorem members_first {key : String} {text : List Char} {v : Value} (reads : Reads room text v) {fuel : Nat}
    (left : 2 * text.length ≤ fuel) {rest : List Char} (stops : Stops rest) :
    (∀ after, skip rest = '\x7d' :: after →
      members (fuel + 1) room (memberText key text ++ rest) = .ok ([(.str key,v)],after)) ∧
    ∀ more, skip rest = ',' :: more → members (fuel + 1) room (memberText key text ++ rest) =
      (members fuel room (skip more)).map fun read => ((.str key,v) :: read.1,read.2) := by
  obtain ⟨c,more,rfl,visible,_⟩ := reads.begins
  have value := reads.read fuel rest left stops
  have colon : ∀ tail, skip (':' :: tail) = ':' :: tail := fun _ => skip_text rfl
  have space : ∀ tail, skip (' ' :: c :: tail) = c :: tail := fun _ => skip_text visible
  rw [List.cons_append] at value
  constructor
  all_goals
    intro after skipped
    rw [memberText,toList_stringText]
    simp only [List.cons_append,List.append_assoc,List.nil_append]
    rw [members,stringBody_written]
    simp only [colon,space,value,skipped,String.ofList_toList]

theorem members_reads {parts : List (String × List Char × Value)} (present : parts ≠ [])
    (each : ∀ part ∈ parts, Reads room part.2.1 part.2.2)
    (gapped : Gap gap) (closed : Gap closing) (fuel : Nat) (rest : List Char)
    (enough : 2 * ((',' :: gap).intercalate (parts.map fun part => memberText part.1 part.2.1)).length + 1 ≤ fuel) :
    members fuel room
        ((',' :: gap).intercalate (parts.map fun part => memberText part.1 part.2.1) ++ (closing ++ '\x7d' :: rest)) =
      .ok (parts.map fun part => (.str part.1,part.2.2),rest) := by
  induction parts generalizing fuel with
  | nil => exact absurd rfl present
  | cons part parts ih =>
    obtain ⟨fuel,rfl⟩ : ∃ left, fuel = left + 1 := ⟨fuel - 1,by omega⟩
    have first := each part List.mem_cons_self
    cases parts with
    | nil =>
      rw [List.map_singleton,List.intercalate_singleton] at enough ⊢
      have left : 2 * part.2.1.length ≤ fuel := by
        simp only [memberText,List.length_append,List.length_cons] at enough
        omega
      exact (members_first first left (closed.stops (stops_char (by decide)))).1 rest
        ((closed.skip _).trans (skip_text rfl))
    | cons second parts =>
      have others := fun other member => each other (List.mem_cons_of_mem part member)
      have inner := ih (List.cons_ne_nil second parts) others fuel
      obtain ⟨more,text⟩ := memberText_head second.1 second.2.1
      obtain ⟨tail,joined⟩ := intercalate_head (',' :: gap) '"' more (parts.map fun part => memberText part.1 part.2.1)
      rw [List.map_cons,text,joined] at inner
      rw [List.map_cons,List.map_cons,List.intercalate_cons_cons,text,joined] at enough ⊢
      simp only [List.length_append,List.length_cons] at enough inner
      have left : 2 * part.2.1.length ≤ fuel := by
        simp only [memberText,List.length_append,List.length_cons] at enough
        omega
      rw [List.append_assoc,List.append_assoc,List.cons_append,
        (members_first first left (stops_char (by decide))).2 _ (skip_text rfl)]
      rw [gapped.skip,List.cons_append,skip_text rfl,← List.cons_append,inner (by omega)]
      rfl

theorem Reads.of_step {text : List Char} {v : Value} (legible : ∀ c ∈ text, Legible c)
    (begins : ∃ first more, text = first :: more ∧ isSpace first = false ∧ first ≠ ']')
    (step : ∀ fuel rest, 2 * text.length ≤ fuel + 1 → Stops rest → value (fuel + 1) room (text ++ rest) = .ok (v,rest)) :
    Reads room text v := by
  refine ⟨legible,begins,?_⟩
  intro fuel rest enough stops
  obtain ⟨first,more,rfl,_⟩ := begins
  obtain ⟨left,rfl⟩ : ∃ left, fuel = left + 1 := ⟨fuel - 1,by simp only [List.length_cons] at enough; omega⟩
  exact step left rest enough stops

-- A text that is told by its letters alone, whatever stands behind it.
theorem Reads.fixed {shown : String} {v : Value} (first : Char) (more : List Char) (letters : shown.toList = first :: more)
    (legible : ∀ c ∈ first :: more, Legible c) (clear : isSpace first = false ∧ first ≠ ']')
    (step : ∀ fuel rest, value (fuel + 1) room (first :: more ++ rest) = .ok (v,rest)) : Reads room shown.toList v := by
  rw [letters]
  exact of_step legible ⟨first,more,rfl,clear⟩ fun fuel rest _ _ => step fuel rest

theorem legible_enclosed {first last : Char} {start : List Char} {texts : List (List Char)} (opens : Legible first)
    (closes : Legible last) (started : Gap start) (gapped : Gap gap) (closed : Gap closing)
    (each : ∀ text ∈ texts, ∀ c ∈ text, Legible c) :
    ∀ c ∈ first :: (start ++ ((',' :: gap).intercalate texts ++ (closing ++ [last]))), Legible c := by
  intro c member
  simp only [List.mem_cons,List.mem_append,List.not_mem_nil,or_false] at member
  obtain rfl | leading | between | trailing | rfl := member
  · exact opens
  · exact (started c leading).2
  · obtain separator | ⟨text,among,inside⟩ := mem_intercalate between
    · obtain rfl | spaces := List.mem_cons.mp separator
      · decide
      · exact (gapped c spaces).2
    · exact each text among c inside
  · exact (closed c trailing).2
  · exact closes

variable {start : List Char}

theorem Reads.list {parts : List (List Char × Value)} (present : parts ≠ []) (each : ∀ part ∈ parts, Reads room part.1 part.2)
    (started : Gap start) (gapped : Gap gap) (closed : Gap closing) :
    Reads (room + 1) ('[' :: (start ++ ((',' :: gap).intercalate (parts.map (·.1)) ++ (closing ++ [']']))))
      (.list (parts.map (·.2))) := by
  refine of_step ?_ ⟨_,_,rfl,by decide,by decide⟩ ?_
  · refine legible_enclosed (by decide) (by decide) started gapped closed ?_
    intro text member
    obtain ⟨part,among,rfl⟩ := List.mem_map.mp member
    exact (each part among).legible
  · intro fuel rest enough stops
    have left : 2 * ((',' :: gap).intercalate (parts.map (·.1))).length + 1 ≤ fuel := by
      simp only [List.length_cons,List.length_append] at enough
      omega
    have inner := items_reads present each gapped closed fuel rest left
    cases parts with
    | nil => exact absurd rfl present
    | cons part parts =>
      obtain ⟨c,more,text,visible,unclosed⟩ := (each part List.mem_cons_self).begins
      obtain ⟨tail,joined⟩ := intercalate_head (',' :: gap) c more (parts.map (·.1))
      rw [List.map_cons,text,joined] at inner ⊢
      simp only [List.cons_append,List.append_assoc,List.nil_append] at inner ⊢
      rw [value_square ((started.skip _).trans (skip_text visible)) unclosed,inner]
      rfl

theorem Reads.map {parts : List (String × List Char × Value)} (present : parts ≠ [])
    (each : ∀ part ∈ parts, Reads room part.2.1 part.2.2) (started : Gap start) (gapped : Gap gap) (closed : Gap closing) :
    Reads (room + 1)
      ('\x7b' :: (start ++
        ((',' :: gap).intercalate (parts.map fun part => memberText part.1 part.2.1) ++ (closing ++ ['\x7d']))))
      (.map (Value.mapping (parts.map fun part => (.str part.1,part.2.2)))) := by
  refine of_step ?_ ⟨_,_,rfl,by decide,by decide⟩ ?_
  · refine legible_enclosed (by decide) (by decide) started gapped closed ?_
    intro text member
    obtain ⟨part,among,rfl⟩ := List.mem_map.mp member
    refine List.forall_mem_append.mpr ⟨legible_stringText part.1,?_⟩
    exact List.forall_mem_cons.mpr ⟨by decide,List.forall_mem_cons.mpr ⟨by decide,(each part among).legible⟩⟩
  · intro fuel rest enough stops
    have left : 2 * ((',' :: gap).intercalate (parts.map fun part => memberText part.1 part.2.1)).length + 1 ≤ fuel := by
      simp only [List.length_cons,List.length_append] at enough
      omega
    have inner := members_reads present each gapped closed fuel rest left
    cases parts with
    | nil => exact absurd rfl present
    | cons part parts =>
      obtain ⟨more,text⟩ := memberText_head part.1 part.2.1
      obtain ⟨tail,joined⟩ := intercalate_head (',' :: gap) '"' more (parts.map fun part => memberText part.1 part.2.1)
      rw [List.map_cons,text,joined] at inner ⊢
      simp only [List.cons_append,List.append_assoc,List.nil_append] at inner ⊢
      rw [value_curly ((started.skip _).trans (skip_text (by decide))) (by decide),inner]
      rfl

end

structure Style.Spaced (style : Style) : Prop where
  start : ∀ depth, Gap (style.start depth).toList
  separator : ∃ gap, style.separator.toList = ',' :: gap ∧ Gap gap

theorem indented_spaced (width : Nat) : (indented width).Spaced := by
  constructor
  · intro depth c member
    simp only [indented,String.toList_append,String.toList_ofList,List.mem_append] at member
    obtain feed | space := member
    · obtain rfl : c = '\n' := by simpa using feed
      decide
    · obtain rfl := List.eq_of_mem_replicate space
      decide
  · have comma : (indented width).separator.toList = [','] := by simp [indented]
    exact ⟨[],comma,fun _ member => absurd member List.not_mem_nil⟩

-- The values that read back, by how deep they are nested: integers of as many digits as are read, and mappings with a
-- text for each key, no key twice. A number with a fraction is not among them.
inductive Written : Nat → Value → Prop where
  | null (room : Nat) : Written room .null
  | bool (room : Nat) (b : Bool) : Written room (.bool b)
  | int (room : Nat) (i : Int) (short : i.natAbs < Binary64.tenTo digitLimit) : Written room (.int i)
  | str (room : Nat) (s : String) : Written room (.str s)
  | list (room : Nat) (items : List Value) (each : ∀ item ∈ items, Written room item) : Written (room + 1) (.list items)
  | map (room : Nat) (entries : List (String × Value)) (distinct : (entries.map (·.1)).Nodup)
      (each : ∀ entry ∈ entries, Written room entry.2) :
      Written (room + 1) (.map (entries.map fun entry => (.str entry.1,entry.2)))

theorem foldl_insert_texts {known : List (Value × Value)} {entries : List (String × Value)}
    (distinct : (entries.map (·.1)).Nodup)
    (fresh : ∀ entry ∈ entries, known.any (fun other => Value.same other.1 (.str entry.1)) = false) :
    (entries.map fun entry => (.str entry.1,entry.2)).foldl (fun known entry => Value.insert known entry.1 entry.2) known =
      known ++ entries.map fun entry => (.str entry.1,entry.2) := by
  induction entries generalizing known with
  | nil => simp
  | cons entry entries ih =>
    rw [List.map_cons,List.nodup_cons] at distinct
    have inserted : Value.insert known (.str entry.1) entry.2 = known ++ [(.str entry.1,entry.2)] := by
      rw [Value.insert,fresh entry List.mem_cons_self]
      rfl
    rw [List.map_cons,List.foldl_cons,inserted,ih distinct.2]
    · simp
    · intro other member
      have apart : entry.1 ≠ other.1 := by
        intro same
        exact distinct.1 (same ▸ List.mem_map_of_mem member)
      rw [List.any_append,fresh other (List.mem_cons_of_mem _ member)]
      simp [apart]

theorem mapping_texts {entries : List (String × Value)} (distinct : (entries.map (·.1)).Nodup) :
    Value.mapping (entries.map fun entry => (.str entry.1,entry.2)) = entries.map fun entry => (.str entry.1,entry.2) :=
  foldl_insert_texts distinct fun _ _ => rfl

variable {style : Style}

theorem renderItems_eq (depth : Nat) (items : List Value) : renderItems style depth items = items.map (render style depth) := by
  induction items with
  | nil => rfl
  | cons item items ih => rw [renderItems,ih,List.map_cons]

theorem renderEntries_eq (depth : Nat) (entries : List (String × Value)) :
    renderEntries style depth (entries.map fun entry => (.str entry.1,entry.2)) =
      entries.map fun entry => stringText entry.1 ++ ": " ++ render style depth entry.2 := by
  induction entries with
  | nil => rfl
  | cons entry entries ih =>
    rw [List.map_cons,renderEntries,ih,List.map_cons]
    rfl

theorem toList_enclose {opening closing : String} {depth : Nat} {parts : List String} (present : parts ≠ []) :
    (enclose style depth opening closing parts).toList =
      opening.toList ++ ((style.start (depth + 1)).toList ++
        ((style.separator.toList ++ (style.start (depth + 1)).toList).intercalate (parts.map String.toList) ++
          ((style.start depth).toList ++ closing.toList))) := by
  have nonempty : parts.isEmpty = false := by simpa using present
  simp only [enclose,nonempty,Bool.false_eq_true,if_false,String.toList_append,String.toList_intercalate,List.append_assoc]

theorem Written.reads (spaced : style.Spaced) {room : Nat} {v : Value} (written : Written room v) (depth : Nat) :
    Reads room (render style depth v).toList v := by
  obtain ⟨gap,comma,gapped⟩ := spaced.separator
  -- the depth of the layout is free: the parts of a value are laid out one level deeper and read with less room
  induction written generalizing depth with
  | null room => exact .fixed 'n' ['u','l','l'] (by simp [render]) (legible_all rfl) (by decide) fun _ _ => rfl
  | bool room b =>
    cases b with
    | false => exact .fixed 'f' ['a','l','s','e'] (by simp [render]) (legible_all rfl) (by decide) fun _ _ => rfl
    | true => exact .fixed 't' ['r','u','e'] (by simp [render]) (legible_all rfl) (by decide) fun _ _ => rfl
  | int room i short =>
    rw [render]
    exact .of_step (legible_integerText i) (integerText_head i) fun _ _ _ stops => value_integerText short stops
  | str room s =>
    rw [render]
    refine .of_step (legible_stringText s) ⟨_,_,toList_stringText s,by decide,by decide⟩ ?_
    intro fuel rest _ _
    rw [toList_stringText,List.cons_append,List.append_assoc,List.singleton_append,value,stringBody_written]
    simp only [Except.map,String.ofList_toList]
  | list room items each ih =>
    rw [render,renderItems_eq]
    by_cases empty : items = []
    · subst empty
      exact .fixed '[' [']'] (by simp [enclose]) (legible_all rfl) (by decide) fun _ _ => rfl
    · have parts : ∀ part ∈ items.map fun item => ((render style (depth + 1) item).toList,item),
          Reads room part.1 part.2 := by
        intro part member
        obtain ⟨item,inside,rfl⟩ := List.mem_map.mp member
        exact ih item inside (depth + 1)
      have read := Reads.list (by simpa using empty) parts (spaced.start (depth + 1)) (gapped.append (spaced.start (depth + 1)))
        (spaced.start depth)
      rw [toList_enclose (by simpa using empty),comma]
      simpa [List.map_map,Function.comp_def] using read
  | map room entries distinct each ih =>
    rw [render,renderEntries_eq]
    by_cases empty : entries = []
    · subst empty
      exact .fixed '\x7b' ['\x7d'] (by simp [enclose]) (legible_all rfl) (by decide) fun _ _ => rfl
    · have parts : ∀ part ∈ entries.map fun entry => (entry.1,(render style (depth + 1) entry.2).toList,entry.2),
          Reads room part.2.1 part.2.2 := by
        intro part member
        obtain ⟨entry,inside,rfl⟩ := List.mem_map.mp member
        exact ih entry inside (depth + 1)
      have read := Reads.map (by simpa using empty) parts (spaced.start (depth + 1)) (gapped.append (spaced.start (depth + 1)))
        (spaced.start depth)
      rw [toList_enclose (by simpa using empty),comma]
      rw [List.map_map,List.map_map] at read
      simp only [Function.comp_def,mapping_texts distinct] at read
      rw [List.map_map]
      simpa [Function.comp_def,memberText] using read

theorem read_document {v : Value} (written : Written depthLimit v) : read (document v).toList = .ok v := by
  have reads := written.reads (indented_spaced 2) 0
  obtain ⟨first,more,text,visible,_⟩ := reads.begins
  have value := reads.read (2 * (document v).toList.length + 2) [] (Nat.le_add_right _ _) (by rintro c tail ⟨⟩)
  have legible : Legible first := reads.legible first (text ▸ List.mem_cons_self)
  rw [List.append_nil] at value
  change (document v).toList = first :: more at text
  change Json.value _ depthLimit (document v).toList = _ at value
  rw [text] at value ⊢
  have mark : first ≠ '\uFEFF' := by
    rintro rfl
    exact absurd legible (by decide)
  rw [read]
  · rw [skip_text visible,value]
    rfl
  · rintro tail same
    exact mark (List.cons.inj same).1

theorem legible_document {v : Value} (written : Written depthLimit v) : ∀ c ∈ (document v).toList, Legible c :=
  (written.reads (indented_spaced 2) 0).legible

end Json

theorem Document.readJson_document {v : Value} (written : Json.Written Json.depthLimit v) :
    readJson (Text.encodeUtf8 (Json.document v)) = .ok v := by
  have free : '\r' ∉ (Json.document v).toList := fun member => absurd (Json.legible_document written _ member) (by decide)
  simp only [readJson,Text.decodeUtf8_encodeUtf8,Text.universalNewlines_of_free free,Json.read_document written]
  rfl

theorem Document.read_document {folder : Folder} {path : Path} {v : Value} (json : path.isYaml = false)
    (found : folder.read path = .ok (Text.encodeUtf8 (Json.document v))) (written : Json.Written Json.depthLimit v) :
    read folder path = .ok v := by
  simp only [read,found,json,Bool.false_eq_true,if_false,readJson_document written]

end TypedMvc
