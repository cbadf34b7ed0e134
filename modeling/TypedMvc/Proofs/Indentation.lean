import TypedMvc.Proofs.Breaks
import TypedMvc.Proofs.Grammar
import TypedMvc.Template

namespace TypedMvc

namespace Text

theorem isAllBlank_append {front back : List Char} (filled : isAllBlank back = false) :
    isAllBlank (front ++ back) = false := by
  rw [isAllBlank,List.all_append,← isAllBlank,← isAllBlank,filled,Bool.and_false]

theorem indentLine_indentLine (outer inner line : List Char) :
    indentLine outer (indentLine inner line) = indentLine (outer ++ inner) line := by
  unfold indentLine
  cases blank : isAllBlank line with
  | true => rfl
  | false =>
    rw [if_neg Bool.false_ne_true,isAllBlank_append blank,if_neg Bool.false_ne_true,if_neg Bool.false_ne_true,
      List.append_assoc]

-- The lines of an indented block are those of the text behind the margin, unless the last one is lost.
theorem lines_indentBlock {margin text last : List Char} (plain : Unbroken margin)
    (ends : (lines text).getLast? = some last) (filled : isAllBlank last = false) :
    lines (indentBlock margin text) = (lines text).map (indentLine margin) := by
  refine lines_unlines ?_ ?_
  · intro l member
    obtain ⟨line,among,rfl⟩ := List.mem_map.mp member
    exact plain.indented (unbroken_of_mem_lines among)
  · rw [List.getLast?_map,ends,Option.map_some,indentLine,filled,if_neg Bool.false_ne_true]
    intro empty
    have nothing : last = [] := (List.append_eq_nil_iff.mp (Option.some.inj empty)).2
    rw [nothing] at filled
    cases filled

theorem indentBlock_indentBlock {inner text last : List Char} (plain : Unbroken inner)
    (ends : (lines text).getLast? = some last) (filled : isAllBlank last = false) (outer : List Char) :
    indentBlock outer (indentBlock inner text) = indentBlock (outer ++ inner) text := by
  rw [indentBlock,lines_indentBlock plain ends filled,List.map_map,indentBlock]
  refine congrArg unlines (List.map_congr_left ?_)
  intro line _
  exact indentLine_indentLine outer inner line

end Text

namespace Template

open CSharp Text

variable {width levels : Nat} {text : String} {last : List Char}

-- So many levels can be counted, and so can the characters of a margin for them.
def Fits (width levels : Nat) : Prop := (levels : Int) < Layout.countLimit ∧ (levels * width : Int) < Layout.countLimit

theorem Fits.mono {fewer : Nat} (fits : Fits width levels) (less : fewer ≤ levels) : Fits width fewer := by
  have shorter : (fewer * width : Int) ≤ levels * width := by
    exact_mod_cast Nat.mul_le_mul_right width less
  exact ⟨lt_of_le_of_lt (by exact_mod_cast less) fits.1,lt_of_le_of_lt shorter fits.2⟩

theorem repetitions_nat (levels : Nat) : Layout.repetitions (.int levels) =
    if (levels : Int) < Layout.countLimit then .ok levels else .error (.misuse .beyondRange) := by
  have least : -Layout.countLimit ≤ (levels : Int) := by
    unfold Layout.countLimit
    omega
  simp [Layout.repetitions,least]

theorem repeated_spaces (width count : Nat) : repeated count (List.replicate width ' ') =
    if (count * width : Int) < Layout.countLimit then .ok (List.replicate (count * width) ' ')
    else .error (.misuse .beyondRange) := by
  cases width with
  | zero =>
    have small : (0 : Int) < Layout.countLimit := by decide
    simp [repeated,small]
  | succ width => simp [repeated,List.flatten_replicate_replicate]

theorem indented_fits (fits : Fits width levels) (text : String) :
    indented (List.replicate width ' ') (.int levels) (.str text) =
      .ok (.str (String.ofList (indentBlock (List.replicate (levels * width) ' ') text.toList))) := by
  rw [indented,repetitions_nat,if_pos fits.1]
  simp only [bind,Except.bind,repeated_spaces,if_pos fits.2]
  rfl

theorem indented_overflows (large : ¬ Fits width levels) (text : String) :
    indented (List.replicate width ' ') (.int levels) (.str text) = .error (.misuse .beyondRange) := by
  rw [indented,repetitions_nat]
  by_cases counted : (levels : Int) < Layout.countLimit
  · have long : ¬ (levels * width : Int) < Layout.countLimit := fun short => large ⟨counted,short⟩
    rw [if_pos counted]
    simp only [bind,Except.bind,repeated_spaces,if_neg long]
  · rw [if_neg counted]
    simp only [bind,Except.bind]

-- A block indented by one number of levels and then by another one is indented by their sum if that fits, line by line;
-- what does not fit has no block.
theorem indented_composes {size : Value} (counted : Layout.repetitions size = .ok width)
    (ends : (lines text.toList).getLast? = some last) (filled : isAllBlank last = false) :
    ∃ margin, Layout.marginOf size = .ok margin ∧
      (∀ a b : Nat, Fits width (a + b) →
        (indented margin (.int a) (.str text) >>= indented margin (.int b)) = indented margin (.int (a + b)) (.str text)) ∧
      (∀ levels : Nat, Fits width levels → ∃ block : String, indented margin (.int levels) (.str text) = .ok (.str block) ∧
        block.toList.splitOn '\n' = (lines text.toList).map fun line =>
          if isAllBlank line then [] else List.replicate (width * levels) ' ' ++ line) ∧
      ∀ levels : Nat, ¬ Fits width levels → indented margin (.int levels) (.str text) = .error (.misuse .beyondRange) := by
  have made : Layout.marginOf size = .ok (List.replicate width ' ') := by
    rw [Layout.marginOf,counted]
    rfl
  refine ⟨_,made,?_,?_,fun levels large => indented_overflows large text⟩
  · intro a b fits
    have first : Fits width a := fits.mono (Nat.le_add_right a b)
    have second : Fits width b := fits.mono (Nat.le_add_left b a)
    have sum : ((a : Int) + b) = ((a + b : Nat) : Int) := by push_cast; rfl
    have margins : List.replicate (b * width) ' ' ++ List.replicate (a * width) ' ' = List.replicate ((a + b) * width) ' ' := by
      rw [← List.replicate_add,← Nat.add_mul,Nat.add_comm]
    have behind := indented_fits second (String.ofList (indentBlock (List.replicate (a * width) ' ') text.toList))
    rw [String.toList_ofList,indentBlock_indentBlock (unbroken_spaces _) ends filled,margins] at behind
    rw [sum,indented_fits fits]
    exact bind_ok_iff.mpr ⟨_,indented_fits first text,behind⟩
  · intro levels fits
    refine ⟨_,indented_fits fits text,?_⟩
    have present : text.toList ≠ [] := by
      intro empty
      rw [empty] at ends
      cases ends
    rw [String.toList_ofList,splitOn_indentBlock (unbroken_spaces _) present,Nat.mul_comm]
    rfl

def listing : String := "\tfor\r\n \u2028\x0bend"

theorem indented_composes_listing : (indented [' ',' '] (.int 1) (.str listing) >>= indented [' ',' '] (.int 2)) =
      .ok (.str "      \tfor\n\n\n      end") ∧
    indented [' ',' '] (.int 3) (.str listing) = .ok (.str "      \tfor\n\n\n      end") := by
  have counted : Layout.repetitions (.int 2) = .ok 2 := rfl
  have fits : Fits 2 (1 + 2) := by
    unfold Fits
    decide
  obtain ⟨margin,made,composes,_⟩ := @indented_composes 2 listing ['e','n','d'] _ counted rfl rfl
  obtain rfl := Except.ok.inj made
  have once : indented [' ',' '] (.int 3) (.str listing) = .ok (.str "      \tfor\n\n\n      end") := rfl
  exact ⟨(composes 1 2 fits).trans once,once⟩

-- Without a margin each half of a count can be counted, and the whole one cannot.
theorem indented_counts_halves : (lines "x".toList).getLast? = some ['x'] ∧ isAllBlank ['x'] = false ∧
    Layout.marginOf (.int 0) = .ok [] ∧
    (indented [] (.int 0x4000000000000000) (.str "x") >>= indented [] (.int 0x4000000000000000)) = .ok (.str "x") ∧
    indented [] (.int (0x4000000000000000 + 0x4000000000000000)) (.str "x") = .error (.misuse .beyondRange) :=
  ⟨rfl,rfl,rfl,rfl,rfl⟩

end Template
end TypedMvc
