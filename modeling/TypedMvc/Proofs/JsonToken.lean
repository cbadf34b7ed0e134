import Mathlib.Data.List.TakeDrop
import TypedMvc.Json.Reader
import TypedMvc.Json.Writer

namespace TypedMvc.Json

open Text

theorem hexDigit?_digitChar : ∀ d < 16, hexDigit? (Nat.digitChar d) = some d := by decide

theorem hex_four {n : Nat} (small : n < 0x10000) :
    (hex 4 n).toList = [(n / 4096).digitChar,(n / 256 % 16).digitChar,(n / 16 % 16).digitChar,(n % 16).digitChar] := by
  have digits : ∀ n, Nat.toDigits 16 n = if n < 16 then [n.digitChar] else Nat.toDigits 16 (n / 16) ++ [(n % 16).digitChar] :=
    fun n => Nat.toDigits_eq_if (by decide)
  unfold hex padLeft
  rw [String.toList_append,String.toList_ofList,String.toList_ofList,String.length_ofList,digits n]
  split
  · have parts : n / 4096 = 0 ∧ n / 256 = 0 ∧ n / 16 = 0 ∧ n % 16 = n := by omega
    rw [parts.1,parts.2.1,parts.2.2.1,parts.2.2.2]
    rfl
  rw [digits (n / 16),Nat.div_div_eq_div_mul]
  split
  · have parts : n / 4096 = 0 ∧ n / 256 = 0 ∧ n / 16 % 16 = n / 16 := by omega
    rw [parts.1,parts.2.1,parts.2.2]
    rfl
  rw [digits (n / (16 * 16)),Nat.div_div_eq_div_mul]
  split
  · have parts : n / 4096 = 0 ∧ n / 256 % 16 = n / 256 := by omega
    rw [parts.1,parts.2]
    rfl
  rw [digits (n / (16 * 16 * 16)),if_pos (by omega)]
  rfl

theorem hex4?_digits {n : Nat} (small : n < 0x10000) :
    hex4? (n / 4096).digitChar (n / 256 % 16).digitChar (n / 16 % 16).digitChar (n % 16).digitChar = some n := by
  simp only [hex4?,hexDigit?_digitChar _ (show n / 4096 < 16 by omega),hexDigit?_digitChar _ (Nat.mod_lt _ (by decide : 16 > 0))]
  congr 1
  omega

theorem unitChar_toNat {c : Char} (small : c.toNat < 0x10000) :
    isHighSurrogate c.toNat = false ∧ unitChar c.toNat = c := by
  have valid : c.toNat < 0xD800 ∨ 0xDFFF < c.toNat ∧ c.toNat < 0x110000 := c.valid
  have high : isHighSurrogate c.toNat = false := by
    unfold isHighSurrogate
    simp
    omega
  have low : isLowSurrogate c.toNat = false := by
    unfold isLowSurrogate
    simp
    omega
  refine ⟨high,?_⟩
  rw [unitChar,high,low]
  exact Char.ofNat_toNat c

variable {opened rest : List Char} {a b c d : Char} {unit : Nat}

theorem stringBody_unit {next : Char} (digits : hex4? a b c d = some unit) (single : isHighSurrogate unit = false) :
    stringBody opened ('\\' :: 'u' :: a :: b :: c :: d :: next :: rest) =
      prepend (unitChar unit) (stringBody opened (next :: rest)) := by
  -- another unit may follow, and is looked at only after a high surrogate
  by_cases paired : ∃ e f g h after tail, next = '\\' ∧ rest = 'u' :: e :: f :: g :: h :: after :: tail
  · obtain ⟨e,f,g,h,after,tail,rfl,rfl⟩ := paired
    rw [stringBody]
    simp only [digits,single,Bool.false_eq_true,if_false]
  · rw [stringBody]
    · simp only [digits]
    · rintro e f g h after tail rfl rfl
      exact paired ⟨e,f,g,h,after,tail,rfl,rfl⟩

theorem stringBody_pair {next e f g h : Char} {low : Nat} (first : hex4? a b c d = some unit) (second : hex4? e f g h = some low)
    (high : isHighSurrogate unit = true) (paired : isLowSurrogate low = true) :
    stringBody opened ('\\' :: 'u' :: a :: b :: c :: d :: '\\' :: 'u' :: e :: f :: g :: h :: next :: rest) =
      prepend (joinSurrogates unit low) (stringBody opened (next :: rest)) := by
  rw [stringBody]
  simp only [first,second,high,paired,if_true]

theorem stringBody_escape {e : Char} (single : e ≠ 'u') (short : shortEscape? e = some c) :
    stringBody opened ('\\' :: e :: rest) = prepend c (stringBody opened rest) := by
  rw [stringBody]
  · simp only [short]
  all_goals
    intros
    contradiction

theorem stringBody_plain (visible : 0x1F < c.toNat) (unquoted : c ≠ '"') (unescaped : c ≠ '\\') :
    stringBody opened (c :: rest) = prepend c (stringBody opened rest) := by
  rw [stringBody]
  · rw [if_neg (by omega)]
  all_goals
    intros
    contradiction

-- A character is written behind a backslash, as itself, as one unit or as two.
theorem escapeChar_cases (c : Char) :
    (∃ e, e ≠ 'u' ∧ shortEscape? e = some c ∧ (escapeChar c).toList = ['\\',e]) ∨
    (c ≠ '"' ∧ c ≠ '\\' ∧ 0x20 ≤ c.toNat ∧ c.toNat ≤ 0x7E ∧ (escapeChar c).toList = [c]) ∨
    (c.toNat < 0x10000 ∧ escapeChar c = escapeUnit c.toNat) ∨
    (0x10000 ≤ c.toNat ∧ escapeChar c =
      escapeUnit (0xD800 + (c.toNat - 0x10000) / 0x400) ++ escapeUnit (0xDC00 + (c.toNat - 0x10000) % 0x400)) := by
  have short : ∀ e d : Char, c = d → e ≠ 'u' → shortEscape? e = some d → (escapeChar d).toList = ['\\',e] →
      ∃ e, e ≠ 'u' ∧ shortEscape? e = some c ∧ (escapeChar c).toList = ['\\',e] := by
    rintro e d rfl single known written
    exact ⟨e,single,known,written⟩
  have ofNat : ∀ n, c.toNat = n → c = Char.ofNat n := by
    rintro _ rfl
    exact (Char.ofNat_toNat c).symm
  by_cases quote : c = '"'
  · exact .inl (short '"' _ quote (by decide) rfl rfl)
  by_cases backslash : c = '\\'
  · exact .inl (short '\\' _ backslash (by decide) rfl rfl)
  by_cases feed : c = '\n'
  · exact .inl (short 'n' _ feed (by decide) rfl rfl)
  by_cases back : c = '\r'
  · exact .inl (short 'r' _ back (by decide) rfl rfl)
  by_cases tab : c = '\t'
  · exact .inl (short 't' _ tab (by decide) rfl rfl)
  by_cases eight : c.toNat = 8
  · exact .inl (short 'b' _ (ofNat 8 eight) (by decide) rfl rfl)
  by_cases twelve : c.toNat = 12
  · exact .inl (short 'f' _ (ofNat 12 twelve) (by decide) rfl rfl)
  simp only [escapeChar,quote,backslash,feed,back,tab,eight,twelve,if_false]
  by_cases visible : 0x20 ≤ c.toNat ∧ c.toNat ≤ 0x7E
  · rw [if_pos visible]
    exact .inr (.inl ⟨quote,backslash,visible.1,visible.2,String.toList_singleton c⟩)
  rw [if_neg visible]
  by_cases small : c.toNat < 0x10000
  · rw [if_pos small]
    exact .inr (.inr (.inl ⟨small,rfl⟩))
  · rw [if_neg small]
    exact .inr (.inr (.inr ⟨Nat.le_of_not_lt small,rfl⟩))

def Legible (c : Char) : Prop := c = '\n' ∨ 0x20 ≤ c.toNat ∧ c.toNat ≤ 0x7E

instance (c : Char) : Decidable (Legible c) := inferInstanceAs (Decidable (_ ∨ _))

theorem legible_all {cs : List Char} (each : cs.all (fun c => decide (Legible c)) = true) : ∀ c ∈ cs, Legible c := by
  simpa using each

theorem legible_digitChar : ∀ d < 16, Legible (Nat.digitChar d) := by decide

theorem toList_escapeUnit {n : Nat} (small : n < 0x10000) : (escapeUnit n).toList =
    ['\\','u',(n / 4096).digitChar,(n / 256 % 16).digitChar,(n / 16 % 16).digitChar,(n % 16).digitChar] := by
  rw [escapeUnit,String.toList_append,hex_four small]
  rfl

theorem legible_escapeUnit {n : Nat} (small : n < 0x10000) : ∀ c ∈ (escapeUnit n).toList, Legible c := by
  rw [toList_escapeUnit small]
  simp only [List.forall_mem_cons]
  exact ⟨by decide,by decide,legible_digitChar _ (by omega),legible_digitChar _ (by omega),legible_digitChar _ (by omega),
    legible_digitChar _ (by omega),fun _ member => absurd member List.not_mem_nil⟩

theorem legible_escapeChar (d : Char) : ∀ c ∈ (escapeChar d).toList, Legible c := by
  have valid : d.toNat < 0xD800 ∨ 0xDFFF < d.toNat ∧ d.toNat < 0x110000 := d.valid
  obtain ⟨e,_,short,written⟩ | ⟨_,_,least,most,written⟩ | ⟨small,written⟩ | ⟨large,written⟩ := escapeChar_cases d
  · rw [written]
    have legible : Legible e := by
      unfold shortEscape? at short
      split at short
      case h_9 => cases short
      all_goals decide
    simp [legible]
    decide
  · rw [written]
    simp only [List.mem_singleton,forall_eq]
    exact .inr ⟨least,most⟩
  · rw [written]
    exact legible_escapeUnit small
  · rw [written,String.toList_append]
    exact List.forall_mem_append.mpr ⟨legible_escapeUnit (by omega),legible_escapeUnit (by omega)⟩

theorem stringBody_escapeChar (c next : Char) :
    stringBody opened ((escapeChar c).toList ++ next :: rest) = prepend c (stringBody opened (next :: rest)) := by
  have valid : c.toNat < 0xD800 ∨ 0xDFFF < c.toNat ∧ c.toNat < 0x110000 := c.valid
  obtain ⟨e,single,short,written⟩ | ⟨unquoted,unescaped,visible,_,written⟩ | ⟨small,written⟩ | ⟨large,written⟩ :=
    escapeChar_cases c
  · rw [written]
    exact stringBody_escape single short
  · rw [written]
    exact stringBody_plain (by omega) unquoted unescaped
  · obtain ⟨single,same⟩ := unitChar_toNat small
    rw [written,toList_escapeUnit small]
    exact (stringBody_unit (hex4?_digits small) single).trans (by rw [same])
  · have high : 0xD800 + (c.toNat - 0x10000) / 0x400 < 0x10000 := by omega
    have low : 0xDC00 + (c.toNat - 0x10000) % 0x400 < 0x10000 := by omega
    have joined : joinSurrogates (0xD800 + (c.toNat - 0x10000) / 0x400) (0xDC00 + (c.toNat - 0x10000) % 0x400) = c := by
      have value : 0x10000 + (0xD800 + (c.toNat - 0x10000) / 0x400 - 0xD800) * 0x400 +
          (0xDC00 + (c.toNat - 0x10000) % 0x400 - 0xDC00) = c.toNat := by omega
      rw [joinSurrogates,value,Char.ofNat_toNat]
    rw [written,String.toList_append,toList_escapeUnit high,toList_escapeUnit low]
    refine (stringBody_pair (hex4?_digits high) (hex4?_digits low) ?_ ?_).trans (by rw [joined])
    · simp [isHighSurrogate]
      omega
    · simp [isLowSurrogate]
      omega

theorem stringBody_written (cs : List Char) :
    stringBody opened (cs.flatMap (fun c => (escapeChar c).toList) ++ '"' :: rest) = .ok (cs,rest) := by
  induction cs with
  | nil => rfl
  | cons c cs ih =>
    obtain ⟨next,tail,after⟩ : ∃ next tail, cs.flatMap (fun c => (escapeChar c).toList) ++ '"' :: rest = next :: tail :=
      List.exists_cons_of_ne_nil (by simp)
    rw [List.flatMap_cons,List.append_assoc,after,stringBody_escapeChar,← after,ih]
    rfl

theorem toList_stringText (s : String) :
    (stringText s).toList = '"' :: (s.toList.flatMap (fun c => (escapeChar c).toList) ++ ['"']) := by
  rw [stringText,String.toList_append,String.toList_append,String.toList_join,List.flatMap_map]
  rfl

theorem legible_stringText (s : String) : ∀ c ∈ (stringText s).toList, Legible c := by
  have quote : Legible '"' := by decide
  rw [toList_stringText]
  refine List.forall_mem_cons.mpr ⟨quote,List.forall_mem_append.mpr ⟨?_,by simpa using quote⟩⟩
  intro c member
  obtain ⟨d,_,written⟩ := List.mem_flatMap.mp member
  exact legible_escapeChar d c written

theorem digit_ne {c d : Char} (digit : isDigit c = true) (other : isDigit d = false) : c ≠ d := by
  rintro rfl
  rw [digit] at other
  cases other

theorem isDigit_decimal {n : Nat} {c : Char} (member : c ∈ (decimal n).toList) : isDigit c = true := by
  rw [decimal,Nat.toList_repr] at member
  exact Nat.isDigit_of_mem_toDigits (by decide) (by decide) member

theorem decimal_head (n : Nat) : ∃ first more, (decimal n).toList = first :: more ∧ isDigit first = true := by
  obtain ⟨first,more,digits⟩ := List.exists_cons_of_ne_nil (l := (decimal n).toList) (by
    rw [decimal,Nat.toList_repr]
    exact Nat.toDigits_ne_nil)
  exact ⟨first,more,digits,isDigit_decimal (n := n) (by simp [digits])⟩

theorem ofDigits_decimal (n : Nat) : ofDigits 10 ((decimal n).toList.map digitOf) = n := by
  have same : (fun (sofar : Nat) (c : Char) => 10 * sofar + (c.toNat - '0'.toNat)) = fun n c => n * 10 + digitOf c := by
    funext sofar c
    rw [digitOf,Nat.mul_comm]
  rw [ofDigits,List.foldl_map,decimal,Nat.toList_repr,← same,← Nat.ofDigitChars_eq_foldl,Nat.ofDigitChars_ten_toDigits]

theorem length_decimal_le {n : Nat} (short : n < Binary64.tenTo digitLimit) : (decimal n).toList.length ≤ digitLimit := by
  have bound : ∀ k, 0 < k → n < Binary64.tenTo k → (Nat.toDigits 10 n).length ≤ k :=
    fun k some => (Nat.length_toDigits_le_iff (by decide) some).mpr
  rw [decimal,Nat.toList_repr]
  exact bound digitLimit (by decide) short

theorem decimal_zero {n : Nat} {tail : List Char} (zero : (decimal n).toList = '0' :: tail) : n = 0 := by
  rw [decimal,Nat.toList_repr] at zero
  induction n using Nat.strongRecOn generalizing tail with
  | ind n ih =>
    rw [Nat.toDigits_eq_if (by decide)] at zero
    split at zero
    · exact Nat.digitChar_eq_zero.mp (List.cons.inj zero).1
    · obtain ⟨first,more,digits⟩ := List.exists_cons_of_ne_nil (Nat.toDigits_ne_nil (n := n / 10) (b := 10))
      rw [digits] at zero
      obtain ⟨rfl,_⟩ := List.cons.inj zero
      have none := ih (n / 10) (by omega) digits
      omega

theorem legible_integerText (i : Int) : ∀ c ∈ (integerText i).toList, Legible c := by
  have digits : ∀ c ∈ (decimal i.natAbs).toList, Legible c := by
    intro c member
    have digit := isDigit_decimal member
    simp only [isDigit,Bool.and_eq_true,decide_eq_true_eq,Char.le_def,UInt32.le_iff_toNat_le] at digit
    exact .inr ⟨Nat.le_trans (by decide) digit.1,Nat.le_trans digit.2 (by decide)⟩
  unfold integerText
  split
  · rw [String.toList_append]
    exact List.forall_mem_append.mpr ⟨legible_all rfl,digits⟩
  · exact digits

theorem integerText_head (i : Int) :
    ∃ first more, (integerText i).toList = first :: more ∧ isSpace first = false ∧ first ≠ ']' := by
  obtain ⟨first,more,digits,digit⟩ := decimal_head i.natAbs
  unfold integerText
  split
  · exact ⟨_,_,String.toList_append.trans rfl,by decide,by decide⟩
  · have visible : isSpace first = false := by
      simp only [isSpace,Bool.or_eq_false_iff,beq_eq_false_iff_ne]
      exact ⟨⟨⟨digit_ne digit rfl,digit_ne digit rfl⟩,digit_ne digit rfl⟩,digit_ne digit rfl⟩
    exact ⟨first,more,digits,visible,digit_ne digit rfl⟩

-- What follows a number must not go on with it.
def Stops (rest : List Char) : Prop :=
  ∀ c tail, rest = c :: tail → isDigit c = false ∧ c ≠ '.' ∧ c ≠ 'e' ∧ c ≠ 'E'

theorem numberFrom_decimal (negative : Bool) {n : Nat} {rest : List Char} (short : n < Binary64.tenTo digitLimit)
    (stops : Stops rest) :
    numberFrom negative (decimal n).toList rest = .ok (.int (withSign negative n),rest) := by
  have whole : fraction rest = ([],rest) := by
    unfold fraction
    split
    · exact absurd rfl (stops _ _ rfl).2.1
    · rfl
  have unscaled : exponent rest = (none,rest) := by
    unfold exponent
    split <;> first | rfl | simp [(stops _ _ rfl).2.2]
  have allowed : ¬ digitLimit < (decimal n).toList.length := Nat.not_lt.mpr (length_decimal_le short)
  simp only [numberFrom,whole,unscaled,List.isEmpty_nil,Option.isNone_none,Bool.and_self,if_true,if_neg allowed,ofDigits_decimal]

theorem span_decimal {n : Nat} {rest : List Char} (stops : Stops rest) :
    ((decimal n).toList ++ rest).span isDigit = ((decimal n).toList,rest) := by
  have left : rest.takeWhile isDigit = [] ∧ rest.dropWhile isDigit = rest := by
    cases rest with
    | nil => exact ⟨rfl,rfl⟩
    | cons c tail => simp [(stops c tail rfl).1]
  rw [List.span_eq_takeWhile_dropWhile,List.takeWhile_append_of_pos fun _ => isDigit_decimal,
    List.dropWhile_append_of_pos fun _ => isDigit_decimal,left.1,left.2,List.append_nil]

theorem unsigned_decimal (start : List Char) (negative : Bool) {n : Nat} {rest : List Char}
    (short : n < Binary64.tenTo digitLimit) (stops : Stops rest) :
    unsigned start negative ((decimal n).toList ++ rest) = .ok (.int (withSign negative n),rest) := by
  have read := numberFrom_decimal negative short stops
  obtain ⟨first,more,digits,digit⟩ := decimal_head n
  by_cases zero : first = '0'
  · subst zero
    obtain rfl := decimal_zero digits
    exact read
  · have split := span_decimal (n := n) stops
    rw [digits] at split read ⊢
    rw [List.cons_append] at split ⊢
    rw [unsigned]
    · rw [if_pos digit]
      simp only [split,read]
    · exact zero

theorem number_integerText {i : Int} {rest : List Char} (short : i.natAbs < Binary64.tenTo digitLimit) (stops : Stops rest) :
    number ((integerText i).toList ++ rest) = .ok (.int i,rest) := by
  unfold integerText
  split
  · rename_i negative
    have value : withSign true i.natAbs = i := by
      rw [withSign,if_pos rfl]
      omega
    rw [String.toList_append,List.append_assoc]
    exact (unsigned_decimal _ _ short stops).trans (by rw [value])
  · rename_i positive
    have value : withSign false i.natAbs = i := by
      rw [withSign,if_neg (by decide)]
      omega
    obtain ⟨first,more,digits,digit⟩ := decimal_head i.natAbs
    have read := unsigned_decimal ((decimal i.natAbs).toList ++ rest) false short stops
    rw [digits,List.cons_append] at read ⊢
    rw [number,read,value]
    rintro tail ⟨⟩
    exact absurd digit (by decide)

theorem word_digit {c : Char} {rest : List Char} (digit : isDigit c = true) : word (c :: rest) = none := by
  rw [word]
  all_goals
    rintro tail same
    exact digit_ne digit rfl (List.cons.inj same).1

theorem word_negative {c : Char} {rest : List Char} (digit : isDigit c = true) : word ('-' :: c :: rest) = none := by
  rw [word]
  all_goals rintro tail ⟨⟩
  -- only an infinity begins with a sign
  exact absurd digit (by decide)

end TypedMvc.Json
