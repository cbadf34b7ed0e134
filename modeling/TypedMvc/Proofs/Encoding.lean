import TypedMvc.Text.Basic

namespace TypedMvc.Text

theorem toList_toByteArray (bytes : List UInt8) : bytes.toByteArray.toList = bytes := by
  -- from any byte on, the loop collects what is left
  have loop : ∀ (b : ByteArray) (i : Nat) (seen : List UInt8),
      ByteArray.toList.loop b i seen = seen.reverse ++ b.data.toList.drop i := by
    intro b i seen
    fun_induction ByteArray.toList.loop b i seen with
    | case1 i seen inside ih =>
      have byte : b.get! i = b.data.toList[i] := by
        rw [Array.getElem_toList]
        exact getElem!_pos b.data i inside
      rw [ih,List.drop_eq_getElem_cons (i := i) (by simpa using inside),byte,List.reverse_cons,List.append_assoc]
      rfl
    | case2 i seen past =>
      have size : b.data.toList.length ≤ i := Nat.le_of_not_lt past
      rw [List.drop_eq_nil_of_le size,List.append_nil]
  rw [ByteArray.toList,loop,List.data_toByteArray]
  rfl

theorem encodeUtf8_ofList (cs : List Char) : encodeUtf8 (String.ofList cs) = cs.flatMap String.utf8EncodeChar := by
  rw [encodeUtf8,String.toUTF8,String.toByteArray_ofList,List.utf8Encode,toList_toByteArray]

theorem toNat_byte {n : Nat} (small : n < 256) : (UInt8.ofNat n).toNat = n := by
  simp
  omega

theorem continuations_ok {low high : UInt8} {count point n whole : Nat} {rest : List UInt8}
    (above : low.toNat ≤ n % 64 + 128) (below : n % 64 + 128 ≤ high.toNat)
    (after : continuations 0x80 0xBF count (point * 64 + n % 64) rest = .ok whole) :
    continuations low high (count + 1) point (UInt8.ofNat (n % 64 + 128) :: rest) = .ok whole := by
  have byte : (UInt8.ofNat (n % 64 + 128)).toNat = n % 64 + 128 := toNat_byte (by omega)
  have digit : (n % 64 + 128) % 64 = n % 64 := by omega
  have within : low ≤ UInt8.ofNat (n % 64 + 128) ∧ UInt8.ofNat (n % 64 + 128) ≤ high := by
    rw [UInt8.le_iff_toNat_le,UInt8.le_iff_toNat_le,byte]
    exact ⟨above,below⟩
  rw [continuations,if_pos within,byte,digit,after]

-- The first byte of a sequence tells its length. The bounds for the byte after it keep overlong forms and surrogates out,
-- so a character stays within them.
theorem sequenceShape_two {n : Nat} (above : 0x80 ≤ n) (below : n ≤ 0x7FF) :
    sequenceShape? (UInt8.ofNat (n / 64 % 32 + 192)) = some (0x80,0xBF,1) := by
  have byte : (UInt8.ofNat (n / 64 % 32 + 192)).toNat = n / 64 % 32 + 192 := toNat_byte (by omega)
  have within : 0xC2 ≤ UInt8.ofNat (n / 64 % 32 + 192) ∧ UInt8.ofNat (n / 64 % 32 + 192) ≤ 0xDF := by
    rw [UInt8.le_iff_toNat_le,UInt8.le_iff_toNat_le,byte]
    change 0xC2 ≤ _ ∧ _ ≤ 0xDF
    omega
  rw [sequenceShape?,if_pos within]

theorem sequenceShape_three {n : Nat} (above : 0x800 ≤ n) (below : n ≤ 0xFFFF) (whole : n < 0xD800 ∨ 0xDFFF < n) :
    ∃ low high, sequenceShape? (UInt8.ofNat (n / 4096 % 16 + 224)) = some (low,high,2) ∧
      low.toNat ≤ n / 64 % 64 + 128 ∧ n / 64 % 64 + 128 ≤ high.toNat := by
  have byte : (UInt8.ofNat (n / 4096 % 16 + 224)).toNat = n / 4096 % 16 + 224 := toNat_byte (by omega)
  simp only [sequenceShape?,UInt8.le_iff_toNat_le,← UInt8.toNat_inj,byte,UInt8.reduceToNat]
  split
  · omega
  split
  · exact ⟨_,_,rfl,by simp; omega,by simp; omega⟩
  split
  · exact ⟨_,_,rfl,by simp,by simp; omega⟩
  split
  · exact ⟨_,_,rfl,by simp,by simp; omega⟩
  · omega

theorem sequenceShape_four {n : Nat} (above : 0x10000 ≤ n) (below : n < 0x110000) :
    ∃ low high, sequenceShape? (UInt8.ofNat (n / 262144 % 8 + 240)) = some (low,high,3) ∧
      low.toNat ≤ n / 4096 % 64 + 128 ∧ n / 4096 % 64 + 128 ≤ high.toNat := by
  have byte : (UInt8.ofNat (n / 262144 % 8 + 240)).toNat = n / 262144 % 8 + 240 := toNat_byte (by omega)
  simp only [sequenceShape?,UInt8.le_iff_toNat_le,← UInt8.toNat_inj,byte,UInt8.reduceToNat]
  split
  · omega
  split
  · omega
  split
  · omega
  split
  · omega
  split
  · exact ⟨_,_,rfl,by simp; omega,by simp; omega⟩
  split
  · exact ⟨_,_,rfl,by simp,by simp; omega⟩
  split
  · exact ⟨_,_,rfl,by simp,by simp; omega⟩
  · omega

theorem decodeFrom_sequence {first : UInt8} {low high : UInt8} {count whole fuel offset : Nat} {rest after : List UInt8}
    {seen : List Char} (long : 0x80 ≤ first.toNat) (shape : sequenceShape? first = some (low,high,count))
    (continued : continuations low high count (payload first count) rest = .ok whole) (left : rest.drop count = after) :
    decodeFrom (fuel + 1) offset (first :: rest) seen =
      decodeFrom fuel (offset + 1 + count) after (Char.ofNat whole :: seen) := by
  have multiple : ¬ first < 0x80 := by
    rw [UInt8.lt_iff_toNat_lt]
    change ¬ _ < 0x80
    omega
  rw [decodeFrom,if_neg multiple,shape]
  simp only [continued,left]

section

variable {n : Nat} {fuel offset : Nat} {rest : List UInt8} {seen : List Char}

theorem decodeFrom_one (below : n ≤ 0x7F) :
    decodeFrom (fuel + 1) offset (UInt8.ofNat n :: rest) seen = decodeFrom fuel (offset + 1) rest (Char.ofNat n :: seen) := by
  have byte : (UInt8.ofNat n).toNat = n := toNat_byte (by omega)
  have single : UInt8.ofNat n < 0x80 := by
    rw [UInt8.lt_iff_toNat_lt,byte]
    change _ < 0x80
    omega
  rw [decodeFrom,if_pos single,byte]

theorem decodeFrom_two (above : 0x80 ≤ n) (below : n ≤ 0x7FF) :
    decodeFrom (fuel + 1) offset (UInt8.ofNat (n / 64 % 32 + 192) :: UInt8.ofNat (n % 64 + 128) :: rest) seen =
      decodeFrom fuel (offset + 1 + 1) rest (Char.ofNat n :: seen) := by
  have byte : (UInt8.ofNat (n / 64 % 32 + 192)).toNat = n / 64 % 32 + 192 := toNat_byte (by omega)
  have first : payload (UInt8.ofNat (n / 64 % 32 + 192)) 1 = n / 64 := by
    rw [payload,byte]
    omega
  refine decodeFrom_sequence (by omega) (sequenceShape_two above below) (continuations_ok (by simp) (by simp; omega) ?_) rfl
  rw [first,continuations]
  congr 1
  omega

theorem decodeFrom_three (above : 0x800 ≤ n) (below : n ≤ 0xFFFF) (whole : n < 0xD800 ∨ 0xDFFF < n) :
    decodeFrom (fuel + 1) offset (UInt8.ofNat (n / 4096 % 16 + 224) :: UInt8.ofNat (n / 64 % 64 + 128) ::
        UInt8.ofNat (n % 64 + 128) :: rest) seen =
      decodeFrom fuel (offset + 1 + 2) rest (Char.ofNat n :: seen) := by
  have byte : (UInt8.ofNat (n / 4096 % 16 + 224)).toNat = n / 4096 % 16 + 224 := toNat_byte (by omega)
  have first : payload (UInt8.ofNat (n / 4096 % 16 + 224)) 2 = n / 4096 := by
    rw [payload,byte]
    omega
  obtain ⟨low,high,shape,least,most⟩ := sequenceShape_three above below whole
  refine decodeFrom_sequence (by omega) shape
    (continuations_ok least most (continuations_ok (by simp) (by simp; omega) ?_)) rfl
  rw [first,continuations]
  congr 1
  omega

theorem decodeFrom_four (above : 0x10000 ≤ n) (below : n < 0x110000) :
    decodeFrom (fuel + 1) offset (UInt8.ofNat (n / 262144 % 8 + 240) :: UInt8.ofNat (n / 4096 % 64 + 128) ::
        UInt8.ofNat (n / 64 % 64 + 128) :: UInt8.ofNat (n % 64 + 128) :: rest) seen =
      decodeFrom fuel (offset + 1 + 3) rest (Char.ofNat n :: seen) := by
  have byte : (UInt8.ofNat (n / 262144 % 8 + 240)).toNat = n / 262144 % 8 + 240 := toNat_byte (by omega)
  have first : payload (UInt8.ofNat (n / 262144 % 8 + 240)) 3 = n / 262144 := by
    change UInt8.toNat _ % 8 = _
    rw [byte]
    omega
  obtain ⟨low,high,shape,least,most⟩ := sequenceShape_four above below
  refine decodeFrom_sequence (by omega) shape
    (continuations_ok least most (continuations_ok (by simp) (by simp; omega)
      (continuations_ok (by simp) (by simp; omega) ?_))) rfl
  rw [first,continuations]
  congr 1
  omega

theorem decodeFrom_char (c : Char) (fuel offset : Nat) (rest : List UInt8) (seen : List Char) :
    ∃ next, decodeFrom (fuel + 1) offset (String.utf8EncodeChar c ++ rest) seen = decodeFrom fuel next rest (c :: seen) := by
  have valid : c.toNat < 0xD800 ∨ 0xDFFF < c.toNat ∧ c.toNat < 0x110000 := c.valid
  have same : c.val.toNat = c.toNat := rfl
  have step : ∃ next, decodeFrom (fuel + 1) offset (String.utf8EncodeChar c ++ rest) seen =
      decodeFrom fuel next rest (Char.ofNat c.toNat :: seen) := by
    simp only [String.utf8EncodeChar,same]
    split
    · exact ⟨_,decodeFrom_one ‹_›⟩
    split
    · exact ⟨_,decodeFrom_two (by omega) ‹_›⟩
    split
    · exact ⟨_,decodeFrom_three (by omega) ‹_› (by omega)⟩
    · exact ⟨_,decodeFrom_four (by omega) (by omega)⟩
  rwa [Char.ofNat_toNat] at step

end

theorem decodeFrom_encoded (cs : List Char) (fuel offset : Nat) (seen : List Char)
    (enough : (cs.flatMap String.utf8EncodeChar).length ≤ fuel) :
    decodeFrom fuel offset (cs.flatMap String.utf8EncodeChar) seen = .ok (seen.reverse ++ cs) := by
  induction cs generalizing fuel offset seen with
  | nil => cases fuel <;> simp [decodeFrom]
  | cons c cs ih =>
    have bytes := List.length_pos_iff.mpr (String.utf8EncodeChar_ne_nil (c := c))
    rw [List.flatMap_cons,List.length_append] at enough
    obtain ⟨fuel,rfl⟩ : ∃ left, fuel = left + 1 := ⟨fuel - 1,by omega⟩
    obtain ⟨next,decoded⟩ := decodeFrom_char c fuel offset (cs.flatMap String.utf8EncodeChar) seen
    rw [List.flatMap_cons,decoded,ih fuel next (c :: seen) (by omega)]
    simp

theorem decodeUtf8_encodeUtf8 (text : String) : decodeUtf8 (encodeUtf8 text) = .ok text := by
  rw [← String.ofList_toList (s := text),encodeUtf8_ofList,decodeUtf8,decodeFrom_encoded _ _ _ _ (Nat.le_refl _)]
  rfl

theorem universalNewlines_of_free {cs : List Char} (free : '\r' ∉ cs) : universalNewlines cs = cs := by
  induction cs with
  | nil => rfl
  | cons c cs ih =>
    have rest := ih fun member => free (List.mem_cons_of_mem c member)
    unfold universalNewlines
    split <;> simp_all

end TypedMvc.Text
