import SourceLens.Text.Utf8

/-!
# Reading back UTF-8

Reading the UTF-8 form of a text gives the text, whatever bytes follow it.
-/

namespace SourceLens.Utf8

theorem toNat_ofNat {n : Nat} (hn : n < 256) : (UInt8.ofNat n).toNat = n := by
  rw [UInt8.toNat_ofNat']
  omega

theorem decode_oneByte {n : Nat} (hn : n < 128) (rest : Bytes) :
    decode (UInt8.ofNat n :: rest) = Char.ofNat n :: decode rest := by
  have h : UInt8.ofNat n < 0x80 := by
    rw [UInt8.lt_iff_toNat_lt, toNat_ofNat (by omega)]
    exact hn
  rw [decode.eq_def]
  simp [h, toNat_ofNat (show n < 256 by omega)]

theorem isTail_ofNat {n : Nat} (hn : n < 64) : isTail (UInt8.ofNat (n + 128)) = true := by
  simp only [isTail, Bool.and_eq_true, decide_eq_true_eq, UInt8.le_iff_toNat_le,
    toNat_ofNat (show n + 128 < 256 by omega)]
  exact ⟨by simp, by simp; omega⟩

theorem payload_ofNat {n : Nat} (hn : n < 64) : payload (UInt8.ofNat (n + 128)) = n := by
  rw [payload, toNat_ofNat (by omega)]
  omega

theorem decode_twoBytes {a b : Nat} (ha : 2 ≤ a) (ha' : a < 32) (hb : b < 64) (rest : Bytes) :
    decode (UInt8.ofNat (a + 192) :: UInt8.ofNat (b + 128) :: rest)
      = Char.ofNat (a * 64 + b) :: decode rest := by
  have hn := toNat_ofNat (show a + 192 < 256 by omega)
  have h1 : ¬ UInt8.ofNat (a + 192) < 0x80 := by
    rw [UInt8.lt_iff_toNat_lt, hn]
    simp
  have h2 : (0xc2 ≤ UInt8.ofNat (a + 192) && UInt8.ofNat (a + 192) ≤ 0xdf) = true := by
    simp only [Bool.and_eq_true, decide_eq_true_eq, UInt8.le_iff_toNat_le, hn]
    exact ⟨by simp; omega, by simp; omega⟩
  have h3 : (a + 192) % 32 = a := by omega
  rw [decode.eq_def]
  simp only [h1, h2, if_false, if_true, isTail_ofNat hb, payload_ofNat hb, hn, h3]

theorem decode_threeBytes {a b c : Nat} (ha : a < 16) (hb : b < 64) (hc : c < 64)
    (h0 : a = 0 → 32 ≤ b) (h13 : a = 13 → b < 32) (rest : Bytes) :
    decode (UInt8.ofNat (a + 224) :: UInt8.ofNat (b + 128) :: UInt8.ofNat (c + 128) :: rest)
      = Char.ofNat ((a * 64 + b) * 64 + c) :: decode rest := by
  have hn := toNat_ofNat (show a + 224 < 256 by omega)
  have hm := toNat_ofNat (show b + 128 < 256 by omega)
  have h1 : ¬ UInt8.ofNat (a + 224) < 0x80 := by
    rw [UInt8.lt_iff_toNat_lt, hn]
    simp
  have h2 : (0xc2 ≤ UInt8.ofNat (a + 224) && UInt8.ofNat (a + 224) ≤ 0xdf) = false := by
    simp only [Bool.and_eq_false_iff, decide_eq_false_iff_not, UInt8.le_iff_toNat_le, hn]
    exact Or.inr (by simp)
  have h3 : (0xe0 ≤ UInt8.ofNat (a + 224) && UInt8.ofNat (a + 224) ≤ 0xef) = true := by
    simp only [Bool.and_eq_true, decide_eq_true_eq, UInt8.le_iff_toNat_le, hn]
    exact ⟨by simp, by simp; omega⟩
  have h4 : isSecondOfThree (UInt8.ofNat (a + 224)) (UInt8.ofNat (b + 128)) = true := by
    rw [isSecondOfThree]
    split
    · rename_i h
      have := congrArg UInt8.toNat h
      rw [hn] at this
      simp only [Bool.and_eq_true, decide_eq_true_eq, UInt8.le_iff_toNat_le, hm]
      simp at this ⊢
      omega
    · split
      · rename_i h
        have := congrArg UInt8.toNat h
        rw [hn] at this
        simp only [Bool.and_eq_true, decide_eq_true_eq, UInt8.le_iff_toNat_le, hm]
        simp at this ⊢
        omega
      · exact isTail_ofNat hb
  have h5 : (a + 224) % 16 = a := by omega
  rw [decode.eq_def]
  simp only [h1, h2, h3, h4, if_false, if_true, isTail_ofNat hc, payload_ofNat hb,
    payload_ofNat hc, hn, h5, Bool.false_eq_true]

theorem decode_fourBytes {a b c d : Nat} (ha : a < 5) (hb : b < 64) (hc : c < 64) (hd : d < 64)
    (h0 : a = 0 → 16 ≤ b) (h4 : a = 4 → b < 16) (rest : Bytes) :
    decode (UInt8.ofNat (a + 240) :: UInt8.ofNat (b + 128) :: UInt8.ofNat (c + 128)
        :: UInt8.ofNat (d + 128) :: rest)
      = Char.ofNat (((a * 64 + b) * 64 + c) * 64 + d) :: decode rest := by
  have hn := toNat_ofNat (show a + 240 < 256 by omega)
  have hm := toNat_ofNat (show b + 128 < 256 by omega)
  have h1 : ¬ UInt8.ofNat (a + 240) < 0x80 := by
    rw [UInt8.lt_iff_toNat_lt, hn]
    simp
  have h2 : (0xc2 ≤ UInt8.ofNat (a + 240) && UInt8.ofNat (a + 240) ≤ 0xdf) = false := by
    simp only [Bool.and_eq_false_iff, decide_eq_false_iff_not, UInt8.le_iff_toNat_le, hn]
    exact Or.inr (by simp)
  have h3 : (0xe0 ≤ UInt8.ofNat (a + 240) && UInt8.ofNat (a + 240) ≤ 0xef) = false := by
    simp only [Bool.and_eq_false_iff, decide_eq_false_iff_not, UInt8.le_iff_toNat_le, hn]
    exact Or.inr (by simp)
  have h5 : (0xf0 ≤ UInt8.ofNat (a + 240) && UInt8.ofNat (a + 240) ≤ 0xf4) = true := by
    simp only [Bool.and_eq_true, decide_eq_true_eq, UInt8.le_iff_toNat_le, hn]
    exact ⟨by simp, by simp; omega⟩
  have h6 : isSecondOfFour (UInt8.ofNat (a + 240)) (UInt8.ofNat (b + 128)) = true := by
    rw [isSecondOfFour]
    split
    · rename_i h
      have := congrArg UInt8.toNat h
      rw [hn] at this
      simp only [Bool.and_eq_true, decide_eq_true_eq, UInt8.le_iff_toNat_le, hm]
      simp at this ⊢
      omega
    · split
      · rename_i h
        have := congrArg UInt8.toNat h
        rw [hn] at this
        simp only [Bool.and_eq_true, decide_eq_true_eq, UInt8.le_iff_toNat_le, hm]
        simp at this ⊢
        omega
      · exact isTail_ofNat hb
  have h7 : (a + 240) % 8 = a := by omega
  rw [decode.eq_def]
  simp only [h1, h2, h3, h5, h6, if_false, if_true, isTail_ofNat hc, isTail_ofNat hd,
    payload_ofNat hb, payload_ofNat hc, payload_ofNat hd, hn, h7, Bool.false_eq_true]

theorem decode_encodeChar_append (c : Char) (rest : Bytes) :
    decode (String.utf8EncodeChar c ++ rest) = c :: decode rest := by
  have hvalid : c.val.toNat < 0xd800 ∨ 0xdfff < c.val.toNat ∧ c.val.toNat < 0x110000 := c.valid
  have hc : Char.ofNat c.val.toNat = c := Char.ofNat_toNat c
  rw [String.utf8EncodeChar]
  generalize c.val.toNat = v at *
  split
  · rw [List.singleton_append, decode_oneByte (by omega), hc]
  · split
    · rw [List.cons_append, List.singleton_append,
        decode_twoBytes (by omega) (by omega) (by omega)]
      rw [show v / 64 % 32 * 64 + v % 64 = v by omega, hc]
    · split
      · rw [List.cons_append, List.cons_append, List.singleton_append,
          decode_threeBytes (by omega) (by omega) (by omega) (by omega) (by omega)]
        rw [show (v / 4096 % 16 * 64 + v / 64 % 64) * 64 + v % 64 = v by omega, hc]
      · rw [List.cons_append, List.cons_append, List.cons_append, List.singleton_append,
          decode_fourBytes (by omega) (by omega) (by omega) (by omega) (by omega) (by omega)]
        rw [show ((v / 262144 % 8 * 64 + v / 4096 % 64) * 64 + v / 64 % 64) * 64 + v % 64 = v by
          omega, hc]

theorem decode_encode_append (text : Text) (rest : Bytes) :
    decode (encode text ++ rest) = text ++ decode rest := by
  induction text with
  | nil => rfl
  | cons c text ih =>
    rw [encode, List.flatMap_cons, List.append_assoc, decode_encodeChar_append]
    rw [encode] at ih
    rw [ih, List.cons_append]

theorem decode_encode (text : Text) : decode (encode text) = text := by
  have h := decode_encode_append text []
  rwa [List.append_nil, show decode [] = [] from rfl, List.append_nil] at h

theorem encode_append (a b : Text) : encode (a ++ b) = encode a ++ encode b := by
  simp [encode]

end SourceLens.Utf8
