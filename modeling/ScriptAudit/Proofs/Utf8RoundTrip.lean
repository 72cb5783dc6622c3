import ScriptAudit.Text.Utf8

/-! The bytes of characters are read back as those characters. A first byte tells how many bytes
follow. Its bounds for the second one leave out only what no character is written as: numbers that
fit into fewer bytes, surrogates, and what is beyond the last character. -/

namespace ScriptAudit.Utf8

variable {n acc d k : Nat}

theorem toNat_ofNat_add (hd : d < 64) : (UInt8.ofNat (d + 128)).toNat = d + 128 := by
  rw [UInt8.toNat_ofNat']
  omega

theorem continuation_cons (hd : d < 64) (rest : List UInt8) :
    continuation (n + 1) acc (UInt8.ofNat (d + 128) :: rest) =
      continuation n (64 * acc + d) rest := by
  have hcontinues : isContinuation (UInt8.ofNat (d + 128)) = true := by
    simp only [isContinuation, Bool.and_eq_true, decide_eq_true_eq, UInt8.le_iff_toNat_le,
      UInt8.lt_iff_toNat_lt, toNat_ofNat_add hd]
    exact ⟨by simp, by simp; omega⟩
  rw [continuation, if_pos hcontinues, toNat_ofNat_add hd]
  congr 2
  omega

theorem lead_of_two : ∀ k < 32, 2 ≤ k →
    lead (UInt8.ofNat (k + 192)) = some (1, 0x80, 0xBF) ∧
    leadBits 1 (UInt8.ofNat (k + 192)) = k := by
  decide

theorem lead_of_three : ∀ k < 16,
    lead (UInt8.ofNat (k + 224)) =
      some (2, if k = 0 then 0xA0 else 0x80, if k = 13 then 0x9F else 0xBF) ∧
    leadBits 2 (UInt8.ofNat (k + 224)) = k := by
  decide

theorem lead_of_four : ∀ k < 5,
    lead (UInt8.ofNat (k + 240)) =
      some (3, if k = 0 then 0x90 else 0x80, if k = 4 then 0x8F else 0xBF) ∧
    leadBits 3 (UInt8.ofNat (k + 240)) = k := by
  decide

theorem next_of_lead {b low high : UInt8} (hlead : lead b = some (n, low, high))
    (hbits : leadBits n b = k) (hd : d < 64) (hlow : low.toNat ≤ d + 128)
    (hhigh : d + 128 ≤ high.toNat) (rest : List UInt8) :
    next b (UInt8.ofNat (d + 128) :: rest) =
      continuation n k (UInt8.ofNat (d + 128) :: rest) := by
  have hfirst : ¬ b < 0x80 := by
    intro hb
    have hsmall : b < 0xC2 := UInt8.lt_trans hb (by decide)
    simp [lead, hsmall] at hlead
  have hbounds : (decide (low ≤ UInt8.ofNat (d + 128)) && decide (UInt8.ofNat (d + 128) ≤ high)) =
      true := by
    simp only [Bool.and_eq_true, decide_eq_true_eq, UInt8.le_iff_toNat_le, toNat_ofNat_add hd]
    exact ⟨hlow, hhigh⟩
  rw [next, if_neg hfirst, hlead]
  simp only [hbounds, if_true, hbits]

section

variable {v : Nat} (rest : List UInt8)

theorem next_one (hv : v ≤ 127) : next (UInt8.ofNat v) rest = .ok (Char.ofNat v, rest) := by
  have hbyte : (UInt8.ofNat v).toNat = v := by
    rw [UInt8.toNat_ofNat']
    omega
  have hfirst : UInt8.ofNat v < 0x80 := by
    rw [UInt8.lt_iff_toNat_lt, hbyte]
    exact Nat.lt_succ_of_le hv
  rw [next, if_pos hfirst, hbyte]

theorem next_two (hmin : 127 < v) (hmax : v ≤ 2047) :
    next (UInt8.ofNat (v / 64 % 32 + 192)) (UInt8.ofNat (v % 64 + 128) :: rest) =
      .ok (Char.ofNat v, rest) := by
  obtain ⟨hlead, hbits⟩ := lead_of_two (v / 64 % 32) (by omega) (by omega)
  have hv : 64 * (v / 64 % 32) + v % 64 = v := by omega
  rw [next_of_lead hlead hbits (by omega) (by simp) (by simp; omega), continuation_cons (by omega),
    continuation, hv]

theorem next_three (hmin : 2047 < v) (hmax : v ≤ 65535) (hvalid : v < 0xD800 ∨ 0xDFFF < v) :
    next (UInt8.ofNat (v / 4096 % 16 + 224))
        (UInt8.ofNat (v / 64 % 64 + 128) :: UInt8.ofNat (v % 64 + 128) :: rest) =
      .ok (Char.ofNat v, rest) := by
  obtain ⟨hlead, hbits⟩ := lead_of_three (v / 4096 % 16) (by omega)
  have hv : 64 * (64 * (v / 4096 % 16) + v / 64 % 64) + v % 64 = v := by omega
  have hlow : (if v / 4096 % 16 = 0 then 0xA0 else 0x80 : UInt8).toNat ≤ v / 64 % 64 + 128 := by
    split
    · exact (show 160 ≤ v / 64 % 64 + 128 by omega)
    · exact (show 128 ≤ v / 64 % 64 + 128 by omega)
  have hhigh : v / 64 % 64 + 128 ≤ (if v / 4096 % 16 = 13 then 0x9F else 0xBF : UInt8).toNat := by
    split
    · exact (show v / 64 % 64 + 128 ≤ 159 by omega)
    · exact (show v / 64 % 64 + 128 ≤ 191 by omega)
  rw [next_of_lead hlead hbits (by omega) hlow hhigh, continuation_cons (by omega),
    continuation_cons (by omega), continuation, hv]

theorem next_four (hmin : 65535 < v) (hmax : v < 0x110000) :
    next (UInt8.ofNat (v / 262144 % 8 + 240)) (UInt8.ofNat (v / 4096 % 64 + 128) ::
        UInt8.ofNat (v / 64 % 64 + 128) :: UInt8.ofNat (v % 64 + 128) :: rest) =
      .ok (Char.ofNat v, rest) := by
  obtain ⟨hlead, hbits⟩ := lead_of_four (v / 262144 % 8) (by omega)
  have hv : 64 * (64 * (64 * (v / 262144 % 8) + v / 4096 % 64) + v / 64 % 64) + v % 64 = v := by
    omega
  have hlow : (if v / 262144 % 8 = 0 then 0x90 else 0x80 : UInt8).toNat ≤
      v / 4096 % 64 + 128 := by
    split
    · exact (show 144 ≤ v / 4096 % 64 + 128 by omega)
    · exact (show 128 ≤ v / 4096 % 64 + 128 by omega)
  have hhigh : v / 4096 % 64 + 128 ≤
      (if v / 262144 % 8 = 4 then 0x8F else 0xBF : UInt8).toNat := by
    split
    · exact (show v / 4096 % 64 + 128 ≤ 143 by omega)
    · exact (show v / 4096 % 64 + 128 ≤ 191 by omega)
  rw [next_of_lead hlead hbits (by omega) hlow hhigh, continuation_cons (by omega),
    continuation_cons (by omega), continuation_cons (by omega), continuation, hv]

/-- The bytes of a character, with anything behind them, are read as that character. -/
theorem next_utf8EncodeChar (c : Char) : ∃ b bs,
    String.utf8EncodeChar c = b :: bs ∧ next b (bs ++ rest) = .ok (c, rest) := by
  have hvalid := c.valid
  simp only [UInt32.isValidChar, Nat.isValidChar] at hvalid
  have hchar : Char.ofNat c.val.toNat = c := Char.ofNat_toNat c
  unfold String.utf8EncodeChar
  generalize c.val.toNat = v at hvalid hchar
  subst hchar
  by_cases hone : v ≤ 127
  · exact ⟨_, _, if_pos hone, next_one rest hone⟩
  · simp only [if_neg hone]
    by_cases htwo : v ≤ 2047
    · exact ⟨_, _, if_pos htwo, next_two rest (by omega) htwo⟩
    · simp only [if_neg htwo]
      by_cases hthree : v ≤ 65535
      · exact ⟨_, _, if_pos hthree, next_three rest (by omega) hthree (by omega)⟩
      · exact ⟨_, _, if_neg hthree, next_four rest (by omega) (by omega)⟩

end

theorem decode_of_next {b : UInt8} {bs rest : List UInt8} {c : Char} {cs : List Char}
    (h : next b bs = .ok (c, rest)) (hrest : decode rest = .ok cs) :
    decode (b :: bs) = .ok (c :: cs) := by
  rw [decode]
  split
  · rename_i fault hfault
    rw [h] at hfault
    cases hfault
  · rename_i c' rest' hnext
    rw [h] at hnext
    cases hnext
    rw [hrest]

theorem decode_encode (cs : List Char) : decode (encode cs) = .ok cs := by
  induction cs with
  | nil => rw [encode, List.flatMap_nil, decode]
  | cons c cs ih =>
    obtain ⟨b, bs, hbytes, hnext⟩ := next_utf8EncodeChar (encode cs) c
    have hencode : encode (c :: cs) = b :: (bs ++ encode cs) := by
      rw [encode, List.flatMap_cons, hbytes]
      rfl
    rw [hencode]
    exact decode_of_next hnext ih

end ScriptAudit.Utf8
