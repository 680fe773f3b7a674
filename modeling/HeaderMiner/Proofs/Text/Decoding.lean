import HeaderMiner.Utf8
/-!
# Text that is written is read again

The bytes of a text are well-formed, so nothing of them is replaced when they are read
(`decodeLossy_encode`).  A character of two bytes or more is read by the demands of its first byte:
these fix the number of bytes behind it and keep the second one in a range that leaves out what has a
shorter spelling, the surrogates, and what lies behind the last character.
-/

namespace HeaderMiner.Utf8

/-! ## bytes that continue a character -/

theorem toNat_tail (n : Nat) : (UInt8.ofNat (n % 64 + 128)).toNat = n % 64 + 128 := by
  rw [UInt8.toNat_ofNat']
  omega

theorem takeTails_cons (k point n : Nat) (bs : List UInt8) :
    takeTails (k + 1) point (UInt8.ofNat (n % 64 + 128) :: bs) =
      takeTails k (point * 64 + n % 64) bs := by
  have ht : isTail (UInt8.ofNat (n % 64 + 128)) = true := by
    simp only [isTail, Bool.and_eq_true, decide_eq_true_eq, UInt8.le_iff_toNat_le, toNat_tail]
    show 128 ≤ _ ∧ _ ≤ 191
    omega
  have hbits : (n % 64 + 128) % 64 = n % 64 := by omega
  rw [takeTails, if_pos ht, toNat_tail, hbits]

/-! ## first bytes -/

/-- a first byte with its number, and a second byte in the range that the first asks for -/
theorem next_of_lead {b : UInt8} {l : Lead} (hb : 128 ≤ b.toNat) (hl : lead? b = some l) (n : Nat)
    (hlow : l.low.toNat ≤ n % 64 + 128) (hhigh : n % 64 + 128 ≤ l.high.toNat) (bs : List UInt8)
    {point : Nat} {rest : List UInt8}
    (ht : takeTails (l.tails - 1) (l.bits * 64 + n % 64) bs = (point, 0, rest)) :
    next b (UInt8.ofNat (n % 64 + 128) :: bs) = (some (Char.ofNat point), rest) := by
  have hascii : ¬ b < 0x80 := by
    rw [UInt8.lt_iff_toNat_lt]
    exact Nat.not_lt.2 hb
  have hrange : l.low ≤ UInt8.ofNat (n % 64 + 128) ∧ UInt8.ofNat (n % 64 + 128) ≤ l.high := by
    rw [UInt8.le_iff_toNat_le, UInt8.le_iff_toNat_le, toNat_tail]
    exact ⟨hlow, hhigh⟩
  have hbits : (n % 64 + 128) % 64 = n % 64 := by omega
  rw [next, if_neg hascii, hl]
  dsimp only
  rw [if_pos hrange, toNat_tail, hbits, ht]
  rfl

variable {v : Nat}

theorem lead?_two (hv : 128 ≤ v) (hle : v ≤ 2047) :
    lead? (UInt8.ofNat (v / 64 % 32 + 192)) = some ⟨1, 0x80, 0xbf, v / 64⟩ := by
  have hn : (UInt8.ofNat (v / 64 % 32 + 192)).toNat = v / 64 + 192 := by
    rw [UInt8.toNat_ofNat']
    omega
  have hbits : (v / 64 + 192) % 32 = v / 64 := by omega
  unfold lead?
  dsimp only
  rw [hn, if_pos (by omega), hbits]

theorem lead?_three (hv : 2048 ≤ v) (hle : v ≤ 65535) (hs : v < 0xd800 ∨ 0xdfff < v) :
    ∃ low high, lead? (UInt8.ofNat (v / 4096 % 16 + 224)) = some ⟨2, low, high, v / 4096⟩ ∧
      low.toNat ≤ v / 64 % 64 + 128 ∧ v / 64 % 64 + 128 ≤ high.toNat := by
  have hn : (UInt8.ofNat (v / 4096 % 16 + 224)).toNat = v / 4096 + 224 := by
    rw [UInt8.toNat_ofNat']
    omega
  have hbits : (v / 4096 + 224) % 16 = v / 4096 := by omega
  unfold lead?
  dsimp only
  rw [hn, if_neg (by omega), hbits]
  -- the least first byte asks for a second one beyond what two bytes can spell, and the byte of the
  -- surrogates for one below them
  by_cases he0 : v / 4096 + 224 = 0xe0
  · rw [if_pos he0]
    refine ⟨_, _, rfl, ?_⟩
    show 160 ≤ _ ∧ _ ≤ 191
    omega
  rw [if_neg he0]
  by_cases hed : v / 4096 + 224 = 0xed
  · rw [if_pos hed]
    refine ⟨_, _, rfl, ?_⟩
    show 128 ≤ _ ∧ _ ≤ 159
    omega
  rw [if_neg hed, if_pos (by omega)]
  refine ⟨_, _, rfl, ?_⟩
  show 128 ≤ _ ∧ _ ≤ 191
  omega

theorem lead?_four (hv : 65536 ≤ v) (hlt : v < 0x110000) :
    ∃ low high, lead? (UInt8.ofNat (v / 262144 % 8 + 240)) = some ⟨3, low, high, v / 262144⟩ ∧
      low.toNat ≤ v / 4096 % 64 + 128 ∧ v / 4096 % 64 + 128 ≤ high.toNat := by
  have hn : (UInt8.ofNat (v / 262144 % 8 + 240)).toNat = v / 262144 + 240 := by
    rw [UInt8.toNat_ofNat']
    omega
  have hbits : (v / 262144 + 240) % 8 = v / 262144 := by omega
  unfold lead?
  dsimp only
  rw [hn, if_neg (by omega), if_neg (by omega), if_neg (by omega), if_neg (by omega), hbits]
  by_cases hf0 : v / 262144 + 240 = 0xf0
  · rw [if_pos hf0]
    refine ⟨_, _, rfl, ?_⟩
    show 144 ≤ _ ∧ _ ≤ 191
    omega
  rw [if_neg hf0]
  by_cases hf3 : 0xf1 ≤ v / 262144 + 240 ∧ v / 262144 + 240 ≤ 0xf3
  · rw [if_pos hf3]
    refine ⟨_, _, rfl, ?_⟩
    show 128 ≤ _ ∧ _ ≤ 191
    omega
  rw [if_neg hf3, if_pos (by omega)]
  refine ⟨_, _, rfl, ?_⟩
  show 128 ≤ _ ∧ _ ≤ 143
  omega

/-! ## whole characters -/

theorem next_one (hv : v ≤ 127) (rest : List UInt8) :
    next (UInt8.ofNat v) rest = (some (Char.ofNat v), rest) := by
  have hn : (UInt8.ofNat v).toNat = v := by
    rw [UInt8.toNat_ofNat']
    omega
  have hlt : UInt8.ofNat v < 0x80 := by
    rw [UInt8.lt_iff_toNat_lt, hn]
    exact Nat.lt_succ_of_le hv
  rw [next, if_pos hlt, hn]

theorem next_two (hv : 128 ≤ v) (hle : v ≤ 2047) (rest : List UInt8) :
    next (UInt8.ofNat (v / 64 % 32 + 192)) (UInt8.ofNat (v % 64 + 128) :: rest) =
      (some (Char.ofNat v), rest) := by
  have hpoint : v / 64 * 64 + v % 64 = v := by omega
  refine next_of_lead ?_ (lead?_two hv hle) v ?_ ?_ rest (by rw [hpoint]; rfl)
  · rw [UInt8.toNat_ofNat']
    omega
  · show 128 ≤ _
    omega
  · show _ ≤ 191
    omega

theorem next_three (hv : 2048 ≤ v) (hle : v ≤ 65535) (hs : v < 0xd800 ∨ 0xdfff < v)
    (rest : List UInt8) :
    next (UInt8.ofNat (v / 4096 % 16 + 224))
      (UInt8.ofNat (v / 64 % 64 + 128) :: UInt8.ofNat (v % 64 + 128) :: rest) =
      (some (Char.ofNat v), rest) := by
  obtain ⟨low, high, hl, hlow, hhigh⟩ := lead?_three hv hle hs
  have hpoint : (v / 4096 * 64 + v / 64 % 64) * 64 + v % 64 = v := by omega
  refine next_of_lead ?_ hl (v / 64) hlow hhigh _ ?_
  · rw [UInt8.toNat_ofNat']
    omega
  · show takeTails 1 _ (UInt8.ofNat (v % 64 + 128) :: rest) = _
    rw [takeTails_cons, takeTails, hpoint]

theorem next_four (hv : 65536 ≤ v) (hlt : v < 0x110000) (rest : List UInt8) :
    next (UInt8.ofNat (v / 262144 % 8 + 240)) (UInt8.ofNat (v / 4096 % 64 + 128) ::
      UInt8.ofNat (v / 64 % 64 + 128) :: UInt8.ofNat (v % 64 + 128) :: rest) =
      (some (Char.ofNat v), rest) := by
  obtain ⟨low, high, hl, hlow, hhigh⟩ := lead?_four hv hlt
  have hpoint : ((v / 262144 * 64 + v / 4096 % 64) * 64 + v / 64 % 64) * 64 + v % 64 = v := by omega
  refine next_of_lead ?_ hl (v / 4096) hlow hhigh _ ?_
  · rw [UInt8.toNat_ofNat']
    omega
  · show takeTails 2 _ (UInt8.ofNat (v / 64 % 64 + 128) :: UInt8.ofNat (v % 64 + 128) :: rest) = _
    rw [takeTails_cons, takeTails_cons, takeTails, hpoint]

/-- the bytes of a character are read as that character, whatever comes behind them -/
theorem exists_next (c : Char) (rest : List UInt8) :
    ∃ b bs, String.utf8EncodeChar c ++ rest = b :: bs ∧ next b bs = (some c, rest) := by
  have hvalid : c.val.toNat < 0xd800 ∨ 0xdfff < c.val.toNat ∧ c.val.toNat < 0x110000 := c.valid
  have hchar : Char.ofNat c.val.toNat = c := Char.ofNat_toNat c
  unfold String.utf8EncodeChar
  dsimp only
  generalize c.val.toNat = v at hvalid hchar
  rw [← hchar]
  by_cases h1 : v ≤ 127
  · rw [if_pos h1]
    exact ⟨_, _, rfl, next_one h1 rest⟩
  rw [if_neg h1]
  by_cases h2 : v ≤ 2047
  · rw [if_pos h2]
    exact ⟨_, _, rfl, next_two (by omega) h2 rest⟩
  rw [if_neg h2]
  by_cases h3 : v ≤ 65535
  · rw [if_pos h3]
    exact ⟨_, _, rfl, next_three (by omega) h3 (by omega) rest⟩
  rw [if_neg h3]
  exact ⟨_, _, rfl, next_four (by omega) (by omega) rest⟩

/-! ## texts -/

theorem parts_encode (cs : List Char) : parts (cs.flatMap String.utf8EncodeChar) = cs.map some := by
  induction cs with
  | nil => simp [parts]
  | cons c cs ih =>
    obtain ⟨b, bs, hbytes, hnext⟩ := exists_next c (cs.flatMap String.utf8EncodeChar)
    rw [List.flatMap_cons, hbytes, parts, hnext, ih, List.map_cons]

/-- nothing of a text is lost or replaced when its bytes are read -/
theorem decodeLossy_encode (s : String) : decodeLossy (encode s) = s := by
  rw [decodeLossy, encode, parts_encode, List.map_map]
  show String.ofList (s.toList.map fun c => c) = s
  rw [List.map_id', String.ofList_toList]

end HeaderMiner.Utf8
