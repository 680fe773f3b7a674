import HeaderMiner.Proofs.Text.Hex
/-!
# Which texts are hexadecimal

Reading a text in hexadecimal gives a byte string exactly if the text, put into lower case, is what
writing gives for the byte string (`decode_eq_ok_iff`); and a text can be read exactly if it consists
of digits of either case, two for each byte (`exists_decode_iff`).  The text is looked at in its bytes: a
character that is no single byte has only bytes above those of the digits.
-/

namespace HeaderMiner

theorem Utf8.encode_injective {s t : String} (h : Utf8.encode s = Utf8.encode t) : s = t := by
  have hbytes : s.toList.utf8Encode = t.toList.utf8Encode := congrArg List.toByteArray h
  have hdecode : some s.toList.toArray = some t.toList.toArray := by
    rw [← List.utf8Decode?_utf8Encode, hbytes, List.utf8Decode?_utf8Encode]
  exact String.toList_inj.1 (List.toArray_inj (Option.some.inj hdecode))

namespace Hex

def IsDigit (c : Char) : Prop :=
  '0' ≤ c ∧ c ≤ '9' ∨ 'a' ≤ c ∧ c ≤ 'f' ∨ 'A' ≤ c ∧ c ≤ 'F'

instance (c : Char) : Decidable (IsDigit c) := by
  unfold IsDigit
  infer_instance

/-- the byte of a letter in lower case -/
def lower (b : UInt8) : UInt8 := if 65 ≤ b ∧ b ≤ 90 then b + 32 else b

/-! ## bytes -/

theorem value?_eq_some_iff (b : UInt8) {v : UInt8} (hv : v < 16) :
    value? b = some v ↔ lower b = code v := by
  have all : ∀ (k : Fin 256) (i : Fin 16), value? (UInt8.ofNat k) = some (UInt8.ofNat i) ↔
      lower (UInt8.ofNat k) = code (UInt8.ofNat i) := by decide +kernel
  have h := all ⟨b.toNat, b.toNat_lt⟩ ⟨v.toNat, UInt8.lt_iff_toNat_lt.1 hv⟩
  simpa only [UInt8.ofNat_toNat] using h

theorem value?_lt {b v : UInt8} (h : value? b = some v) : v < 16 := by
  have all : ∀ k : Fin 256, ∀ v ∈ value? (UInt8.ofNat k), v < 16 := by decide +kernel
  have hb := all ⟨b.toNat, b.toNat_lt⟩ v
  simp only [UInt8.ofNat_toNat] at hb
  exact hb h

theorem div_mod_of_digits {h l : UInt8} (hh : h < 16) (hl : l < 16) :
    (h * 16 + l) / 16 = h ∧ (h * 16 + l) % 16 = l := by
  rw [UInt8.lt_iff_toNat_lt] at hh hl
  have h16 : (16 : UInt8).toNat = 16 := rfl
  have hn : (h * 16 + l).toNat = h.toNat * 16 + l.toNat := by
    rw [UInt8.toNat_add, UInt8.toNat_mul, h16]
    omega
  constructor
  · rw [← UInt8.toNat_inj, UInt8.toNat_div, hn, h16]
    omega
  · rw [← UInt8.toNat_inj, UInt8.toNat_mod, hn, h16]
    omega

/-- bytes are read as a byte string if, in lower case, they are its digits -/
theorem decodeFrom_eq_ok_iff (pos : Nat) (as bs : List UInt8) :
    decodeFrom pos as = .ok bs ↔
      as.map lower = bs.flatMap fun b => [code (b / 16), code (b % 16)] := by
  induction bs generalizing pos as with
  | nil =>
    match as with
    | [] => simp [decodeFrom]
    | [a] => simp [decodeFrom]
    | hi :: lo :: rest =>
      rw [decodeFrom]
      split
      · simp
      · split
        · simp
        · cases decodeFrom (pos + 2) rest <;> simp [Except.map]
  | cons b bs ih =>
    match as with
    | [] => simp [decodeFrom]
    | [a] => simp [decodeFrom]
    | hi :: lo :: rest =>
      have hdigits : (hi :: lo :: rest).map lower =
            (b :: bs).flatMap (fun b => [code (b / 16), code (b % 16)]) ↔
          value? hi = some (b / 16) ∧ value? lo = some (b % 16) ∧
            decodeFrom (pos + 2) rest = .ok bs := by
        rw [value?_eq_some_iff hi (div_lt b), value?_eq_some_iff lo (mod_lt b), ih]
        simp
      rw [hdigits, decodeFrom]
      constructor
      · intro h
        cases hhi : value? hi with
        | none => simp [hhi] at h
        | some x =>
          cases hlo : value? lo with
          | none => simp [hhi, hlo] at h
          | some y =>
            cases hrest : decodeFrom (pos + 2) rest with
            | error f => simp [hhi, hlo, hrest, Except.map] at h
            | ok tail =>
              simp only [hhi, hlo, hrest, Except.map, Except.ok.injEq, List.cons.injEq] at h
              obtain ⟨rfl, rfl⟩ := h
              obtain ⟨hdiv, hmod⟩ := div_mod_of_digits (value?_lt hhi) (value?_lt hlo)
              rw [hdiv, hmod]
              exact ⟨rfl, rfl, rfl⟩
      · rintro ⟨hhi, hlo, hrest⟩
        rw [hhi, hlo, hrest]
        simp only [Except.map, div_mul_add_mod]

/-! ## characters -/

/-- beyond ASCII nothing has a lower case -/
theorem toLower_of_le {c : Char} (h : 128 ≤ c.toNat) : c.toLower = c := by
  unfold Char.toLower
  rw [dif_neg]
  rintro ⟨-, hz⟩
  have hle : c.toNat ≤ 90 := UInt32.le_iff_toNat_le.1 hz
  omega

theorem lower_of_le {n : Nat} (h : 128 ≤ n) (h' : n < 256) :
    lower (UInt8.ofNat n) = UInt8.ofNat n := by
  have h90 : (90 : UInt8).toNat = 90 := rfl
  rw [lower, if_neg]
  rintro ⟨-, hle⟩
  rw [UInt8.le_iff_toNat_le, UInt8.toNat_ofNat'] at hle
  omega

/-- putting a character into lower case is putting its bytes into lower case -/
theorem map_lower_utf8EncodeChar (c : Char) :
    (String.utf8EncodeChar c).map lower = String.utf8EncodeChar c.toLower := by
  rcases Nat.lt_or_ge c.toNat 128 with h | h
  · have ascii : ∀ k : Fin 128, (String.utf8EncodeChar (Char.ofNat k)).map lower =
        String.utf8EncodeChar (Char.ofNat k).toLower := by decide +kernel
    have hc := ascii ⟨c.toNat, h⟩
    rwa [Char.ofNat_toNat] at hc
  · have hv : ¬c.val.toNat ≤ 127 := Nat.not_le.2 h
    rw [toLower_of_le h]
    unfold String.utf8EncodeChar
    dsimp only
    rw [if_neg hv]
    -- two, three or four bytes, and none of them below 128
    split
    · rw [List.map_cons, List.map_singleton, lower_of_le (by omega) (by omega),
        lower_of_le (by omega) (by omega)]
    · split
      · rw [List.map_cons, List.map_cons, List.map_singleton, lower_of_le (by omega) (by omega),
          lower_of_le (by omega) (by omega), lower_of_le (by omega) (by omega)]
      · rw [List.map_cons, List.map_cons, List.map_cons, List.map_singleton,
          lower_of_le (by omega) (by omega), lower_of_le (by omega) (by omega),
          lower_of_le (by omega) (by omega), lower_of_le (by omega) (by omega)]

theorem map_lower_encode (s : String) : (Utf8.encode s).map lower = Utf8.encode s.toLower := by
  have hs : s.toLower.toList = s.toList.map Char.toLower := String.toList_map
  rw [Utf8.encode, Utf8.encode, hs, List.map_flatMap, List.flatMap_map]
  exact congrArg (fun f => List.flatMap f s.toList) (funext map_lower_utf8EncodeChar)

/-! ## texts -/

/-- a text is read as a byte string if, in lower case, it is the text of the byte string -/
theorem decode_eq_ok_iff {s : String} {bs : List UInt8} :
    decode s = .ok bs ↔ s.toLower = encode bs := by
  have hbytes : (Utf8.encode s).map lower = Utf8.encode (encode bs) ↔ s.toLower = encode bs := by
    rw [map_lower_encode]
    exact ⟨Utf8.encode_injective, congrArg Utf8.encode⟩
  rw [← hbytes, utf8_encode]
  unfold decode
  dsimp only
  split
  · next hodd =>
    constructor
    · intro h
      cases h
    · intro h
      have hl := congrArg List.length h
      rw [List.length_map, length_digits] at hl
      omega
  · exact decodeFrom_eq_ok_iff 0 _ bs

/-- a digit of either case is one in lower case -/
theorem isDigit_iff (c : Char) : IsDigit c ↔ ∃ v : UInt8, v < 16 ∧ c.toLower = digit v := by
  have hfin (p : UInt8 → Prop) : (∃ v : Fin 16, p (UInt8.ofNat v)) ↔ ∃ v, v < 16 ∧ p v := by
    constructor
    · rintro ⟨v, hp⟩
      refine ⟨_, ?_, hp⟩
      rw [UInt8.lt_iff_toNat_lt, UInt8.toNat_ofNat', Nat.mod_eq_of_lt (by omega)]
      exact v.isLt
    · rintro ⟨v, hv, hp⟩
      refine ⟨⟨v.toNat, UInt8.lt_iff_toNat_lt.1 hv⟩, ?_⟩
      rwa [UInt8.ofNat_toNat]
  rw [← hfin fun v => c.toLower = digit v]
  rcases Nat.lt_or_ge c.toNat 128 with h | h
  · have ascii : ∀ k : Fin 128, IsDigit (Char.ofNat k) ↔
        ∃ v : Fin 16, (Char.ofNat k).toLower = digit (UInt8.ofNat v) := by decide +kernel
    have hc := ascii ⟨c.toNat, h⟩
    rwa [Char.ofNat_toNat] at hc
  · have hbelow : ∀ v : Fin 16, (digit (UInt8.ofNat v)).toNat < 128 := by decide
    rw [toLower_of_le h]
    constructor
    · have hle {a : Char} (ha : c ≤ a) : 128 ≤ a.toNat := Nat.le_trans h ha
      rintro (⟨-, hc⟩ | ⟨-, hc⟩ | ⟨-, hc⟩)
      · exact absurd (hle hc) (by decide)
      · exact absurd (hle hc) (by decide)
      · exact absurd (hle hc) (by decide)
    · rintro ⟨v, rfl⟩
      exact absurd h (Nat.not_le.2 (hbelow v))

theorem exists_byteDigits_iff (n : Nat) (cs : List Char) :
    (∃ bs : List UInt8, bs.length = n ∧ cs.map Char.toLower = bs.flatMap byteDigits) ↔
      cs.length = 2 * n ∧ ∀ c ∈ cs, IsDigit c := by
  -- on the number of bytes: each takes two characters from the front
  induction n generalizing cs with
  | zero =>
    constructor
    · rintro ⟨bs, hl, hcs⟩
      obtain rfl := List.length_eq_zero_iff.1 hl
      obtain rfl := List.map_eq_nil_iff.1 hcs
      simp
    · rintro ⟨hl, -⟩
      obtain rfl := List.length_eq_zero_iff.1 hl
      exact ⟨[], rfl, rfl⟩
  | succ n ih =>
    constructor
    · rintro ⟨_ | ⟨b, bs⟩, hl, hcs⟩
      · cases hl
      · rw [List.flatMap_cons, byteDigits] at hcs
        rcases cs with _ | ⟨hi, _ | ⟨lo, rest⟩⟩
        · simp at hcs
        · simp at hcs
        · rw [List.map_cons, List.map_cons] at hcs
          injection hcs with hhi hcs
          injection hcs with hlo hrest
          obtain ⟨hlen, hall⟩ := (ih rest).1 ⟨bs, Nat.succ.inj hl, hrest⟩
          refine ⟨by rw [List.length_cons, List.length_cons, hlen]; omega, ?_⟩
          rw [List.forall_mem_cons, List.forall_mem_cons]
          exact ⟨(isDigit_iff hi).2 ⟨_, div_lt b, hhi⟩, (isDigit_iff lo).2 ⟨_, mod_lt b, hlo⟩, hall⟩
    · rintro ⟨hl, hall⟩
      rcases cs with _ | ⟨hi, _ | ⟨lo, rest⟩⟩
      · rw [List.length_nil] at hl
        omega
      · rw [List.length_singleton] at hl
        omega
      · rw [List.forall_mem_cons, List.forall_mem_cons] at hall
        obtain ⟨v, hv, hhi⟩ := (isDigit_iff hi).1 hall.1
        obtain ⟨w, hw, hlo⟩ := (isDigit_iff lo).1 hall.2.1
        rw [List.length_cons, List.length_cons] at hl
        obtain ⟨bs, hlen, hrest⟩ := (ih rest).2 ⟨by omega, hall.2.2⟩
        obtain ⟨hdiv, hmod⟩ := div_mod_of_digits hv hw
        refine ⟨(v * 16 + w) :: bs, by rw [List.length_cons, hlen], ?_⟩
        rw [List.map_cons, List.map_cons, List.flatMap_cons, hrest, byteDigits, hdiv, hmod, hhi, hlo]
        rfl

/-- whether a text consists of the digits of so many bytes, of either case -/
def IsText (n : Nat) (s : String) : Prop := s.length = 2 * n ∧ ∀ c ∈ s.toList, IsDigit c

theorem exists_decode_iff {n : Nat} {s : String} :
    (∃ bs, bs.length = n ∧ decode s = .ok bs) ↔ IsText n s := by
  have hs (bs : List UInt8) :
      decode s = .ok bs ↔ s.toList.map Char.toLower = bs.flatMap byteDigits := by
    have hl : s.toLower.toList = s.toList.map Char.toLower := String.toList_map
    rw [decode_eq_ok_iff, ← String.toList_inj, hl, encode, String.toList_ofList]
  rw [IsText, ← String.length_toList, ← exists_byteDigits_iff]
  exact exists_congr fun bs => and_congr_right fun _ => hs bs

theorem utf8ByteSize_of_decode {s : String} {bs : List UInt8} (h : decode s = .ok bs) :
    s.utf8ByteSize = 2 * bs.length := by
  have hbytes := congrArg Utf8.encode (decode_eq_ok_iff.1 h)
  rw [← map_lower_encode, utf8_encode] at hbytes
  rw [← Utf8.length_encode, ← length_digits bs, ← hbytes, List.length_map]

/-- a text of the right size that is refused has a character that is no digit -/
theorem exists_error {n : Nat} {s : String} (hsize : s.utf8ByteSize = 2 * n) (h : ¬IsText n s) :
    ∃ f, decode s = .error f := by
  cases hd : decode s with
  | error f => exact ⟨f, rfl⟩
  | ok bs =>
    have hl : bs.length = n := by
      have hbytes := utf8ByteSize_of_decode hd
      omega
    exact absurd (exists_decode_iff.1 ⟨bs, hl, hd⟩) h

/-! ## texts of a known size -/

section
variable {ε : Type} {n : Nat} {s : String} {bs : List UInt8} (refuse : String → ε)

theorem decodeSized_of_decode (hl : bs.length = n) (hd : decode s = .ok bs) :
    decodeSized n refuse s = .ok bs := by
  have hsize : s.utf8ByteSize = 2 * n := by rw [utf8ByteSize_of_decode hd, hl]
  unfold decodeSized
  rw [if_pos hsize, hd]
  rfl

/-- a text is refused for its size or its digits, or read -/
theorem decodeSized_cases (n : Nat) (s : String) :
    (¬IsText n s ∧ ∃ why, decodeSized n refuse s = .error (refuse why)) ∨
    ∃ bs, bs.length = n ∧ decode s = .ok bs ∧ decodeSized n refuse s = .ok bs := by
  by_cases ht : IsText n s
  · obtain ⟨bs, hl, hd⟩ := exists_decode_iff.2 ht
    exact .inr ⟨bs, hl, hd, decodeSized_of_decode refuse hl hd⟩
  · refine .inl ⟨ht, ?_⟩
    unfold decodeSized
    split
    · next hsize =>
      obtain ⟨f, hf⟩ := exists_error hsize ht
      rw [hf]
      exact ⟨_, rfl⟩
    · exact ⟨_, rfl⟩

theorem decodeSized_eq_ok_iff :
    decodeSized n refuse s = .ok bs ↔ bs.length = n ∧ decode s = .ok bs := by
  constructor
  · intro hok
    rcases decodeSized_cases refuse n s with ⟨-, why, he⟩ | ⟨bs', hl, hd, hok'⟩
    · cases hok.symm.trans he
    · cases hok.symm.trans hok'
      exact ⟨hl, hd⟩
  · rintro ⟨hl, hd⟩
    exact decodeSized_of_decode refuse hl hd

end

/-! ## characters of texts -/

theorem utf8EncodeChar_of_isDigit {c : Char} (h : IsDigit c) :
    (String.utf8EncodeChar c).length = 1 := by
  have hle {b : Char} (hc : c ≤ b) (hb : b.toNat < 128) : c.toNat < 128 :=
    Nat.lt_of_le_of_lt hc hb
  have hlt : c.toNat < 128 := by
    rcases h with ⟨-, h⟩ | ⟨-, h⟩ | ⟨-, h⟩
    · exact hle h (by decide)
    · exact hle h (by decide)
    · exact hle h (by decide)
  have hv : c.val.toNat ≤ 127 := Nat.le_of_lt_succ hlt
  unfold String.utf8EncodeChar
  dsimp only
  rw [if_pos hv]
  rfl

theorem isText_iff {n : Nat} {s : String} :
    IsText n s ↔ s.utf8ByteSize = 2 * n ∧ ∀ c ∈ s.toList, IsDigit c := by
  have hsize (hd : ∀ c ∈ s.toList, IsDigit c) : s.utf8ByteSize = s.length := by
    rw [← Utf8.length_encode, Utf8.encode, ← String.length_toList, List.length_flatMap,
      List.map_congr_left fun c hc => utf8EncodeChar_of_isDigit (hd c hc), List.map_const',
      List.sum_replicate_nat, Nat.mul_one]
  constructor
  · rintro ⟨hl, hd⟩
    exact ⟨(hsize hd).trans hl, hd⟩
  · rintro ⟨hl, hd⟩
    exact ⟨(hsize hd).symm.trans hl, hd⟩

theorem encode_injective {as bs : List UInt8} (h : encode as = encode bs) : as = bs := by
  have hd := decode_encode bs
  rw [← h, decode_encode] at hd
  exact Except.ok.inj hd

theorem isDigit_of_mem_encode {bs : List UInt8} {c : Char} (h : c ∈ (encode bs).toList) :
    IsDigit c :=
  (exists_decode_iff.1 ⟨bs, rfl, decode_encode bs⟩).2 c h

end Hex

end HeaderMiner
