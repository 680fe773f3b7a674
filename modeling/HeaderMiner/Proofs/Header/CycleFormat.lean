import HeaderMiner.Proofs.Header.CycleBlock
import HeaderMiner.Proofs.Header.Format
/-!
# Which bytes are a cycle block

A byte string is read as a cycle block exactly if it is the written form of a header, a byte that
counts words, and that many words (`eq_of_decode`).  The count takes part in the size, so the size of
what is read is fixed by its byte 256; what is not of this form is refused, for its guard or for its
size (`decode_cases`).  A block that has been read is written from its parts again
(`encode_of_decode`).
-/

namespace HeaderMiner.CycleBlock

open Header (IsGuarded)

variable {bs raw proof : List UInt8} {h : Header}

/-! ## the parts of a block -/

/-- a long enough byte string is a front of the size of a header, a count, and a rest -/
theorem exists_parts (hl : 257 ≤ bs.length) :
    ∃ front count rest, bs = front ++ count :: rest ∧ front.length = Header.size := by
  refine ⟨bs.take 256, bs[256], bs.drop 257, ?_, ?_⟩
  · rw [← List.drop_eq_getElem_cons (by omega), List.take_append_drop]
  · show (bs.take 256).length = 256
    rw [List.length_take]
    omega

section
variable {front rest : List UInt8} {count : UInt8} (hf : front.length = Header.size)
include hf

theorem length_parts : (front ++ count :: rest).length = 257 + rest.length := by
  have h256 : front.length = 256 := hf
  rw [List.length_append, List.length_cons]
  omega

theorem getElem?_count : (front ++ count :: rest)[256]? = some count := by
  have h256 : front.length = 256 := hf
  rw [List.getElem?_append_right (by omega), h256]
  rfl

theorem isGuarded_parts : IsGuarded (front ++ count :: rest) ↔ IsGuarded front := by
  have h256 : front.length = 256 := hf
  rw [IsGuarded, IsGuarded, List.getElem?_append_left (by omega),
    List.getElem?_append_left (by omega)]

end

/-! ## reading -/

theorem decode_of_length_le (hl : bs.length ≤ Header.size) :
    ∃ why, decode bs = .error (.badHeaderSize why) := by
  unfold decode
  rw [List.drop_eq_nil_of_le hl]
  exact ⟨_, rfl⟩

theorem decode_of_not_isGuarded {front : List UInt8} (count : UInt8) (rest : List UInt8)
    (hf : front.length = Header.size) (hg : ¬IsGuarded front) :
    ∃ why, decode (front ++ count :: rest) = .error (.badTime why) := by
  obtain ⟨why, he⟩ := Header.ofBytes_of_not_isGuarded hf hg
  refine ⟨why, ?_⟩
  rw [decode_parts count hf, he]
  rfl

theorem decode_of_length_ne (h : Header) (count : UInt8) (rest : List UInt8)
    (hl : rest.length ≠ count.toNat * 4) :
    ∃ why, decode (h.toBytes ++ count :: rest) = .error (.badHeaderSize why) := by
  rw [decode_parts count h.length_toBytes, h.ofBytes_toBytes]
  exact ⟨_, if_neg hl⟩

/-- the size that byte 256 declares -/
def IsSized (bs : List UInt8) : Prop :=
  ∃ count, bs[256]? = some count ∧ bs.length = 257 + 4 * count.toNat

theorem isSized_parts {front rest : List UInt8} {count : UInt8} (hf : front.length = Header.size) :
    IsSized (front ++ count :: rest) ↔ rest.length = count.toNat * 4 := by
  rw [IsSized, getElem?_count hf, length_parts hf]
  constructor
  · rintro ⟨c, hc, hl⟩
    cases hc
    omega
  · intro hl
    exact ⟨count, rfl, by omega⟩

/-- every byte string is refused for its size, refused for its guard, or read -/
theorem decode_cases (bs : List UInt8) :
    (bs.length < 257 ∧ ∃ why, decode bs = .error (.badHeaderSize why)) ∨
    (257 ≤ bs.length ∧ ¬IsGuarded bs ∧ ∃ why, decode bs = .error (.badTime why)) ∨
    (257 ≤ bs.length ∧ IsGuarded bs ∧ ¬IsSized bs ∧
      ∃ why, decode bs = .error (.badHeaderSize why)) ∨
    (257 ≤ bs.length ∧ IsGuarded bs ∧ IsSized bs ∧
      ∃ h count proof, bs = h.toBytes ++ count :: proof ∧ proof.length = count.toNat * 4 ∧
        decode bs = .ok (h, proof)) := by
  rcases Nat.lt_or_ge bs.length 257 with hl | hl
  · exact .inl ⟨hl, decode_of_length_le (Nat.le_of_lt_succ hl)⟩
  obtain ⟨front, count, rest, rfl, hf⟩ := exists_parts hl
  rw [isGuarded_parts hf, isSized_parts hf]
  by_cases hg : IsGuarded front
  · obtain ⟨h, rfl⟩ := Header.exists_toBytes_iff.2 ⟨hf, hg⟩
    by_cases hs : rest.length = count.toNat * 4
    · exact .inr (.inr (.inr ⟨hl, hg, hs, h, count, rest, rfl, hs, decode_append h count rest hs⟩))
    · exact .inr (.inr (.inl ⟨hl, hg, hs, decode_of_length_ne h count rest hs⟩))
  · exact .inr (.inl ⟨hl, hg, decode_of_not_isGuarded count rest hf hg⟩)

/-- what is read is the written form of a header, a count, and as many words -/
theorem eq_of_decode (hd : decode bs = .ok (h, proof)) :
    ∃ count : UInt8, bs = h.toBytes ++ count :: proof ∧ proof.length = count.toNat * 4 := by
  rcases decode_cases bs with ⟨-, why, he⟩ | ⟨-, -, why, he⟩ | ⟨-, -, -, why, he⟩ |
    ⟨-, -, -, header, count, rest, hbs, hl, hok⟩
  · cases he.symm.trans hd
  · cases he.symm.trans hd
  · cases he.symm.trans hd
  · cases hok.symm.trans hd
    exact ⟨count, hbs, hl⟩

/-! ## writing -/

theorem encode_eq_ok (nonce : UInt32) (hl : raw.length = Header.size) (hwords : proof.length % 4 = 0)
    (hcount : proof.length / 4 ≤ 255) :
    encode raw nonce proof =
      .ok (leBytes 4 nonce.toNat ++ raw.drop 4 ++ UInt8.ofNat (proof.length / 4) :: proof) := by
  unfold encode
  rw [if_neg (Decidable.not_not.2 hl), if_neg (Decidable.not_not.2 hwords), if_neg (Nat.not_lt.2 hcount)]

theorem encode_of_decode (hd : decode bs = .ok (h, proof)) :
    encode h.toBytes h.nonce proof = .ok bs := by
  obtain ⟨count, rfl, hl⟩ := eq_of_decode hd
  have hlt := count.toNat_lt
  have hdiv : proof.length / 4 = count.toNat := by omega
  have hself : leBytes 4 h.nonce.toNat ++ h.toBytes.drop 4 = h.toBytes :=
    (Header.toBytes_nonce h h.nonce).symm
  rw [encode_eq_ok _ h.length_toBytes (by omega) (by omega), hself, hdiv, UInt8.ofNat_toNat]

/-- Writing and reading cycle blocks are inverse to each other, and reading takes exactly the byte
strings of the form: a header with a zero guard, a count, and so many words.  What is not of the form
is refused for its guard where it is long enough to have a count, and for its size otherwise. -/
theorem codec_exact :
    (∀ (raw : List UInt8) (nonce : UInt32) (proof : List UInt8), raw.length = 256 →
      IsGuarded raw → proof.length % 4 = 0 → proof.length / 4 ≤ 255 →
      ∃ block h, encode raw nonce proof = .ok block ∧ decode block = .ok (h, proof) ∧
        h.nonce = nonce ∧ h.toBytes = leBytes 4 nonce.toNat ++ raw.drop 4) ∧
    (∀ bs h proof, decode bs = .ok (h, proof) → encode h.toBytes h.nonce proof = .ok bs) ∧
    ∀ bs,
      ((∃ h proof, decode bs = .ok (h, proof)) ↔ 257 ≤ bs.length ∧ IsGuarded bs ∧ IsSized bs) ∧
      ((∃ why, decode bs = .error (.badTime why)) ↔ 257 ≤ bs.length ∧ ¬IsGuarded bs) ∧
      ((∃ why, decode bs = .error (.badHeaderSize why)) ↔
        bs.length < 257 ∨ IsGuarded bs ∧ ¬IsSized bs) := by
  refine ⟨?_, fun bs h proof => encode_of_decode, fun bs => ?_⟩
  · intro raw nonce proof hl hg hwords hcount
    obtain ⟨h, rfl⟩ := Header.exists_toBytes_iff.2 ⟨hl, hg⟩
    have he := encode_eq_ok nonce hl hwords hcount
    exact ⟨_, { h with nonce }, he, decode_encode he, rfl, h.toBytes_nonce nonce⟩
  · rcases decode_cases bs with ⟨hl, why, he⟩ | ⟨hl, hg, why, he⟩ | ⟨hl, hg, hs, why, he⟩ |
      ⟨hl, hg, hs, h, count, proof, -, -, he⟩
    · simp [he, hl, Nat.not_le.2 hl]
    · simp [he, hl, hg]
    · simp [he, hl, hg, hs]
    · simp [he, hl, hg, hs]

end HeaderMiner.CycleBlock
