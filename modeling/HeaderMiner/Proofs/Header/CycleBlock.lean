import HeaderMiner.CycleBlock
import HeaderMiner.Proofs.Header.Writing
import HeaderMiner.Proofs.Header.Reading
/-!
# Cycle blocks read back

The byte behind the header counts words, and what is written is whole words that one byte can
count; so reading finds the end of the proof where it is (`decode_encode`).
-/

namespace HeaderMiner.CycleBlock

variable {raw proof bs : List UInt8} {nonce : UInt32}

/-- what is written: the header with the nonce in it, the number of words, and the proof -/
theorem eq_of_encode (he : encode raw nonce proof = .ok bs) :
    proof.length % 4 = 0 ∧ proof.length / 4 ≤ 255 ∧
      bs = (leBytes 4 nonce.toNat ++ raw.drop 4) ++ UInt8.ofNat (proof.length / 4) :: proof := by
  unfold encode at he
  split at he
  · cases he
  · split at he
    · cases he
    · next hwords =>
      split at he
      · cases he
      · next hcount =>
        cases he
        exact ⟨Decidable.not_not.1 hwords, Nat.not_lt.1 hcount, rfl⟩

/-- reading takes a block apart at byte 256: the header is read first, and the count is looked at
only if there is one -/
theorem decode_parts {front rest : List UInt8} (count : UInt8) (hf : front.length = Header.size) :
    decode (front ++ count :: rest) = (do
      let h ← Header.ofBytes front
      if rest.length = count.toNat * 4 then .ok (h, rest)
      else .error (.badHeaderSize
        s!"solution declares {count.toNat * 4} bytes, {rest.length} remain")) := by
  unfold decode
  rw [List.drop_left' hf]
  dsimp only
  rw [List.take_left' hf]

theorem decode_append (h : Header) (count : UInt8) (proof : List UInt8)
    (hl : proof.length = count.toNat * 4) :
    decode (h.toBytes ++ count :: proof) = .ok (h, proof) := by
  rw [decode_parts count h.length_toBytes, h.ofBytes_toBytes]
  exact if_pos hl

theorem decode_encode {h : Header} (he : encode h.toBytes nonce proof = .ok bs) :
    decode bs = .ok ({ h with nonce }, proof) := by
  obtain ⟨hwords, hcount, rfl⟩ := eq_of_encode he
  have hl : proof.length = (UInt8.ofNat (proof.length / 4)).toNat * 4 := by
    rw [UInt8.toNat_ofNat', Nat.mod_eq_of_lt (by omega)]
    omega
  rw [← Header.toBytes_nonce]
  exact decode_append _ _ _ hl

end HeaderMiner.CycleBlock
