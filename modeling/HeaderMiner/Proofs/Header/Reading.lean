import HeaderMiner.Header
import HeaderMiner.Proofs.Text.HexDigits
/-!
# Written headers read back

Each field of a header has a window of its own in the written form, and reading takes the window
for the field again (`fieldsOf_toBytes`); so a header is known from its bytes, and from their text.
-/

namespace HeaderMiner.Header

theorem fieldsOf_toBytes (h : Header) : fieldsOf h.toBytes h.length_toBytes = h := by
  obtain ⟨nonce, time, padding, prevBlock, treeRoot, maskHash, extraNonce, reservedRoot,
    witnessRoot, merkleRoot, version, bits⟩ := h
  have ht : time.seconds % 281474976710656 = time.seconds := by
    have hle : time.seconds ≤ 2 ^ 48 - 1 := time.seconds_le
    omega
  have hb : UInt32.ofNat (leNat (List.take 4 (leBytes 4 bits.toNat))) = bits := by
    have hlt : bits.toNat < 256 ^ 4 := bits.toNat_lt
    rw [List.take_of_length_le (Nat.le_of_eq (length_leBytes ..)), leNat_leBytes,
      Nat.mod_eq_of_lt hlt, UInt32.ofNat_toNat]
  simp only [fieldsOf, Octets.window, toBytes, word, timeAt, mk.injEq]
  simp (disch := simp) [List.drop_append, leNat_leBytes, List.drop_eq_nil_of_le, ht, hb]

theorem guardOf_toBytes (h : Header) : guardOf h.toBytes = 0 := by
  simp (disch := simp) [guardOf, toBytes, List.drop_append, List.take_append,
    List.drop_eq_nil_of_le, leNat]

theorem ofBytes_toBytes (h : Header) : ofBytes h.toBytes = .ok h := by
  have hl : h.toBytes.length = 256 := h.length_toBytes
  unfold ofBytes
  rw [dif_pos hl, if_pos h.guardOf_toBytes, fieldsOf_toBytes]

theorem ofHex_toHex (h : Header) : ofHex h.toHex = .ok h := by
  rw [ofHex, toHex, Hex.decodeSized_of_decode _ h.length_toBytes (Hex.decode_encode _)]
  exact (pure_bind h.toBytes ofBytes).trans h.ofBytes_toBytes

end HeaderMiner.Header
