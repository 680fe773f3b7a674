import HeaderMiner.Proofs.Header.Agreement
/-!
# Fields written into a header

A nonce stands in the first four bytes of a header and nowhere else (`toBytes_nonce`), and the tail
of the extra nonce in bytes 140 to 151 (`toBytes_setTail`); so writing one of them leaves every other
byte as it was.
-/

namespace HeaderMiner.Header

variable {h : Header} {j : Nat}

def blank : Header := .fieldsOf (List.replicate 256 0) List.length_replicate

theorem toBytes_nonce (h : Header) (nonce : UInt32) :
    ({ h with nonce } : Header).toBytes = leBytes 4 nonce.toNat ++ h.toBytes.drop 4 := by
  rw [toBytes_eq h, List.drop_left' h.length_front, toBytes_eq]
  rfl

theorem toBytes_setTail (h : Header) (tail : Octets 12) :
    (h.setTail tail).toBytes = h.toBytes.take 140 ++ (tail.toList ++ h.toBytes.drop 152) := by
  have hl : (h.front ++ (leBytes 6 h.time.seconds ++ h.middle)).length = 128 := by
    simp [length_front, length_middle]
  have hb : h.toBytes =
      (h.front ++ (leBytes 6 h.time.seconds ++ h.middle)) ++ (h.extraNonce.toList ++ h.rear) := by
    rw [toBytes_eq]
    simp only [List.append_assoc]
  have htake : h.toBytes.take 140 =
      (h.front ++ (leBytes 6 h.time.seconds ++ h.middle)) ++ h.extraNonce.toList.take 12 := by
    have he : (h.extraNonce.toList ++ h.rear).take 12 = h.extraNonce.toList.take 12 :=
      List.take_append_of_le_length (by rw [Octets.length_toList]; decide)
    have hi : 140 = (h.front ++ (leBytes 6 h.time.seconds ++ h.middle)).length + 12 := by rw [hl]
    rw [hb, hi, List.take_length_add_append, he]
  have hdrop : h.toBytes.drop 152 = h.rear := by
    rw [hb, ← List.append_assoc, List.drop_left' (by rw [List.length_append, hl]; simp)]
  rw [htake, hdrop, toBytes_eq]
  simp only [setTail, extraNonceHead, List.append_assoc]
  rfl

/-- a tail changes no byte in front of it and none behind it -/
theorem getElem?_setTail (tail : Octets 12) (hj : j < 140 ∨ 152 ≤ j) :
    (h.setTail tail).toBytes[j]? = h.toBytes[j]? := by
  have htake : (h.toBytes.take 140).length = 140 := by simp [size]
  rw [toBytes_setTail]
  rcases hj with hj | hj
  · rw [List.getElem?_append_left (by rwa [htake]), List.getElem?_take_of_lt hj]
  · have hdrop : 152 + (j - 140 - 12) = j := by omega
    rw [List.getElem?_append_right (by omega), htake,
      List.getElem?_append_right (by rw [Octets.length_toList]; omega), Octets.length_toList,
      List.getElem?_drop, hdrop]

theorem getElem?_nonce (nonce : UInt32) (hj : 4 ≤ j) :
    ({ h with nonce } : Header).toBytes[j]? = h.toBytes[j]? := by
  have hdrop : 4 + (j - 4) = j := by omega
  rw [toBytes_nonce, List.getElem?_append_right (by rwa [length_leBytes]), length_leBytes,
    List.getElem?_drop, hdrop]

end HeaderMiner.Header
