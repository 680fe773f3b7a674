import HeaderMiner.Header
/-!
# Cycle blocks

A block found by a cycle solver is a header, one byte that counts 32-bit words, and that many words
of proof.  Writing checks that its parts make such a block; reading takes exactly the byte strings
of this form.
-/

namespace HeaderMiner.CycleBlock

/-- the block of a raw header with a nonce written in, and a proof -/
def encode (raw : List UInt8) (nonce : UInt32) (proof : List UInt8) :
    Except Violation (List UInt8) :=
  if raw.length ≠ Header.size then .error .notOneHeader
  else if proof.length % 4 ≠ 0 then .error .brokenWords
  else if 255 < proof.length / 4 then .error .proofTooLong
  else .ok (leBytes 4 nonce.toNat ++ raw.drop 4 ++ UInt8.ofNat (proof.length / 4) :: proof)

def decode (bs : List UInt8) : Except Error (Header × List UInt8) :=
  match bs.drop Header.size with
  | [] => .error (.badHeaderSize s!"cycle block of {bs.length} bytes has no solution")
  | count :: proof => do
    let header ← Header.ofBytes (bs.take Header.size)
    let declared := count.toNat * 4
    if proof.length = declared then .ok (header, proof)
    else .error (.badHeaderSize s!"solution declares {declared} bytes, {proof.length} remain")

end HeaderMiner.CycleBlock
