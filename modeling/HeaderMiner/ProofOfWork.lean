import HeaderMiner.Header
import HeaderMiner.Target
import HeaderMiner.Hash.Blake2b
import HeaderMiner.Hash.Sha3
/-!
# Proof of work

The hash of a header mixes BLAKE2b-512 and SHA3-256 over its first 128 bytes with a pad of 32
bytes, the previous block xor the tree root.  Nothing behind byte 128 is hashed, and the nonce is
not part of the pad, so a `Hasher` keeps the pad and changes four bytes between two attempts.
-/

namespace HeaderMiner

/-- bytes combined by exclusive or, up to the shorter of the two -/
def xorBytes (as bs : List UInt8) : List UInt8 := List.zipWith (· ^^^ ·) as bs

def Header.pad (h : Header) : Octets 32 :=
  ⟨xorBytes h.prevBlock.toList h.treeRoot.toList, by simp [xorBytes]⟩

/-- the hash of the first 128 bytes of a header and its pad -/
def hashParts (pre : List UInt8) (pad : Octets 32) : Digest :=
  let left := Blake2b.hash512 pre
  let right := Sha3.hash256 (pre ++ pad.toList.take 8)
  Blake2b.hash256 (left.toList ++ pad.toList ++ right.toList)

def Header.powHash (h : Header) : Digest := hashParts (h.toBytes.take 128) h.pad

/-- whether the hash of a header meets a target -/
def Header.verify (h : Header) (target : Target) : Bool := target.isMetBy h.powHash

def proofHash (proof : List UInt8) : Digest := Blake2b.hash256 proof

/-! ## hashing many nonces -/

/-- the hashed part of one header, with the nonce tried last written in -/
structure Hasher where
  pre : List UInt8
  pad : Octets 32

namespace Hasher

def ofHeader (h : Header) : Hasher := ⟨h.toBytes.take 128, h.pad⟩

def setNonce (s : Hasher) (nonce : UInt32) : Hasher :=
  { s with pre := leBytes 4 nonce.toNat ++ s.pre.drop 4 }

/-- the hash with a nonce written in, and the hasher after it -/
def hashNonce (s : Hasher) (nonce : UInt32) : Digest × Hasher :=
  let s := s.setNonce nonce
  (hashParts s.pre s.pad, s)

end Hasher

end HeaderMiner
