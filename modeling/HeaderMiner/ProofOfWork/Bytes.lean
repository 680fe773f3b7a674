import HeaderMiner.Header.Buffer
import HeaderMiner.ProofOfWork
/-!
# Proof of work over the bytes

The hash of a header as it is taken from the 256 bytes that the header is kept in, with the hash
functions that it is put together from left open.  A hasher copies the hashed bytes and makes the pad
once, and then goes from nonce to nonce.
-/

namespace HeaderMiner

/-- the hash functions that the proof of work is put together from -/
structure HashFunctions where
  left : List UInt8 → Octets 64
  right : List UInt8 → Octets 32
  outer : List UInt8 → Digest

namespace HashFunctions

def standard : HashFunctions := ⟨Blake2b.hash512, Sha3.hash256, Blake2b.hash256⟩

/-- the hash of the first 128 bytes of a header and its pad -/
def hashParts (f : HashFunctions) (pre : List UInt8) (pad : Octets 32) : Digest :=
  f.outer ((f.left pre).toList ++ pad.toList ++ (f.right (pre ++ pad.toList.take 8)).toList)

end HashFunctions

namespace Header.Buffer

/-- each byte of the previous block combined with that of the tree root -/
def pad (b : Buffer) : Octets 32 :=
  ⟨List.ofFn fun i : Fin 32 =>
    b.toList.get ⟨32 + i, by rw [b.length_toList]; omega⟩ ^^^
      b.toList.get ⟨64 + i, by rw [b.length_toList]; omega⟩,
   List.length_ofFn⟩

def powHash (f : HashFunctions) (b : Buffer) : Digest := f.hashParts (b.toList.take 128) b.pad

def verify (f : HashFunctions) (b : Buffer) (target : Target) : Bool :=
  target.isMetBy (b.powHash f)

end Header.Buffer

namespace Hasher

def ofBuffer (b : Header.Buffer) : Hasher := ⟨b.toList.take 128, b.pad⟩

def hash (f : HashFunctions) (nonce : UInt32) : StateM Hasher Digest := do
  modify (·.setNonce nonce)
  let s ← get
  return f.hashParts s.pre s.pad

/-- the hashes with some nonces written in, one after the other -/
def hashAll (f : HashFunctions) (nonces : List UInt32) : StateM Hasher (List Digest) :=
  nonces.mapM (hash f)

end Hasher

end HeaderMiner
