import HeaderMiner.Network
import HeaderMiner.Hex
/-!
# Block headers

A header has twelve fields and one written form of 256 bytes (`Header.toBytes`), integers least
significant byte first, with a guard of two zero bytes behind the 48-bit time.  Reading
(`Header.ofBytes`) takes exactly the written forms, so the two are inverse to each other, and an
operation on the fields can touch no byte of another field.

The mask hash is the identity of the work that a header belongs to.
-/

namespace HeaderMiner

def maxTime : Nat := 2 ^ 48 - 1

/-- a time of 48 bits, in seconds -/
structure HeaderTime where
  seconds : Nat
  seconds_le : seconds ≤ maxTime
deriving DecidableEq

/-- the extra nonce, a counter of 24 bytes, least significant first -/
abbrev ExtraNonce := Octets 24

structure Header where
  nonce : UInt32
  time : HeaderTime
  padding : Octets 20
  prevBlock : Octets 32
  treeRoot : Octets 32
  /-- the identity of the work -/
  maskHash : Octets 32
  extraNonce : ExtraNonce
  reservedRoot : Octets 32
  witnessRoot : Octets 32
  merkleRoot : Octets 32
  version : UInt32
  bits : UInt32
deriving DecidableEq

namespace Header

def size : Nat := 256

/-! ## the written form -/

def toBytes (h : Header) : List UInt8 :=
  leBytes 4 h.nonce.toNat ++ leBytes 6 h.time.seconds ++ [0, 0] ++ h.padding.toList
    ++ h.prevBlock.toList ++ h.treeRoot.toList ++ h.maskHash.toList ++ h.extraNonce.toList
    ++ h.reservedRoot.toList ++ h.witnessRoot.toList ++ h.merkleRoot.toList
    ++ leBytes 4 h.version.toNat ++ leBytes 4 h.bits.toNat

@[simp] theorem length_toBytes (h : Header) : h.toBytes.length = size := by
  simp [toBytes, size]

def octets (h : Header) : Octets 256 := ⟨h.toBytes, h.length_toBytes⟩

def word (bs : List UInt8) (i : Nat) : UInt32 := UInt32.ofNat (leNat ((bs.drop i).take 4))

def timeAt (bs : List UInt8) (i : Nat) : HeaderTime :=
  ⟨leNat ((bs.drop i).take 6), by
    have h := leNat_lt ((bs.drop i).take 6)
    have hl : ((bs.drop i).take 6).length ≤ 6 := by
      rw [List.length_take]
      omega
    have hp := Nat.pow_le_pow_right (n := 256) (by omega) hl
    simp only [maxTime]
    omega⟩

/-- the two guard bytes behind the time, as a number -/
def guardOf (bs : List UInt8) : Nat := leNat ((bs.drop 10).take 2)

/-- the fields of 256 bytes, whatever their guard -/
def fieldsOf (bs : List UInt8) (h : bs.length = 256) : Header where
  nonce := word bs 0
  time := timeAt bs 4
  padding := .window bs 12 20 (by omega)
  prevBlock := .window bs 32 32 (by omega)
  treeRoot := .window bs 64 32 (by omega)
  maskHash := .window bs 96 32 (by omega)
  extraNonce := .window bs 128 24 (by omega)
  reservedRoot := .window bs 152 32 (by omega)
  witnessRoot := .window bs 184 32 (by omega)
  merkleRoot := .window bs 216 32 (by omega)
  version := word bs 248
  bits := word bs 252

/-- four lower-case hexadecimal digits behind `0x` -/
def guardText (n : Nat) : String :=
  "0x" ++ Hex.encode (beBytes 2 n)

/-- reads a header; its size is checked before its guard -/
def ofBytes (bs : List UInt8) : Except Error Header :=
  if h : bs.length = 256 then
    if guardOf bs = 0 then .ok (fieldsOf bs h)
    else .error (.badTime ("header time guard is " ++ guardText (guardOf bs) ++ ", expected zero"))
  else .error (.badHeaderSize s!"expected 256 bytes, got {bs.length}")

def toHex (h : Header) : String := Hex.encode h.toBytes

def ofHex (s : String) : Except Error Header := do
  ofBytes (← Hex.decodeSized size .badHeaderSize s)

/-! ## moving on to fresh search space -/

/-- writes a time, which must fit 48 bits -/
def setTime (h : Header) (time : Nat) : Except Violation Header :=
  if hle : time ≤ maxTime then .ok { h with time := ⟨time, hle⟩ }
  else .error (.timeTooLarge time)

/-- adds one to a number written least significant byte first, and drops the last carry -/
def succBytes : List UInt8 → List UInt8
  | [] => []
  | b :: bs => if b = 0xff then 0 :: succBytes bs else (b + 1) :: bs

@[simp] theorem length_succBytes (bs : List UInt8) : (succBytes bs).length = bs.length := by
  induction bs with
  | nil => rfl
  | cons b bs ih =>
    rw [succBytes]
    split <;> simp [ih]

/-- the extra nonce counted up by one, wrapping to zero -/
def incrementExtraNonce (h : Header) : Header :=
  { h with extraNonce := ⟨succBytes h.extraNonce.toList, by simp⟩ }

/-- what `advance` has changed -/
inductive Advance where
  | time
  | extraNonce
deriving DecidableEq, Repr

/-- moves the header to fresh search space: a clock ahead of the header rolls the time where the
network allows it, and otherwise the extra nonce is counted up -/
def advance (h : Header) (now : Nat) (network : Network) :
    Except Violation (Header × Advance) :=
  if network.rollsTime ∧ h.time.seconds < now then (h.setTime now).map (·, .time)
  else .ok (h.incrementExtraNonce, .extraNonce)

/-- the first part of the extra nonce, which all workers of a round share -/
def extraNonceHead (h : Header) : List UInt8 := h.extraNonce.toList.take 12

def setTail (h : Header) (tail : Octets 12) : Header :=
  { h with extraNonce := ⟨h.extraNonceHead ++ tail.toList, by simp [extraNonceHead]⟩ }

/-- the header with the winning nonce and extra nonce written in -/
def finalize (h : Header) (nonce : UInt32) (extraNonce : ExtraNonce) : Header :=
  { h with nonce := nonce, extraNonce := extraNonce }

end Header

end HeaderMiner
