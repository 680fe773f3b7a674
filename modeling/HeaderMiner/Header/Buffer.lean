import HeaderMiner.Header
/-!
# Headers written in place

A header as the 256 bytes that it is kept in, with each field at its offset.  Fields are read and
written as integers of 16 and 32 bits, least significant byte first, and as stretches of bytes; the
time is put together of two integers, with the guard behind them.  Where an assertion breaks, the
bytes stay as they are then.
-/

namespace HeaderMiner.Header

abbrev Buffer := Octets 256

namespace Buffer

/-! ## reading -/

def half (b : Buffer) (i : Nat) : UInt16 := UInt16.ofNat (leNat ((b.toList.drop i).take 2))

def nonce (b : Buffer) : UInt32 := word b.toList 0

def time (b : Buffer) : UInt64 := ((b.half 8).toUInt64 <<< 32) ||| (word b.toList 4).toUInt64

def extraNonce (b : Buffer) : ExtraNonce := .window b.toList 128 24 (by simp)

/-! ## writing -/

/-- bytes with others in their place from an index on -/
def splice (bs : List UInt8) (i : Nat) (bytes : List UInt8) : List UInt8 :=
  bs.take i ++ (bytes ++ bs.drop (i + bytes.length))

theorem length_splice {bs bytes : List UInt8} {i : Nat} (h : i + bytes.length ≤ bs.length) :
    (splice bs i bytes).length = bs.length := by
  simp [splice]
  omega

/-- writes into a buffer, as far as no assertion breaks -/
abbrev Writer := EStateM Violation Buffer

/-- puts bytes at an offset where they fit -/
def put (i : Nat) (bytes : List UInt8) (h : i + bytes.length ≤ 256) : Writer Unit :=
  modify fun b =>
    ⟨splice b.toList i bytes, by rw [length_splice (by simpa using h), b.length_toList]⟩

def putWord (i : Nat) (w : UInt32) (h : i + 4 ≤ 256) : Writer Unit :=
  put i (leBytes 4 w.toNat) (by simpa using h)

def putHalf (i : Nat) (w : UInt16) (h : i + 2 ≤ 256) : Writer Unit :=
  put i (leBytes 2 w.toNat) (by simpa using h)

def setNonce (nonce : UInt32) : Writer Unit := putWord 0 nonce (by decide)

/-- writes a time, which must fit 48 bits, and clears the guard -/
def setTime (time : UInt64) : Writer Unit := do
  if 0xffffffffffff < time then throw (.timeTooLarge time.toNat)
  putWord 4 time.toUInt32 (by decide)
  putHalf 8 (time >>> 32).toUInt16 (by decide)
  putHalf 10 0 (by decide)

def setExtraNonce (extraNonce : ExtraNonce) : Writer Unit :=
  put 128 extraNonce.toList (by simp)

/-- counts up the `n` bytes from an offset on, and stops at the first that does not wrap -/
def countUp : (n i : Nat) → i + n ≤ 256 → Writer Unit
  | 0, _, _ => pure ()
  | n + 1, i, h => do
    let b ← get
    let byte := b.toList.get ⟨i, by rw [b.length_toList]; omega⟩
    if byte ≠ 0xff then put i [byte + 1] (by simp; omega)
    else do
      put i [0] (by simp; omega)
      countUp n (i + 1) (by omega)

def incrementExtraNonce : Writer Unit := countUp 24 128 (by decide)

def advance (now : UInt64) (network : Network) : Writer Advance := do
  if network.rollsTime ∧ (← get).time < now then do
    setTime now
    return .time
  else do
    incrementExtraNonce
    return .extraNonce

/-- fills the tail of the extra nonce with what a generator gives -/
def randomize (tail : Octets 12) : Writer Unit := put 140 tail.toList (by simp)

def finalize (nonce : UInt32) (extraNonce : ExtraNonce) : Writer Unit := do
  setNonce nonce
  setExtraNonce extraNonce

end Buffer

/-! ## edits -/

/-- what is done to a header -/
inductive Edit where
  | setNonce (nonce : UInt32)
  | setTime (time : UInt64)
  | setExtraNonce (extraNonce : ExtraNonce)
  | advance (now : UInt64) (network : Network)
  | incrementExtraNonce
  | randomize (tail : Octets 12)
  | finalize (nonce : UInt32) (extraNonce : ExtraNonce)
deriving DecidableEq

namespace Edit

/-- makes an edit in a buffer -/
def write : Edit → Buffer.Writer Unit
  | setNonce nonce => Buffer.setNonce nonce
  | setTime time => Buffer.setTime time
  | setExtraNonce x => Buffer.setExtraNonce x
  | advance now network => discard (Buffer.advance now network)
  | incrementExtraNonce => Buffer.incrementExtraNonce
  | randomize tail => Buffer.randomize tail
  | finalize nonce x => Buffer.finalize nonce x

/-- the buffer behind an edit, whether or not an assertion has broken -/
def after (e : Edit) (b : Buffer) : Buffer :=
  match e.write b with
  | .ok _ b | .error _ b => b

def run (edits : List Edit) (b : Buffer) : Buffer := edits.foldl (fun b e => e.after b) b

/-- makes an edit in the fields of a header -/
def apply : Edit → Header → Except Violation Header
  | setNonce nonce, h => .ok { h with nonce }
  | setTime time, h => h.setTime time.toNat
  | setExtraNonce x, h => .ok { h with extraNonce := x }
  | advance now network, h => (h.advance now.toNat network).map Prod.fst
  | incrementExtraNonce, h => .ok h.incrementExtraNonce
  | randomize tail, h => .ok (h.setTail tail)
  | finalize nonce x, h => .ok (h.finalize nonce x)

/-- the header behind some edits, where one that breaks an assertion changes nothing -/
def applyAll (edits : List Edit) (h : Header) : Header :=
  edits.foldl (fun h e => (e.apply h).toOption.getD h) h

end Edit

end HeaderMiner.Header
