import HeaderMiner.Octets
/-!
# UTF-8

Reading bytes as text, strictly (`decode?`) or with every ill-formed part replaced (`decodeLossy`).
An ill-formed part is a maximal prefix of some well-formed character, or one byte where no
character can start; each becomes one replacement character.
-/

namespace HeaderMiner.Utf8

def encode (s : String) : List UInt8 := s.toList.flatMap String.utf8EncodeChar

/-- a byte that continues a character -/
def isTail (b : UInt8) : Bool := 0x80 ≤ b && b ≤ 0xbf

/-- what a first byte asks for: the number of bytes after it, the range of the second byte, and
the bits of the code point that it carries -/
structure Lead where
  tails : Nat
  low : UInt8
  high : UInt8
  bits : Nat

/-- the demands of a byte that starts a character of two bytes or more -/
def lead? (b : UInt8) : Option Lead :=
  let n := b.toNat
  if 0xc2 ≤ n ∧ n ≤ 0xdf then some ⟨1, 0x80, 0xbf, n % 32⟩
  else if n = 0xe0 then some ⟨2, 0xa0, 0xbf, n % 16⟩
  else if n = 0xed then some ⟨2, 0x80, 0x9f, n % 16⟩
  else if 0xe1 ≤ n ∧ n ≤ 0xef then some ⟨2, 0x80, 0xbf, n % 16⟩
  else if n = 0xf0 then some ⟨3, 0x90, 0xbf, n % 8⟩
  else if 0xf1 ≤ n ∧ n ≤ 0xf3 then some ⟨3, 0x80, 0xbf, n % 8⟩
  else if n = 0xf4 then some ⟨3, 0x80, 0x8f, n % 8⟩
  else none

/-- takes up to `k` continuing bytes: the code point so far, how many were missing, the rest -/
def takeTails : Nat → Nat → List UInt8 → Nat × Nat × List UInt8
  | 0, point, bs => (point, 0, bs)
  | k + 1, point, [] => (point, k + 1, [])
  | k + 1, point, b :: bs =>
    if isTail b then takeTails k (point * 64 + b.toNat % 64) bs else (point, k + 1, b :: bs)

theorem takeTails_length_le (k point : Nat) (bs : List UInt8) :
    (takeTails k point bs).2.2.length ≤ bs.length := by
  induction k generalizing point bs with
  | zero => simp [takeTails]
  | succ k ih =>
    cases bs with
    | nil => simp [takeTails]
    | cons b bs =>
      rw [takeTails]
      split
      · exact Nat.le_succ_of_le (ih _ _)
      · exact Nat.le_refl _

/-- the character at the front of a byte string, `none` if its front is ill-formed, and the rest
after that character or that ill-formed part -/
def next (b : UInt8) (bs : List UInt8) : Option Char × List UInt8 :=
  if b < 0x80 then (some (Char.ofNat b.toNat), bs)
  else
    match lead? b with
    | none => (none, bs)
    | some l =>
      match bs with
      | [] => (none, [])
      | c :: cs =>
        if l.low ≤ c ∧ c ≤ l.high then
          let (point, missing, rest) := takeTails (l.tails - 1) (l.bits * 64 + c.toNat % 64) cs
          if missing = 0 then (some (Char.ofNat point), rest) else (none, rest)
        else (none, bs)

theorem next_length_le (b : UInt8) (bs : List UInt8) : (next b bs).2.length ≤ bs.length := by
  unfold next
  split
  · exact Nat.le_refl _
  · split
    · exact Nat.le_refl _
    · rename_i l _
      cases bs with
      | nil => exact Nat.le_refl _
      | cons c cs =>
        have h := takeTails_length_le (l.tails - 1) (l.bits * 64 + c.toNat % 64) cs
        dsimp only
        split
        · split <;> exact Nat.le_succ_of_le h
        · exact Nat.le_refl _

/-- the characters of a byte string, `none` for each ill-formed part -/
def parts : List UInt8 → List (Option Char)
  | [] => []
  | b :: bs => (next b bs).1 :: parts (next b bs).2
termination_by bs => bs.length
decreasing_by
  have := next_length_le b bs
  simp only [List.length_cons]
  omega

/-- the text of a byte string, with U+FFFD for every ill-formed part -/
def decodeLossy (bs : List UInt8) : String :=
  String.ofList ((parts bs).map fun c => c.getD (Char.ofNat 0xfffd))

/-- the text of a byte string that is well-formed -/
def decode? (bs : List UInt8) : Option String :=
  ((parts bs).mapM id).map String.ofList

end HeaderMiner.Utf8
