import HeaderMiner.Power
/-!
# Byte strings and the integers they spell

Fixed-size fields are `Octets n`: a list of bytes together with its size.  `leNat`/`leBytes` read
and write little-endian integers, `beNat`/`beBytes` big-endian ones.  The two directions are
inverse to each other (`leNat_leBytes`, `leBytes_leNat`), so a field that is written and read back
is the same number, and a window of bytes that is read and written back is the same window.
-/

namespace HeaderMiner

/-! ## integers in bytes -/

/-- the number that bytes spell, least significant byte first -/
def leNat : List UInt8 → Nat
  | [] => 0
  | b :: bs => b.toNat + 256 * leNat bs

/-- the `k` least significant bytes of a number, least significant first -/
def leBytes : Nat → Nat → List UInt8
  | 0, _ => []
  | k + 1, n => UInt8.ofNat (n % 256) :: leBytes k (n / 256)

/-- the number that bytes spell, most significant byte first -/
def beNat (bs : List UInt8) : Nat := leNat bs.reverse

/-- the `k` least significant bytes of a number, most significant first -/
def beBytes (k n : Nat) : List UInt8 := (leBytes k n).reverse

theorem leNat_cons (b : UInt8) (bs : List UInt8) : leNat (b :: bs) = b.toNat + 256 * leNat bs := rfl

@[simp] theorem length_leBytes (k n : Nat) : (leBytes k n).length = k := by
  induction k generalizing n with
  | zero => rfl
  | succ k ih => simp [leBytes, ih]

@[simp] theorem length_beBytes (k n : Nat) : (beBytes k n).length = k := by
  simp [beBytes]

theorem leNat_lt (bs : List UInt8) : leNat bs < 256 ^ bs.length := by
  induction bs with
  | nil => simp [leNat]
  | cons b bs ih =>
    have hb := b.toNat_lt
    rw [leNat_cons, List.length_cons, Nat.pow_succ]
    omega

theorem leNat_leBytes (k n : Nat) : leNat (leBytes k n) = n % 256 ^ k := by
  induction k generalizing n with
  | zero => simp [leBytes, leNat, Nat.mod_one]
  | succ k ih =>
    have hb : (UInt8.ofNat (n % 256)).toNat = n % 256 := by simp
    rw [leBytes, leNat_cons, ih, hb, Nat.pow_succ, Nat.mul_comm (256 ^ k) 256, Nat.mod_mul]

theorem leBytes_leNat (bs : List UInt8) : leBytes bs.length (leNat bs) = bs := by
  induction bs with
  | nil => rfl
  | cons b bs ih =>
    have hb := b.toNat_lt
    have h1 : (b.toNat + 256 * leNat bs) % 256 = b.toNat := by omega
    have h2 : (b.toNat + 256 * leNat bs) / 256 = leNat bs := by omega
    rw [List.length_cons, leNat_cons, leBytes, h1, h2, ih]
    simp

theorem beNat_beBytes (k n : Nat) : beNat (beBytes k n) = n % 256 ^ k := by
  rw [beNat, beBytes, List.reverse_reverse, leNat_leBytes]

theorem beBytes_beNat (bs : List UInt8) : beBytes bs.length (beNat bs) = bs := by
  have h := leBytes_leNat bs.reverse
  rw [List.length_reverse] at h
  rw [beBytes, beNat, h, List.reverse_reverse]

/-! ## byte strings of a fixed size -/

/-- a byte string of exactly `n` bytes -/
structure Octets (n : Nat) where
  toList : List UInt8
  length_toList : toList.length = n
deriving DecidableEq

namespace Octets

@[ext] theorem ext {n : Nat} {a b : Octets n} (h : a.toList = b.toList) : a = b := by
  cases a; cases b; cases h; rfl

attribute [simp] length_toList

def ofList? (n : Nat) (bs : List UInt8) : Option (Octets n) :=
  if h : bs.length = n then some ⟨bs, h⟩ else none

def replicate (n : Nat) (b : UInt8) : Octets n := ⟨List.replicate n b, List.length_replicate⟩

/-- the `n` bytes from offset `i` on, of a byte string that reaches that far -/
def window (bs : List UInt8) (i n : Nat) (h : i + n ≤ bs.length) : Octets n :=
  ⟨(bs.drop i).take n, by simp; omega⟩

instance {n : Nat} : Inhabited (Octets n) := ⟨replicate n 0⟩

end Octets

end HeaderMiner
