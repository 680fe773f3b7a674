import Mathlib.Order.Bounds.Basic
import Mathlib.Order.Interval.Set.Defs
import HeaderMiner.Proofs.Target.Order
import HeaderMiner.Proofs.Worker.Grinding
/-!
# The first match, and when a search ends without one

A search of `[a, b)` ends in one of three ways (`Grind.Ends`): it finds the least nonce of the interval
that meets the target, it sees itself cancelled before a batch, or it comes to the end of the interval.
The batch of a nonce `m` is the one numbered `(m - a) / batchSize`, so what was not seen before that
batch cannot have kept the search from `m`.

The ways are carried from one batch to the next (`Ends.next`): a batch that finds nothing is either
whole, and then all numbers of batches move by one, or it is the last one, and then nothing is left
behind it.  As no interval has more nonces than there are, the batches that are allowed for always are
enough (`ends_outcome`).
-/

namespace HeaderMiner.Grind

/-- the number of the hash that a header has with a nonce written in -/
def hashAt (h : Header) (n : Nat) : Nat :=
  beNat ({ h with nonce := UInt32.ofNat n } : Header).powHash.toList

/-- the nonces of `[a, b)` with which a header meets a target -/
def hits (h : Header) (target : Target) (a b : Nat) : Set Nat :=
  {n | a ≤ n ∧ n < b ∧ hashAt h n ≤ target.value}

/-- how a search of `[a, b)` can end whose first look at its token has number `look` -/
inductive Ends (h : Header) (target : Target) (seen : Nat → Bool) (look a b : Nat) : Outcome → Prop
  | found {m : Nat} (least : IsLeast (hits h target a b) m)
      (unseen : ∀ k ≤ (m - a) / batchSize, seen (look + k) = false) :
      Ends h target seen look a b ⟨some m, m - a + 1⟩
  | cancelled {k : Nat} (inside : a + k * batchSize < b) (sees : seen (look + k) = true)
      (unseen : ∀ i < k, seen (look + i) = false)
      (behind : ∀ m ∈ hits h target a b, a + k * batchSize ≤ m) :
      Ends h target seen look a b ⟨none, k * batchSize⟩
  | exhausted (unseen : ∀ k, a + k * batchSize < b → seen (look + k) = false)
      (empty : hits h target a b = ∅) : Ends h target seen look a b ⟨none, b - a⟩

variable {h : Header} {target : Target} {seen : Nat → Bool} {s : Hasher} {look a b m : Nat}
  {o : Outcome}

theorem meets_iff (h : Header) (target : Target) (n : Nat) :
    meets h target n = true ↔ hashAt h n ≤ target.value := Target.isMetBy_iff

/-! ## one batch -/

theorem isLeast_of_scan {size : Nat} (hb : a + size ≤ b)
    (hf : (List.range' a size).find? (meets h target) = some m) :
    IsLeast (hits h target a b) m ∧ m < a + size := by
  obtain ⟨hm, i, hi, hget, before⟩ := List.find?_eq_some_iff_getElem.1 hf
  rw [List.length_range'] at hi
  rw [List.getElem_range', Nat.one_mul] at hget
  refine ⟨⟨⟨by omega, by omega, (meets_iff ..).1 hm⟩, ?_⟩, by omega⟩
  rintro n ⟨hle, _, hn⟩
  by_contra hlt
  have hj : n - a < i := by omega
  have hne := before (n - a) hj
  have hna : a + 1 * (n - a) = n := by omega
  rw [List.getElem_range', hna, (meets_iff ..).2 hn] at hne
  cases hne

theorem le_of_scan {size : Nat} (hf : (List.range' a size).find? (meets h target) = none)
    (hm : m ∈ hits h target a b) : a + size ≤ m := by
  by_contra hlt
  rw [List.find?_eq_none] at hf
  exact hf m (List.mem_range'_1.2 ⟨hm.1, by omega⟩) ((meets_iff ..).2 hm.2.2)

theorem hits_of_le {size : Nat} (hle : ∀ m ∈ hits h target a b, a + size ≤ m) :
    hits h target a b = hits h target (a + size) b := by
  ext m
  constructor
  · intro hm
    exact ⟨hle m hm, hm.2⟩
  · intro hm
    have h1 : a + size ≤ m := hm.1
    exact ⟨by omega, hm.2⟩

/-! ## one batch after the other -/

theorem hits_eq_empty (hba : b ≤ a) : hits h target a b = ∅ := by
  ext m
  refine iff_of_false ?_ (Set.notMem_empty m)
  rintro ⟨h1, h2, _⟩
  omega

theorem ends_of_le (hba : b ≤ a) : Ends h target seen look a b ⟨none, 0⟩ := by
  have v : Ends h target seen look a b ⟨none, b - a⟩ :=
    .exhausted (fun k hk => absurd hk (by omega)) (hits_eq_empty hba)
  rwa [Nat.sub_eq_zero_of_le hba] at v

theorem Ends.eq_of_le (v : Ends h target seen look a b o) (hba : b ≤ a) : o = ⟨none, 0⟩ := by
  cases v with
  | found least =>
    have hm := least.1
    rw [hits_eq_empty hba] at hm
    exact absurd hm (Set.notMem_empty _)
  | cancelled inside => exact absurd inside (by omega)
  | exhausted => rw [Nat.sub_eq_zero_of_le hba]

/-- the last batch, which may be short, is all that there is -/
theorem ends_last (hba : b ≤ a + batchSize) (hlook : seen look = false)
    (hits_eq : hits h target a b = ∅) : Ends h target seen look a b ⟨none, b - a⟩ := by
  refine .exhausted (fun k hk => ?_) hits_eq
  have h0 : k = 0 := by
    by_contra h0
    have hk1 : 1 * batchSize ≤ k * batchSize :=
      Nat.mul_le_mul_right batchSize (Nat.one_le_iff_ne_zero.2 h0)
    omega
  rw [h0]
  exact hlook

theorem unseen_succ {n : Nat} (hlook : seen look = false)
    (unseen : ∀ i < n, seen (look + 1 + i) = false) {k : Nat} (hk : k ≤ n) :
    seen (look + k) = false := by
  cases k with
  | zero => exact hlook
  | succ i =>
    rw [show look + (i + 1) = look + 1 + i by omega]
    exact unseen i hk

/-- behind a whole batch that has found nothing the search goes on as if it began there -/
theorem Ends.next (hba : a + batchSize ≤ b) (hlook : seen look = false)
    (behind : ∀ m ∈ hits h target a b, a + batchSize ≤ m)
    (v : Ends h target seen (look + 1) (a + batchSize) b o) :
    Ends h target seen look a b ⟨o.nonce, batchSize + o.hashed⟩ := by
  have hsame : hits h target a b = hits h target (a + batchSize) b := hits_of_le behind
  have hsucc (k : Nat) : (k + 1) * batchSize = batchSize + k * batchSize := by
    rw [Nat.succ_mul, Nat.add_comm]
  cases v with
  | @found m least unseen =>
    rw [← hsame] at least
    have hm : a + batchSize ≤ m := behind m least.1
    have hbatch : (m - a) / batchSize = (m - (a + batchSize)) / batchSize + 1 := by
      rw [← Nat.add_div_right _ (by decide)]
      congr 1
      omega
    have hcount : batchSize + (m - (a + batchSize) + 1) = m - a + 1 := by omega
    rw [hcount]
    refine .found least fun k hk => ?_
    rw [hbatch] at hk
    exact unseen_succ hlook (fun i hi => unseen i (Nat.le_of_lt_succ hi)) hk
  | @cancelled k inside sees unseen behind' =>
    rw [← hsucc]
    refine .cancelled ?_ ?_ ?_ ?_
    · rw [hsucc]
      omega
    · rw [show look + (k + 1) = look + 1 + k by omega]
      exact sees
    · intro i hi
      exact unseen_succ hlook unseen (Nat.le_of_lt_succ hi)
    · intro m hm
      have hk := behind' m (hsame ▸ hm)
      rw [hsucc]
      omega
  | exhausted unseen empty =>
    have hcount : batchSize + (b - (a + batchSize)) = b - a := by omega
    rw [hcount]
    refine .exhausted (fun k hk => ?_) (hsame.trans empty)
    cases k with
    | zero => exact hlook
    | succ k =>
      rw [hsucc] at hk
      rw [show look + (k + 1) = look + 1 + k by omega]
      exact unseen k (by omega)

/-- a search that has batches enough ends in one of its ways -/
theorem ends_search (v : s.Follows h) {batches : Nat} (hn : b ≤ a + batches * batchSize) :
    Ends h target seen look a b (search target seen b s look a batches) := by
  induction batches generalizing s look a with
  | zero => exact ends_of_le (by omega)
  | succ batches ih =>
    rw [search]
    dsimp only
    by_cases hba : b ≤ a
    · rw [if_pos hba]
      exact ends_of_le hba
    rw [if_neg hba]
    by_cases hc : seen look = true
    · rw [if_pos hc]
      have w : Ends h target seen look a b ⟨none, 0 * batchSize⟩ :=
        .cancelled (by omega) hc (fun i hi => absurd hi (by omega)) fun m hm => by
          have := hm.1
          omega
      rwa [Nat.zero_mul] at w
    rw [if_neg hc]
    have hlook : seen look = false := Bool.eq_false_iff.2 hc
    obtain ⟨hfind, hnext⟩ := scan_eq target v a (min batchSize (b - a))
    split
    · next m s' hscan =>
      rw [hscan] at hfind
      have hsize : a + min batchSize (b - a) ≤ b := by omega
      obtain ⟨hleast, hlt⟩ := isLeast_of_scan hsize hfind.symm
      refine .found hleast fun k hk => ?_
      have ha : a ≤ m := hleast.1.1
      have hbatch : (m - a) / batchSize = 0 := Nat.div_eq_of_lt (by omega)
      have h0 : k = 0 := by omega
      rw [h0]
      exact hlook
    · next s' hscan =>
      rw [hscan] at hfind hnext
      have behind : ∀ m ∈ hits h target a b, a + min batchSize (b - a) ≤ m :=
        fun m hm => le_of_scan hfind.symm hm
      rw [Nat.succ_mul] at hn
      have w : Ends h target seen (look + 1) (a + min batchSize (b - a)) b _ :=
        ih hnext (by omega)
      -- behind a short batch nothing is left, so the numbers of batches need not move by one there
      rcases Nat.le_total batchSize (b - a) with hwhole | hlast
      · rw [Nat.min_eq_left hwhole] at behind w ⊢
        exact .next (by omega) hlook behind w
      · rw [Nat.min_eq_right hlast, Nat.add_sub_cancel' (by omega)] at behind w
        rw [Nat.min_eq_right hlast, Nat.add_sub_cancel' (by omega), w.eq_of_le (Nat.le_refl b)]
        refine ends_last (by omega) hlook (Set.eq_empty_of_forall_notMem fun m hm => ?_)
        exact absurd (behind m hm) (Nat.not_le.2 hm.2.1)

/-- whether a search finds a nonce: the first hit, if it is not kept from it -/
def Finds (h : Header) (target : Target) (seen : Nat → Bool) (look a b m : Nat) : Prop :=
  IsLeast (hits h target a b) m ∧ ∀ k ≤ (m - a) / batchSize, seen (look + k) = false

theorem Ends.nonce_eq_some_iff (v : Ends h target seen look a b o) :
    o.nonce = some m ↔ Finds h target seen look a b m := by
  cases v with
  | @found m' least unseen =>
    constructor
    · intro hm
      obtain rfl := Option.some.inj hm
      exact ⟨least, unseen⟩
    · intro hm
      exact congrArg some (least.unique hm.1)
  | @cancelled k inside sees unseen behind =>
    refine iff_of_false nofun ?_
    rintro ⟨least, hun⟩
    have hle := behind m least.1
    have hk : k ≤ (m - a) / batchSize :=
      (Nat.le_div_iff_mul_le (by decide)).2 (by omega)
    rw [hun k hk] at sees
    cases sees
  | exhausted unseen empty =>
    refine iff_of_false nofun ?_
    rintro ⟨least, _⟩
    rw [empty] at least
    exact Set.notMem_empty m least.1

theorem Ends.hashed_of_found (v : Ends h target seen look a b o) (hm : o.nonce = some m) :
    o.hashed = m - a + 1 ∧ a ≤ m ∧ m < b := by
  cases v with
  | found least =>
    obtain rfl := Option.some.inj hm
    exact ⟨rfl, least.1.1, least.1.2.1⟩
  | cancelled => cases hm
  | exhausted => cases hm

theorem Ends.hashed_of_unseen (v : Ends h target seen look a b o) (hm : o.nonce = none)
    (unseen : ∀ k, a + k * batchSize < b → seen (look + k) = false) : o.hashed = b - a := by
  cases v with
  | found => cases hm
  | cancelled inside sees =>
    rw [unseen _ inside] at sees
    cases sees
  | exhausted => rfl

theorem Ends.hashed_of_seen (v : Ends h target seen look a b o) (hm : o.nonce = none) {k : Nat}
    (inside : a + k * batchSize < b) (sees : seen (look + k) = true)
    (unseen : ∀ i < k, seen (look + i) = false) : o.hashed = k * batchSize := by
  cases v with
  | found => cases hm
  | @cancelled i inside' sees' unseen' behind =>
    -- both are the first look that sees it
    rcases Nat.lt_trichotomy i k with hlt | rfl | hlt
    · rw [unseen i hlt] at sees'
      cases sees'
    · rfl
    · rw [unseen' k hlt] at sees
      cases sees
  | exhausted unseen' =>
    rw [unseen' k inside] at sees
    cases sees

theorem Ends.hashed_le (v : Ends h target seen look a b o) (hab : a ≤ b) : a + o.hashed ≤ b := by
  cases v with
  | @found m least unseen =>
    have h1 : a ≤ m := least.1.1
    have h2 : m < b := least.1.2.1
    show a + (m - a + 1) ≤ b
    omega
  | cancelled inside => exact Nat.le_of_lt inside
  | exhausted =>
    show a + (b - a) ≤ b
    omega

/-- what a search of a header finds and how many nonces it hashes -/
def outcome (h : Header) (target : Target) (start range : UInt32) (seen : Nat → Bool) : Outcome :=
  search target seen (limit start range) (.ofHeader h) 0 start.toNat maxBatches

theorem lt_limit (start range : UInt32) : start.toNat < limit start range := by
  have hs := start.toNat_lt
  have hr : 0 < if range = 0 then 2 ^ 32 else range.toNat := by
    by_cases h0 : range = 0
    · rw [if_pos h0]
      decide
    · rw [if_neg h0]
      exact Nat.pos_of_ne_zero fun h => h0 (UInt32.toNat_inj.1 h)
  unfold limit
  omega

theorem limit_le_maxBatches (start range : UInt32) :
    limit start range ≤ start.toNat + maxBatches * batchSize := by
  have hl := limit_le start range
  have hm : maxBatches * batchSize = 2 ^ 32 + batchSize := by decide
  omega

theorem ends_outcome (h : Header) (target : Target) (start range : UInt32) (seen : Nat → Bool) :
    Ends h target seen 0 start.toNat (limit start range) (outcome h target start range seen) :=
  ends_search (Hasher.follows_ofHeader h) (limit_le_maxBatches start range)

theorem run_eq_of_found {start range : UInt32}
    (hm : (outcome h target start range seen).nonce = some m) :
    run h target start range seen =
      ({ nonce := UInt32.ofNat m, extraNonce := h.extraNonce, proof := none, isMatch := true },
        ⟨(outcome h target start range seen).hashed, 1⟩) := by
  unfold outcome at hm ⊢
  unfold run
  simp only [hm]

theorem run_eq_of_none {start range : UInt32}
    (hm : (outcome h target start range seen).nonce = none) :
    run h target start range seen =
      (.noneOn h, ⟨(outcome h target start range seen).hashed, 0⟩) := by
  unfold outcome at hm ⊢
  unfold run
  simp only [hm]

end HeaderMiner.Grind
