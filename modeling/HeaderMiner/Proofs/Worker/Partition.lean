import Mathlib.Data.Nat.ModEq
import Mathlib.Data.Set.Lattice
import Mathlib.Order.CompletePartialOrder
import Mathlib.Order.Interval.Set.Basic
import HeaderMiner.Proofs.Worker.Fanout
import HeaderMiner.Proofs.Worker.Sweeping
/-!
# Nonces of workers side by side

Worker `i` of a nonce search begins `i` ranges behind the first nonce, counted modulo `2 ^ 32`, and
its interval is cut at the end of the nonce space and does not go round (`Request.nonces`).  Counted
from the first nonce, and modulo `2 ^ 32`, a nonce of its interval is `i * range + a` with `a < range`
(`modEq_offset`).  Where the ranges of all workers fit the nonce space these numbers are below
`2 ^ 32`, so a nonce tells its worker (`eq_of_modEq`), whatever the first nonce is; and where the
ranges end inside the nonce space nothing is cut and nothing goes round, so none is missing.
-/

namespace HeaderMiner

/-- the nonces that a search may hash -/
def Request.nonces (r : Request) : Set Nat :=
  match r.params with
  | .nonce q => Set.Ico q.nonce.toNat (Grind.limit q.nonce q.range)
  | .cycle _ => ∅

theorem Request.nonces_of_params {r : Request} {q : NonceParams} (hq : r.params = .nonce q) :
    r.nonces = Set.Ico q.nonce.toNat (Grind.limit q.nonce q.range) := by
  rw [nonces, hq]

theorem Grind.limit_of_ne_zero {start range : UInt32} (hr : range ≠ 0) :
    limit start range = min (start.toNat + range.toNat) (2 ^ 32) := by
  rw [limit, if_neg hr]

/-! ## nonces modulo the nonce space -/

variable {space base range n i j x : Nat}

theorem modEq_offset (hle : (base + i * range) % space ≤ x) :
    base + (i * range + (x - (base + i * range) % space)) ≡ x [MOD space] := by
  have hs : base + i * range ≡ (base + i * range) % space [MOD space] := (Nat.mod_modEq ..).symm
  have h := hs.add_right (x - (base + i * range) % space)
  rwa [Nat.add_sub_cancel' hle, Nat.add_assoc] at h

/-- workers whose ranges fit the nonce space have no nonce in common -/
theorem eq_of_modEq (hn : n * range ≤ space) (hi : i < n) (hj : j < n) {a b : Nat} (ha : a < range)
    (hb : b < range) (h : base + (i * range + a) ≡ base + (j * range + b) [MOD space]) : i = j := by
  have inside {k c : Nat} (hk : k < n) (hc : c < range) : k * range + c < space := by
    have hle := Nat.mul_le_mul_right range (Nat.succ_le_of_lt hk)
    rw [Nat.succ_mul] at hle
    omega
  have worker {k c : Nat} (hc : c < range) : (k * range + c) / range = k := by
    rw [Nat.mul_comm, Nat.mul_add_div (by omega), Nat.div_eq_of_lt hc, Nat.add_zero]
  have he : i * range + a = j * range + b :=
    (h.add_left_cancel' base).eq_of_lt_of_lt (inside hi ha) (inside hj hb)
  rw [← worker (k := i) ha, he, worker hb]

theorem disjoint_nonces (hn : n * range ≤ space) (hi : i < n) (hj : j < n) (hne : i ≠ j)
    (top top' : Nat) :
    Disjoint
      (Set.Ico ((base + i * range) % space) (min ((base + i * range) % space + range) top))
      (Set.Ico ((base + j * range) % space) (min ((base + j * range) % space + range) top')) := by
  rw [Set.disjoint_left]
  rintro x ⟨hxi, hxi'⟩ ⟨hxj, hxj'⟩
  have hmod := (modEq_offset hxi).trans (modEq_offset hxj).symm
  refine hne (eq_of_modEq hn hi hj ?_ ?_ hmod)
  · omega
  · omega

/-- workers whose ranges end inside the nonce space have all nonces up to there -/
theorem mem_nonces_iff (hr : 0 < range) (hn : base + n * range ≤ space) :
    (∃ i < n, x ∈ Set.Ico ((base + i * range) % space)
        (min ((base + i * range) % space + range) space)) ↔ x ∈ Set.Ico base (base + n * range) := by
  have inside {i : Nat} (hi : i < n) : i * range + range ≤ n * range := by
    rw [← Nat.succ_mul]
    exact Nat.mul_le_mul_right range (Nat.succ_le_of_lt hi)
  have straight {i : Nat} (hi : i < n) : (base + i * range) % space = base + i * range := by
    have hle := inside hi
    exact Nat.mod_eq_of_lt (by omega)
  constructor
  · rintro ⟨i, hi, hxi, hxi'⟩
    have hle := inside hi
    rw [straight hi] at hxi hxi'
    exact ⟨by omega, by omega⟩
  · rintro ⟨hx, hx'⟩
    have hi : (x - base) / range < n := (Nat.div_lt_iff_lt_mul hr).2 (by omega)
    have hle := inside hi
    have hlow := Nat.div_mul_le_self (x - base) range
    have hup := Nat.lt_div_mul_add hr (a := x - base)
    refine ⟨(x - base) / range, hi, ?_⟩
    rw [straight hi]
    exact ⟨by omega, by omega⟩

/-! ## the workers of a round -/

namespace Round.Plan

variable {p : Plan} {q : NonceParams} {h : Header} {target : Target} {tails : Nat → Octets 12}

def start (q : NonceParams) (i : Nat) : UInt32 := q.nonce + UInt32.ofNat i * q.range

theorem toNat_start (q : NonceParams) (i : Nat) :
    (start q i).toNat = (q.nonce.toNat + i * q.range.toNat) % 2 ^ 32 := by
  rw [start, UInt32.toNat_add, UInt32.toNat_mul, UInt32.toNat_ofNat', Nat.mod_mul_mod, Nat.add_mod_mod]

theorem nonces_request (hq : p.params = .nonce q) (hr : q.range ≠ 0) (h : Header) (target : Target)
    (tail : Octets 12) (i : Nat) :
    (p.request h target tail i).params = .nonce { q with nonce := start q i } ∧
      (p.request h target tail i).nonces =
        Set.Ico ((q.nonce.toNat + i * q.range.toNat) % 2 ^ 32)
          (min ((q.nonce.toNat + i * q.range.toNat) % 2 ^ 32 + q.range.toNat) (2 ^ 32)) := by
  have hp : (p.request h target tail i).params = .nonce { q with nonce := start q i } := by
    show p.params.forWorker i = _
    rw [hq]
    rfl
  refine ⟨hp, ?_⟩
  rw [Request.nonces_of_params hp, Grind.limit_of_ne_zero hr, toNat_start]

theorem length_requests : (p.requests h target tails).length = p.workers := by
  rw [requests, List.length_map, List.length_range]

theorem pairwise_requests {R : Request → Request → Prop}
    (hR : ∀ i j, i < j → j < p.workers →
      R (p.request h target (tails i) i) (p.request h target (tails j) j)) :
    (p.requests h target tails).Pairwise R := by
  rw [List.pairwise_iff_getElem]
  intro i j hi hj hij
  rw [length_requests] at hj
  simp only [requests, List.getElem_map, List.getElem_range]
  exact hR i j hij hj

theorem mem_requests {r : Request} :
    r ∈ p.requests h target tails ↔ ∃ i < p.workers, p.request h target (tails i) i = r := by
  simp only [requests, List.mem_map, List.mem_range]

/-- Workers of a round on all devices differ in where they begin alone.  If the ranges of all of them
fit the nonce space, no nonce belongs to two workers, also where starts have gone round; if they end
inside it, the workers have all nonces from the first one on between them.  A pinned device has the
nonces of the first worker.  The nonces of a worker are those that its search hashes, each of them
once, if it finds nothing and is not cancelled, and it never hashes another one. -/
theorem nonces_partitioned (hq : p.params = .nonce q) (hr : q.range ≠ 0) (h : Header)
    (target : Target) (tails : Nat → Octets 12) :
    (p.device = none →
      (p.requests h target tails).length = p.devices ∧
      (∀ i r, (p.requests h target tails)[i]? = some r →
        ∃ s : UInt32, s.toNat = (q.nonce.toNat + i * q.range.toNat) % 2 ^ 32 ∧
          r.params = .nonce { q with nonce := s } ∧
          r.nonces = Set.Ico s.toNat (min (s.toNat + q.range.toNat) (2 ^ 32))) ∧
      (p.devices * q.range.toNat ≤ 2 ^ 32 →
        (p.requests h target tails).Pairwise fun r r' => Disjoint r.nonces r'.nonces) ∧
      (q.nonce.toNat + p.devices * q.range.toNat ≤ 2 ^ 32 →
        (⋃ r ∈ p.requests h target tails, r.nonces) =
          Set.Ico q.nonce.toNat (q.nonce.toNat + p.devices * q.range.toNat))) ∧
    (∀ d, p.device = some d → ∃ r, p.requests h target tails = [r] ∧ r.device = d ∧
      r.params = p.params ∧
      r.nonces = ({ p with device := none }.request h target (tails 0) 0).nonces) ∧
    ∀ r ∈ p.requests h target tails, ∀ seen, ∃ s c sweep,
      r.params = .nonce { q with nonce := s } ∧
      Sweep.run? r.header r.target s q.range seen = some (c, sweep) ∧ sweep.tried.Nodup ∧
      (∀ n ∈ sweep.tried, n.toNat ∈ r.nonces) ∧
      (c.isMatch = false → (∀ k, seen k = false) →
        ∀ n : UInt32, n.toNat ∈ r.nonces → n ∈ sweep.tried) := by
  have hpos : 0 < q.range.toNat := Nat.pos_of_ne_zero fun h => hr (UInt32.toNat_inj.1 h)
  have nonces (i : Nat) := (nonces_request hq hr h target (tails i) i).2
  refine ⟨?_, ?_, ?_⟩
  · intro hd
    have hw : p.workers = p.devices := by simp only [workers, hd]
    refine ⟨length_requests.trans hw, ?_, ?_, ?_⟩
    · intro i r hi
      obtain rfl := eq_request hi
      obtain ⟨hp, hn⟩ := nonces_request hq hr h target (tails i) i
      refine ⟨start q i, toNat_start q i, hp, ?_⟩
      rw [hn, toNat_start]
    · intro hfit
      refine pairwise_requests fun i j hij hj => ?_
      rw [nonces, nonces]
      exact disjoint_nonces (hw ▸ hfit) (hij.trans hj) hj hij.ne _ _
    · intro hfit
      ext x
      rw [← mem_nonces_iff hpos hfit, Set.mem_iUnion₂]
      constructor
      · rintro ⟨r, hm, hx⟩
        obtain ⟨i, hi, rfl⟩ := mem_requests.1 hm
        rw [nonces] at hx
        exact ⟨i, hw ▸ hi, hx⟩
      · rintro ⟨i, hi, hx⟩
        refine ⟨_, mem_requests.2 ⟨i, hw ▸ hi, rfl⟩, ?_⟩
        rw [nonces]
        exact hx
  · intro d hd
    refine ⟨_, requests_of_pinned hd, ?_, ?_, ?_⟩
    · simp only [request, hd, Option.getD_some]
    · show p.params.forWorker 0 = p.params
      rw [hq]
      show Params.nonce { q with nonce := q.nonce + 0 * q.range } = _
      rw [UInt32.zero_mul, UInt32.add_zero]
    · have hn := nonces_request (p := { p with device := none }) hq hr h target (tails 0) 0
      rw [nonces, hn.2]
  · intro r hm seen
    obtain ⟨i, hi, rfl⟩ := mem_requests.1 hm
    obtain ⟨hp, _⟩ := nonces_request hq hr h target (tails i) i
    obtain ⟨c, sweep, hrun, hnodup, hinside, hall⟩ := Sweep.exists_run?
      (p.request h target (tails i) i).header (p.request h target (tails i) i).target (start q i)
      q.range seen
    rw [Request.nonces_of_params hp]
    exact ⟨start q i, c, sweep, hp, hrun, hnodup, hinside, fun hc hs n hn => hall hc hs n hn.1 hn.2⟩

namespace Trial

/-- three workers: the interval of the second is cut, and the third begins behind the first nonces of
all -/
def around : Plan := ⟨.nonce, 3, .nonce { nonce := 0xfffffff8, range := 5 }, none⟩

end Trial

theorem nonces_partitioned_around :
    Trial.around.params = .nonce { nonce := 0xfffffff8, range := 5 } ∧ (5 : UInt32) ≠ 0 ∧
    Trial.around.devices * 5 ≤ 2 ^ 32 ∧
    (Trial.around.requests .blank ⟨.replicate 32 0⟩ fun _ => .replicate 12 0).Pairwise
      fun r r' => Disjoint r.nonces r'.nonces := by
  have hfit : Trial.around.devices * (5 : UInt32).toNat ≤ 2 ^ 32 := by decide
  have h := nonces_partitioned (p := Trial.around) rfl (by decide) .blank ⟨.replicate 32 0⟩
    fun _ => .replicate 12 0
  exact ⟨rfl, by decide, hfit, (h.1 rfl).2.2.1 hfit⟩

end Round.Plan

end HeaderMiner
