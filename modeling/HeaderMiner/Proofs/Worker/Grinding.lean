import HeaderMiner.Proofs.Header.Hashing
import HeaderMiner.Worker.Grind
/-!
# What grinding finds

The hasher of a search follows the header that is searched, so a batch finds the first of its nonces
with which the header meets the target (`scan_eq`).  A search takes its batches one behind the other
up to the end of its interval; so whenever and however often it looks at its token, what it finds is
a nonce of the interval with which the header meets the target (`meets_of_search`).
-/

namespace HeaderMiner.Grind

/-- whether a header meets a target with a nonce written in -/
def meets (h : Header) (target : Target) (n : Nat) : Bool :=
  ({ h with nonce := UInt32.ofNat n } : Header).verify target

variable {h : Header} {target : Target} {s : Hasher}

theorem scan_eq (target : Target) (v : s.Follows h) (n count : Nat) :
    (scan target s n count).1 = (List.range' n count).find? (meets h target) ∧
      (scan target s n count).2.Follows h := by
  induction count generalizing s n with
  | zero => exact ⟨rfl, v⟩
  | succ count ih =>
    have hm : target.isMetBy (s.hashNonce (UInt32.ofNat n)).1 = meets h target n := by
      rw [v.hash_eq]
      rfl
    have hnext : (s.hashNonce (UInt32.ofNat n)).2.Follows h := v.next _
    rw [scan, List.range'_succ, List.find?_cons]
    dsimp only
    rw [hm]
    by_cases hn : meets h target n = true
    · simp only [hn, if_true]
      exact ⟨trivial, hnext⟩
    · have hf : meets h target n = false := Bool.eq_false_iff.2 hn
      simp only [hf, Bool.false_eq_true, if_false]
      exact ih hnext (n + 1)

theorem meets_of_search (v : s.Follows h) {seen : Nat → Bool} {limit look n batches m : Nat}
    (hm : (search target seen limit s look n batches).nonce = some m) :
    n ≤ m ∧ m < limit ∧ meets h target m = true := by
  induction batches generalizing s look n with
  | zero => cases hm
  | succ batches ih =>
    rw [search] at hm
    dsimp only at hm
    split at hm
    · cases hm
    · next hlimit =>
      split at hm
      · cases hm
      · obtain ⟨hfind, hnext⟩ := scan_eq target v n (min batchSize (limit - n))
        split at hm
        · next k s' hscan =>
          obtain rfl : k = m := Option.some.inj hm
          rw [hscan] at hfind
          have hk : k ∈ List.range' n (min batchSize (limit - n)) :=
            List.mem_of_find?_eq_some hfind.symm
          rw [List.mem_range'_1] at hk
          exact ⟨hk.1, by omega, List.find?_some hfind.symm⟩
        · next s' hscan =>
          rw [hscan] at hnext
          obtain ⟨hle, hlt, hmeets⟩ := ih hnext hm
          exact ⟨by omega, hlt, hmeets⟩

theorem limit_le (start range : UInt32) : limit start range ≤ 2 ^ 32 := Nat.min_le_right ..

theorem verify_of_run {start range : UInt32} {seen : Nat → Bool} {c : Candidate}
    (hc : (run h target start range seen).1 = c) (hm : c.isMatch = true) :
    start.toNat ≤ c.nonce.toNat ∧ c.nonce.toNat < limit start range ∧
      ({ h with nonce := c.nonce } : Header).verify target = true ∧
      c.extraNonce = h.extraNonce ∧ c.proof = none := by
  unfold run at hc
  dsimp only at hc
  split at hc
  · next n hn =>
    obtain ⟨hle, hlt, hmeets⟩ := meets_of_search (Hasher.follows_ofHeader h) hn
    have hnonce : (UInt32.ofNat n).toNat = n := by
      rw [UInt32.toNat_ofNat']
      exact Nat.mod_eq_of_lt (Nat.lt_of_lt_of_le hlt (limit_le ..))
    subst hc
    exact ⟨hnonce.symm ▸ hle, hnonce.symm ▸ hlt, hmeets, rfl, rfl⟩
  · subst hc
    cases hm

end HeaderMiner.Grind
