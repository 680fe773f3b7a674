import Mathlib.Data.List.Nodup
import HeaderMiner.Proofs.Worker.FirstMatch
import HeaderMiner.Worker.Sweep
/-!
# Grinding in machine words comes to the same

A sweep reckons in words what `Grind.run` reckons in numbers.  Nothing of it wraps: a nonce is below
`2 ^ 32` when it is cut to 32 bits, the end of a batch is at most one batch above that, and a search
adds no more hashes than there are nonces.  And it ends, since no interval has more batches than are
allowed for (`run?_eq`).

So what a search finds, how often it hashes, and that it hashes the nonces of its interval one after
the other from the first one on, are exact (`Grind.run_exact`).
-/

namespace HeaderMiner

namespace Sweep

/-! ## words -/

theorem add?_eq {a b : UInt64} (h : a.toNat + b.toNat < 2 ^ 64) :
    ∃ c, add? a b = some c ∧ c.toNat = a.toNat + b.toNat :=
  ⟨a + b, if_pos (by omega), by rw [UInt64.toNat_add, Nat.mod_eq_of_lt h]⟩

theorem sub?_eq {a b : UInt64} (h : b.toNat ≤ a.toNat) :
    ∃ c, sub? a b = some c ∧ c.toNat = a.toNat - b.toNat := by
  have hle : b ≤ a := UInt64.le_iff_toNat_le.2 h
  exact ⟨a - b, if_pos hle, UInt64.toNat_sub_of_le a b hle⟩

theorem toUInt32_eq (n : UInt64) : n.toUInt32 = UInt32.ofNat n.toNat := by
  rw [← UInt32.toNat_inj, UInt64.toNat_toUInt32, UInt32.toNat_ofNat']

theorem count?_eq (s : Sweep) {hashes found : UInt64} (hh : s.hashes.toNat + hashes.toNat < 2 ^ 64)
    (hf : s.found.toNat + found.toNat < 2 ^ 64) :
    ∃ t : Sweep, s.count? hashes found = some t ∧ t.tried = s.tried ∧
      t.hashes.toNat = s.hashes.toNat + hashes.toNat ∧
      t.found.toNat = s.found.toNat + found.toNat := by
  obtain ⟨x, hx, hxn⟩ := add?_eq hh
  obtain ⟨y, hy, hyn⟩ := add?_eq hf
  refine ⟨{ s with hashes := x, found := y }, ?_, rfl, hxn, hyn⟩
  simp only [count?, hx, hy, Option.bind_eq_bind, Option.bind_some]
  rfl

/-! ## one batch -/

/-- how many of `size` nonces from `n` on are hashed when `hit` is found -/
def tries (n size : Nat) (hit : Option Nat) : Nat :=
  match hit with
  | some m => m - n + 1
  | none => size

variable {h : Header} {hasher : Hasher}

theorem bounds_of_scan {target : Target} (v : hasher.Follows h) {n size m : Nat}
    (hm : (Grind.scan target hasher n size).1 = some m) : n ≤ m ∧ m < n + size := by
  rw [(Grind.scan_eq target v n size).1] at hm
  exact List.mem_range'_1.1 (List.mem_of_find?_eq_some hm)

theorem batch?_eq (target : Target) (v : hasher.Follows h) (tried : List UInt32) {n stop : UInt64}
    {size : Nat} (hsize : n.toNat + size = stop.toNat) :
    batch? target stop hasher tried n =
      some ((Grind.scan target hasher n.toNat size).1.map UInt64.ofNat,
        (Grind.scan target hasher n.toNat size).2,
        tried ++ (List.range' n.toNat
          (tries n.toNat size (Grind.scan target hasher n.toNat size).1)).map UInt32.ofNat) := by
  induction size generalizing n hasher tried with
  | zero =>
    have hge : ¬ n < stop := by
      rw [UInt64.lt_iff_toNat_lt]
      omega
    rw [batch?, dif_neg hge]
    simp [Grind.scan, tries]
  | succ size ih =>
    have hlt : n < stop := UInt64.lt_iff_toNat_lt.2 (by omega)
    have hbound := stop.toNat_lt
    obtain ⟨next, hnext, hn⟩ := add?_eq (a := n) (b := 1) (by show n.toNat + 1 < _; omega)
    have hn : next.toNat = n.toNat + 1 := hn
    rw [batch?, dif_pos hlt, Grind.scan, toUInt32_eq]
    dsimp only
    by_cases hmet : target.isMetBy (hasher.hashNonce (UInt32.ofNat n.toNat)).1 = true
    · rw [if_pos hmet, if_pos hmet]
      simp [tries]
    · rw [if_neg hmet, if_neg hmet]
      have hv := v.next (UInt32.ofNat n.toNat)
      have hi := ih hv (tried ++ [UInt32.ofNat n.toNat]) (n := next) (by omega)
      split
      · next hs =>
        rw [hnext] at hs
        cases hs
      next m hs =>
      obtain rfl : next = m := Option.some.inj (hnext.symm.trans hs)
      rw [hn] at hi
      refine hi.trans ?_
      have hcount : tries n.toNat (size + 1)
          (Grind.scan target (hasher.hashNonce (UInt32.ofNat n.toNat)).2 (n.toNat + 1) size).1 =
          tries (n.toNat + 1) size
          (Grind.scan target (hasher.hashNonce (UInt32.ofNat n.toNat)).2 (n.toNat + 1) size).1 + 1 := by
        cases hscan : (Grind.scan target (hasher.hashNonce (UInt32.ofNat n.toNat)).2
            (n.toNat + 1) size).1 with
        | none => rfl
        | some m =>
          have hm := bounds_of_scan hv hscan
          show m - n.toNat + 1 = m - (n.toNat + 1) + 1 + 1
          omega
      rw [hcount, List.range'_succ, List.map_cons, List.append_assoc, List.singleton_append]

/-! ## the whole sweep -/

/-- what a loop comes to that has gone on with a search from nonce `n` -/
structure Leads (s t : Sweep) (n : Nat) (o : Grind.Outcome) : Prop where
  tried : t.tried = s.tried ++ (List.range' n o.hashed).map UInt32.ofNat
  hashes : t.hashes.toNat = s.hashes.toNat + o.hashed
  found : t.found.toNat = s.found.toNat + o.nonce.toList.length

theorem Leads.none (s : Sweep) (n : Nat) : Leads s s n ⟨.none, 0⟩ :=
  ⟨(List.append_nil _).symm, rfl, rfl⟩

theorem Leads.cons {s t u : Sweep} {n size : Nat} {o : Grind.Outcome}
    (v : Leads s t n ⟨.none, size⟩) (w : Leads t u (n + size) o) :
    Leads s u n ⟨o.nonce, size + o.hashed⟩ where
  tried := by
    rw [w.tried, v.tried, List.append_assoc, ← List.map_append, List.range'_append_1]
  hashes := by
    rw [w.hashes, v.hashes, Nat.add_assoc]
  found := by
    rw [w.found, v.found]
    rfl

/-- what is hashed below `2 ^ 32` is hashed with the nonces that are counted -/
theorem Leads.map_toNat_tried {s t : Sweep} {n : Nat} {o : Grind.Outcome} (v : Leads s t n o)
    (hs : s.tried = []) (hn : n + o.hashed ≤ 2 ^ 32) :
    t.tried.map UInt32.toNat = List.range' n o.hashed := by
  rw [v.tried, hs, List.nil_append, List.map_map]
  refine (List.map_congr_left fun m hm => ?_).trans (List.map_id _)
  have hlt : m < n + o.hashed := (List.mem_range'_1.1 hm).2
  show (UInt32.ofNat m).toNat = m
  rw [UInt32.toNat_ofNat']
  exact Nat.mod_eq_of_lt (by omega)

theorem Leads.count? (s : Sweep) (n : Nat) (o : Grind.Outcome) {hashes found : UInt64}
    (hh : hashes.toNat = o.hashed) (hf : found.toNat = o.nonce.toList.length)
    (hroom : s.hashes.toNat + o.hashed < 2 ^ 64) (hfirst : s.found = 0) :
    ∃ t, ({ s with tried := s.tried ++ (List.range' n o.hashed).map UInt32.ofNat } : Sweep).count?
        hashes found = some t ∧ Leads s t n o := by
  have hzero : s.found.toNat = 0 := by
    rw [hfirst]
    rfl
  have hfound : s.found.toNat + found.toNat < 2 ^ 64 := by
    rw [hf, hzero]
    cases o.nonce <;> simp
  obtain ⟨t, ht, htried, hhashes, hfounds⟩ := count?_eq
    { s with tried := s.tried ++ (List.range' n o.hashed).map UInt32.ofNat }
    (by rwa [← hh] at hroom) hfound
  exact ⟨t, ht, htried, hhashes.trans (congrArg _ hh), hfounds.trans (congrArg _ hf)⟩

theorem stop_eq {nonce limit : UInt64} (hspace : limit.toNat ≤ 2 ^ 32) (hlt : nonce < limit) :
    ∃ next, add? nonce 4096 = some next ∧ (smaller next limit).toNat =
      nonce.toNat + min Grind.batchSize (limit.toNat - nonce.toNat) := by
  have hlt : nonce.toNat < limit.toNat := UInt64.lt_iff_toNat_lt.1 hlt
  have hsum : nonce.toNat + (4096 : UInt64).toNat < 2 ^ 64 := by
    show nonce.toNat + 4096 < _
    omega
  obtain ⟨next, hnext, hn⟩ := add?_eq hsum
  refine ⟨next, hnext, ?_⟩
  rw [toNat_smaller, hn]
  show min (nonce.toNat + 4096) _ = nonce.toNat + min 4096 _
  omega

theorem hashes_eq {nonce : UInt64} {m : Nat} (hle : nonce.toNat ≤ m) (hlt : m < 2 ^ 32) :
    ∃ before hashes, sub? (UInt64.ofNat m) nonce = some before ∧ add? before 1 = some hashes ∧
      hashes.toNat = m - nonce.toNat + 1 := by
  have hm : (UInt64.ofNat m).toNat = m := by
    rw [UInt64.toNat_ofNat']
    exact Nat.mod_eq_of_lt (by omega)
  obtain ⟨before, hb, hbn⟩ := sub?_eq (hm.symm ▸ hle)
  rw [hm] at hbn
  have hsum : before.toNat + (1 : UInt64).toNat < 2 ^ 64 := by
    show before.toNat + 1 < _
    omega
  obtain ⟨hashes, hh, hhn⟩ := add?_eq hsum
  refine ⟨before, hashes, hb, hh, ?_⟩
  rw [hhn, hbn]
  rfl

theorem loop?_eq (target : Target) (seen : Nat → Bool) (v : hasher.Follows h) (s : Sweep)
    (look : Nat) (nonce : UInt64) {limit : UInt64} {batches : Nat} (hspace : limit.toNat ≤ 2 ^ 32)
    (henough : limit.toNat ≤ nonce.toNat + batches * Grind.batchSize)
    (hroom : s.hashes.toNat ≤ nonce.toNat) (hfirst : s.found = 0) :
    ∃ t, loop? target seen limit hasher s look nonce =
        some ((Grind.search target seen limit.toNat hasher look nonce.toNat batches).nonce.map
          UInt64.ofNat, t) ∧
      Leads s t nonce.toNat
        (Grind.search target seen limit.toNat hasher look nonce.toNat batches) := by
  -- on the batches that are allowed for, of which the loop needs no more than there are
  induction batches generalizing hasher s look nonce with
  | zero =>
    have hge : ¬ nonce < limit := by
      rw [UInt64.lt_iff_toNat_lt]
      omega
    rw [loop?, dif_neg hge]
    exact ⟨s, rfl, .none s _⟩
  | succ batches ih =>
    rw [loop?, Grind.search]
    dsimp only
    by_cases hge : limit.toNat ≤ nonce.toNat
    · have hnlt : ¬ nonce < limit := by
        rw [UInt64.lt_iff_toNat_lt]
        omega
      rw [dif_neg hnlt, if_pos hge]
      exact ⟨s, rfl, .none s _⟩
    have hlt : nonce < limit := UInt64.lt_iff_toNat_lt.2 (by omega)
    rw [dif_pos hlt, if_neg hge]
    by_cases hc : seen look = true
    · rw [if_pos hc, if_pos hc]
      exact ⟨s, rfl, .none s _⟩
    rw [if_neg hc, if_neg hc]
    obtain ⟨next, hnext, hstop⟩ := stop_eq hspace hlt
    have hbatch := batch?_eq target v s.tried hstop.symm
    split
    · next hs =>
      rw [hnext] at hs
      cases hs
    next m hs =>
    obtain rfl : next = m := Option.some.inj (hnext.symm.trans hs)
    simp only [Option.bind_eq_bind, Option.bind_some, hbatch]
    generalize smaller next limit = stop at hstop
    generalize hsize : min Grind.batchSize (limit.toNat - nonce.toNat) = size at hstop
    have hinside : nonce.toNat + size ≤ limit.toNat := by omega
    obtain ⟨_, hv⟩ := Grind.scan_eq target v nonce.toNat size
    cases hscan : Grind.scan target hasher nonce.toNat size with
    | mk hit hasher' =>
    rw [hscan] at hv
    cases hit with
    | some m =>
      -- what has been hashed is the batch up to the match
      have hm := bounds_of_scan v (congrArg Prod.fst hscan)
      obtain ⟨before, hashes, hb, hh, hn⟩ := hashes_eq hm.1 (by omega)
      obtain ⟨t, ht, hlead⟩ := Leads.count? s nonce.toNat ⟨some m, m - nonce.toNat + 1⟩ hn
        (rfl : (1 : UInt64).toNat = _) (by show s.hashes.toNat + (m - nonce.toNat + 1) < _; omega)
        hfirst
      refine ⟨t, ?_, hlead⟩
      simp only [Option.map_some, hb, hh, Option.bind_some, tries, ht]
      rfl
    | none =>
      obtain ⟨hashes, hh, hn⟩ := sub?_eq (by omega : nonce.toNat ≤ stop.toNat)
      have hall : hashes.toNat = size := by omega
      obtain ⟨t, ht, hlead⟩ := Leads.count? s nonce.toNat ⟨.none, size⟩ hall
        (rfl : (0 : UInt64).toNat = _) (by show s.hashes.toNat + size < _; omega) hfirst
      have hstill : t.found = 0 := by
        rw [← UInt64.toNat_inj, hlead.found, hfirst]
        rfl
      -- no more hashes than nonces before the next batch, so their sum keeps to its word
      have hnow : t.hashes.toNat ≤ stop.toNat := by
        rw [hlead.hashes, hstop]
        exact Nat.add_le_add_right hroom size
      rw [Nat.succ_mul] at henough
      obtain ⟨u, hu, hrest⟩ := ih hv t (look + 1) stop (by omega) hnow hstill
      rw [hstop] at hu hrest
      refine ⟨u, ?_, hlead.cons hrest⟩
      simp only [Option.map_none, hh, Option.bind_some, tries, ht]
      exact hu

theorem limit?_eq (start range : UInt32) :
    ∃ limit, limit? start range = some limit ∧ limit.toNat = Grind.limit start range := by
  have hs : start.toUInt64.toNat = start.toNat := UInt32.toNat_toUInt64 start
  have hr : range.toUInt64.toNat = range.toNat := UInt32.toNat_toUInt64 range
  have hs' := start.toNat_lt
  have hr' := range.toNat_lt
  have hcount : (if range = 0 then space else range.toUInt64).toNat =
      if range = 0 then 2 ^ 32 else range.toNat := by
    by_cases h0 : range = 0
    · rw [if_pos h0, if_pos h0]
      rfl
    · rw [if_neg h0, if_neg h0, hr]
  have hle : (if range = 0 then 2 ^ 32 else range.toNat) ≤ 2 ^ 32 := by
    by_cases h0 : range = 0
    · rw [if_pos h0]
    · rw [if_neg h0]
      omega
  obtain ⟨stop, hstop, hn⟩ := add?_eq (a := start.toUInt64)
    (b := if range = 0 then space else range.toUInt64) (by omega)
  refine ⟨smaller stop space, ?_, ?_⟩
  · rw [limit?, hstop]
    rfl
  · rw [toNat_smaller, hn, hs, hcount]
    rfl

theorem run?_eq (h : Header) (target : Target) (start range : UInt32) (seen : Nat → Bool) :
    ∃ s, run? h target start range seen = some ((Grind.run h target start range seen).1, s) ∧
      Leads {} s start.toNat (Grind.outcome h target start range seen) := by
  obtain ⟨limit, hlimit, hn⟩ := limit?_eq start range
  have hs : start.toUInt64.toNat = start.toNat := UInt32.toNat_toUInt64 start
  have hspace : limit.toNat ≤ 2 ^ 32 := hn ▸ Grind.limit_le start range
  have henough : limit.toNat ≤ start.toUInt64.toNat + Grind.maxBatches * Grind.batchSize := by
    rw [hn, hs]
    exact Grind.limit_le_maxBatches start range
  obtain ⟨s, hloop, hlead⟩ := loop?_eq target seen (Hasher.follows_ofHeader h) {} 0
    start.toUInt64 hspace henough (Nat.zero_le _) rfl
  rw [hn, hs] at hloop hlead
  refine ⟨s, ?_, hlead⟩
  unfold run? Grind.run
  simp only [hlimit, Option.bind_eq_bind, Option.bind_some, hloop]
  cases (Grind.search target seen (Grind.limit start range) (.ofHeader h) 0 start.toNat
      Grind.maxBatches).nonce with
  | none => rfl
  | some n =>
    have hcut : (UInt64.ofNat n).toUInt32 = UInt32.ofNat n := by
      rw [← UInt32.toNat_inj, UInt64.toNat_toUInt32, UInt64.toNat_ofNat', UInt32.toNat_ofNat']
      omega
    simp only [Option.map_some, hcut]
    rfl

theorem Leads.tried_eq {h : Header} {target : Target} {start range : UInt32} {seen : Nat → Bool}
    {s : Sweep} (v : Leads {} s start.toNat (Grind.outcome h target start range seen)) :
    s.tried.map UInt32.toNat =
        List.range' start.toNat (Grind.outcome h target start range seen).hashed ∧
      start.toNat + (Grind.outcome h target start range seen).hashed ≤ Grind.limit start range := by
  have hend := (Grind.ends_outcome h target start range seen).hashed_le
    (Nat.le_of_lt (Grind.lt_limit start range))
  exact ⟨v.map_toNat_tried rfl (Nat.le_trans hend (Grind.limit_le start range)), hend⟩

/-- a sweep hashes nonces of its interval only, each of them once, and all of them if it finds nothing
and never sees itself cancelled -/
theorem exists_run? (h : Header) (target : Target) (start range : UInt32) (seen : Nat → Bool) :
    ∃ c s, run? h target start range seen = some (c, s) ∧ s.tried.Nodup ∧
      (∀ n ∈ s.tried, start.toNat ≤ n.toNat ∧ n.toNat < Grind.limit start range) ∧
      (c.isMatch = false → (∀ k, seen k = false) →
        ∀ n : UInt32, start.toNat ≤ n.toNat → n.toNat < Grind.limit start range → n ∈ s.tried) := by
  obtain ⟨s, hs, hlead⟩ := run?_eq h target start range seen
  obtain ⟨htried, hend⟩ := hlead.tried_eq
  have hmem (n : UInt32) : n ∈ s.tried ↔ n.toNat ∈ s.tried.map UInt32.toNat := by
    rw [List.mem_map_of_injective fun _ _ => UInt32.toNat_inj.1]
  refine ⟨_, s, hs, ?_, ?_, ?_⟩
  · exact List.Nodup.of_map UInt32.toNat (htried ▸ List.nodup_range')
  · intro n hn
    rw [hmem, htried, List.mem_range'_1] at hn
    exact ⟨hn.1, by omega⟩
  · intro hc unseen n hle hlt
    rw [hmem, htried, List.mem_range'_1]
    have hnone : (Grind.outcome h target start range seen).nonce = none := by
      cases hm : (Grind.outcome h target start range seen).nonce with
      | none => rfl
      | some m =>
        rw [Grind.run_eq_of_found hm] at hc
        cases hc
    have hall := (Grind.ends_outcome h target start range seen).hashed_of_unseen hnone
      fun k _ => unseen (0 + k)
    omega

end Sweep

namespace Grind

/-- A search of a header matches with a nonce exactly if this is the first of the interval that meets
the target, and neither the look before its batch nor an earlier one has seen the search cancelled.
It hashes the nonces from the first one on, one after the other: up to the match, or to the end of the
interval, or as many batches as there have been looks before the one that saw it cancelled.  In words
of 64 and 32 bits it comes to the same, and nothing wraps. -/
theorem run_exact (h : Header) (target : Target) (start range : UInt32) (seen : Nat → Bool) :
    ∃ c stats sweep, run h target start range seen = (c, stats) ∧
      (∀ n, c.isMatch = true ∧ c.nonce.toNat = n ↔
        IsLeast (hits h target start.toNat (limit start range)) n ∧
          ∀ k ≤ (n - start.toNat) / batchSize, seen k = false) ∧
      (c.isMatch = false → c.nonce = 0) ∧ c.extraNonce = h.extraNonce ∧ c.proof = none ∧
      stats.found = c.isMatch.toNat ∧
      (c.isMatch = true → stats.hashes = c.nonce.toNat - start.toNat + 1) ∧
      (c.isMatch = false →
        (∀ k, start.toNat + k * batchSize < limit start range → seen k = false) →
        stats.hashes = limit start range - start.toNat) ∧
      (∀ k, c.isMatch = false → start.toNat + k * batchSize < limit start range →
        seen k = true → (∀ i < k, seen i = false) → stats.hashes = k * batchSize) ∧
      Sweep.run? h target start range seen = some (c, sweep) ∧
      sweep.hashes.toNat = stats.hashes ∧ sweep.found.toNat = stats.found ∧
      sweep.tried.map UInt32.toNat = List.range' start.toNat stats.hashes ∧
      start.toNat + stats.hashes ≤ limit start range := by
  obtain ⟨sweep, hsweep, hlead⟩ := Sweep.run?_eq h target start range seen
  have v := ends_outcome h target start range seen
  obtain ⟨htried, hend⟩ := hlead.tried_eq
  have hhashes : sweep.hashes.toNat = (outcome h target start range seen).hashed :=
    hlead.hashes.trans (Nat.zero_add _)
  have hfound := hlead.found
  have hfinds (n : Nat) : (outcome h target start range seen).nonce = some n ↔
      IsLeast (hits h target start.toNat (limit start range)) n ∧
        ∀ k ≤ (n - start.toNat) / batchSize, seen k = false := by
    rw [v.nonce_eq_some_iff, Finds]
    simp only [Nat.zero_add]
  cases hm : (outcome h target start range seen).nonce with
  | some m =>
    obtain ⟨hhashed, hle, hlt⟩ := v.hashed_of_found hm
    have hrun := run_eq_of_found hm
    rw [hrun] at hsweep
    rw [hm] at hfound
    have hnonce : (UInt32.ofNat m).toNat = m := by
      rw [UInt32.toNat_ofNat']
      exact Nat.mod_eq_of_lt (Nat.lt_of_lt_of_le hlt (limit_le start range))
    refine ⟨_, _, sweep, hrun, ?_, nofun, rfl, rfl, rfl, ?_, nofun, nofun, hsweep, hhashes, hfound,
      htried, hend⟩
    · intro n
      rw [← hfinds, hm, Option.some.injEq]
      exact ⟨fun hn => hnonce.symm.trans hn.2, fun hn => ⟨rfl, hnonce.trans hn⟩⟩
    · intro _
      show (outcome h target start range seen).hashed = (UInt32.ofNat m).toNat - start.toNat + 1
      rw [hnonce, hhashed]
  | none =>
    have hrun := run_eq_of_none hm
    rw [hrun] at hsweep
    rw [hm] at hfound
    refine ⟨_, _, sweep, hrun, ?_, fun _ => rfl, rfl, rfl, rfl, nofun, ?_, ?_, hsweep, hhashes,
      hfound, htried, hend⟩
    · intro n
      rw [← hfinds, hm]
      exact iff_of_false nofun nofun
    · intro _ unseen
      exact v.hashed_of_unseen hm fun k hk => by
        rw [Nat.zero_add]
        exact unseen k hk
    · intro k _ inside sees unseen
      refine v.hashed_of_seen hm inside ?_ fun i hi => ?_
      · rw [Nat.zero_add]
        exact sees
      · rw [Nat.zero_add]
        exact unseen i hi

end Grind

end HeaderMiner
