import HeaderMiner.Proofs.Header.Agreement
/-!
# How a header moves on

Each time that a header moves on, either its time rolls forward to the clock or its extra nonce is
counted up.  So where time rolls, its time is the latest that it has seen, and its counter tells how
often the clock has not been ahead of it; elsewhere its time stays, and its counter tells how often
it has moved on (`Progress`).

A header whose time is the same as before has been counted up each time in between, so it takes
`2 ^ 192` times for time and extra nonce to come back (`Progress.ne`).
-/

namespace HeaderMiner

/-- the bytes after a number are those of the next, and zeros after the last -/
theorem leNat_succBytes (bs : List UInt8) :
    leNat (Header.succBytes bs) = (leNat bs + 1) % 256 ^ bs.length := by
  induction bs with
  | nil => rfl
  | cons b bs ih =>
    have hlt := leNat_lt bs
    have hb := b.toNat_lt
    rw [Header.succBytes, leNat_cons, List.length_cons, Nat.pow_succ]
    by_cases hff : b = 0xff
    · have he : b.toNat + 256 * leNat bs + 1 = 256 * (leNat bs + 1) := by
        rw [hff]
        show 255 + 256 * leNat bs + 1 = _
        omega
      rw [if_pos hff, leNat_cons, ih, he, Nat.mul_comm (256 ^ bs.length) 256,
        Nat.mul_mod_mul_left]
      show 0 + _ = _
      rw [Nat.zero_add]
    · have hne : b.toNat ≠ 255 := fun h => hff (UInt8.toNat_inj.1 h)
      have hs : (b + 1).toNat = b.toNat + 1 := by
        rw [UInt8.toNat_add]
        show (b.toNat + 1) % 256 = _
        omega
      rw [if_neg hff, leNat_cons, hs, Nat.mod_eq_of_lt (by omega)]
      omega

namespace Header

variable {network : Network} {h₀ g h : Header} {t now : Nat} {nows more : List Nat}

/-- the extra nonce, read as a number -/
def counter (h : Header) : Nat := leNat h.extraNonce.toList

theorem counter_lt (h : Header) : h.counter < 2 ^ 192 := by
  have hl := leNat_lt h.extraNonce.toList
  rw [Octets.length_toList] at hl
  exact hl

theorem counter_incrementExtraNonce (h : Header) :
    h.incrementExtraNonce.counter = (h.counter + 1) % 2 ^ 192 := by
  have hs := leNat_succBytes h.extraNonce.toList
  rw [Octets.length_toList] at hs
  exact hs

/-! ## times and counts -/

/-- the latest of a time and some readings of a clock -/
def latest (t : Nat) (nows : List Nat) : Nat := nows.foldl max t

/-- how many readings of a clock are not ahead of the time before them, which each reading that is
ahead becomes -/
def stalls (t : Nat) (nows : List Nat) : Nat :=
  (nows.zip (nows.scanl max t)).countP fun p => p.1 ≤ p.2

theorem latest_append (t : Nat) (nows more : List Nat) :
    latest t (nows ++ more) = latest (latest t nows) more := List.foldl_append

theorem le_latest (t : Nat) (nows : List Nat) : t ≤ latest t nows := by
  induction nows generalizing t with
  | nil => exact Nat.le_refl t
  | cons now nows ih => exact Nat.le_trans (Nat.le_max_left t now) (ih (max t now))

theorem le_latest_of_mem (h : now ∈ nows) : now ≤ latest t nows := by
  induction nows generalizing t with
  | nil => cases h
  | cons a nows ih =>
    rcases List.mem_cons.1 h with rfl | h
    · exact Nat.le_trans (Nat.le_max_right t now) (le_latest (max t now) nows)
    · exact ih h

theorem stalls_cons (t now : Nat) (nows : List Nat) :
    stalls t (now :: nows) = stalls (max t now) nows + if now ≤ t then 1 else 0 := by
  unfold stalls
  rw [List.scanl_cons, List.zip_cons_cons, List.countP_cons]
  simp

theorem stalls_append (t : Nat) (nows more : List Nat) :
    stalls t (nows ++ more) = stalls t nows + stalls (latest t nows) more := by
  induction nows generalizing t with
  | nil =>
    show stalls t more = 0 + stalls t more
    rw [Nat.zero_add]
  | cons now nows ih =>
    have hl : latest t (now :: nows) = latest (max t now) nows := rfl
    rw [List.cons_append, stalls_cons, stalls_cons, ih, hl]
    omega

theorem stalls_of_le (h : ∀ now ∈ nows, now ≤ t) : stalls t nows = nows.length := by
  induction nows with
  | nil => rfl
  | cons now nows ih =>
    have hn : now ≤ t := h now List.mem_cons_self
    rw [stalls_cons, Nat.max_eq_left hn, if_pos hn, ih fun a ha => h a (List.mem_cons_of_mem _ ha),
      List.length_cons]

/-! ## one step -/

theorem advance_cases {moved : Advance} (ha : h.advance now network = .ok (g, moved)) :
    (network.rollsTime = true ∧ h.time.seconds < now ∧ g.time.seconds = now ∧
      g.extraNonce = h.extraNonce) ∨
    (network.rollsTime = true → now ≤ h.time.seconds) ∧ g = h.incrementExtraNonce := by
  unfold advance at ha
  split at ha
  · next hr =>
    unfold setTime at ha
    split at ha
    · cases ha
      exact .inl ⟨hr.1, hr.2, rfl, rfl⟩
    · cases ha
  · next hr =>
    cases ha
    exact .inr ⟨fun h => Nat.not_lt.1 fun hlt => hr ⟨h, hlt⟩, rfl⟩

/-- a clock that fits the time, where it rolls, lets every header move on -/
theorem exists_advance (h : Header) (hn : network.rollsTime = true → now ≤ maxTime) :
    ∃ g moved, h.advance now network = .ok (g, moved) := by
  unfold advance
  split
  · next hr =>
    rw [setTime, dif_pos (hn hr.1)]
    exact ⟨_, _, rfl⟩
  · exact ⟨_, _, rfl⟩

/-! ## many steps -/

/-- a header that another has become at some readings of a clock -/
structure Progress (network : Network) (h₀ : Header) (nows : List Nat) (h : Header) : Prop where
  agrees : h.Agrees h₀
  rolled : network.rollsTime = true →
    h.time.seconds = latest h₀.time.seconds nows ∧
      h.counter = (h₀.counter + stalls h₀.time.seconds nows) % 2 ^ 192
  kept : network.rollsTime = false →
    h.time = h₀.time ∧ h.counter = (h₀.counter + nows.length) % 2 ^ 192

theorem Progress.nil (network : Network) (h : Header) : Progress network h [] h := by
  have hc : h.counter = (h.counter + 0) % 2 ^ 192 := (Nat.mod_eq_of_lt h.counter_lt).symm
  exact ⟨.refl h, fun _ => ⟨rfl, hc⟩, fun _ => ⟨rfl, hc⟩⟩

theorem Progress.advance (v : Progress network h₀ nows h) {moved : Advance}
    (ha : h.advance now network = .ok (g, moved)) : Progress network h₀ (nows ++ [now]) g := by
  refine ⟨(agrees_of_advance ha).trans v.agrees, ?_, ?_⟩
  · intro hr
    obtain ⟨ht, hc⟩ := v.rolled hr
    rw [latest_append, stalls_append, stalls_cons, ← ht]
    show g.time.seconds = max h.time.seconds now ∧
      g.counter = (h₀.counter + (_ + (0 + if now ≤ h.time.seconds then 1 else 0))) % 2 ^ 192
    rcases advance_cases ha with ⟨_, hlt, hg, hx⟩ | ⟨hle, rfl⟩
    · have hs : g.counter = h.counter := by rw [counter, hx, counter]
      rw [if_neg (Nat.not_le.2 hlt), hg, Nat.max_eq_right (Nat.le_of_lt hlt), hs]
      exact ⟨rfl, hc⟩
    · rw [if_pos (hle hr), Nat.max_eq_left (hle hr), counter_incrementExtraNonce, hc]
      exact ⟨rfl, by omega⟩
  · intro hr
    obtain ⟨ht, hc⟩ := v.kept hr
    rcases advance_cases ha with ⟨hr', _⟩ | ⟨_, rfl⟩
    · rw [hr] at hr'
      cases hr'
    · rw [counter_incrementExtraNonce, hc, List.length_append, List.length_singleton]
      exact ⟨ht, by omega⟩

/-! ## later headers -/

theorem Progress.time_le (v : Progress network h₀ nows h)
    (w : Progress network h₀ (nows ++ more) g) : h.time.seconds ≤ g.time.seconds := by
  cases hr : network.rollsTime with
  | true =>
    rw [(v.rolled hr).1, (w.rolled hr).1, latest_append]
    exact le_latest _ more
  | false =>
    have ht : h.time = g.time := (v.kept hr).1.trans (w.kept hr).1.symm
    exact Nat.le_of_eq (congrArg HeaderTime.seconds ht)

/-- where the time is the same the counter has moved on each time -/
theorem Progress.counter_eq (v : Progress network h₀ nows h)
    (w : Progress network h₀ (nows ++ more) g) (ht : h.time = g.time) :
    g.counter = (h.counter + more.length) % 2 ^ 192 := by
  cases hr : network.rollsTime with
  | true =>
    obtain ⟨hv, hc⟩ := v.rolled hr
    obtain ⟨hw, hd⟩ := w.rolled hr
    -- no reading since has been ahead of the time
    have hl : latest h.time.seconds more = h.time.seconds := by
      rw [hv, ← latest_append, ← hw, ← ht, hv]
    have hs : stalls h.time.seconds more = more.length := by
      refine stalls_of_le fun now hm => ?_
      have hm := le_latest_of_mem (t := h.time.seconds) hm
      omega
    rw [hd, stalls_append, ← hv, hs, hc]
    omega
  | false =>
    rw [(w.kept hr).2, (v.kept hr).2, List.length_append]
    omega

/-- time and extra nonce do not come back before the counter has gone round -/
theorem Progress.ne (v : Progress network h₀ nows h) (w : Progress network h₀ (nows ++ more) g)
    (hpos : more ≠ []) (hlt : more.length < 2 ^ 192) :
    (h.time, h.extraNonce) ≠ (g.time, g.extraNonce) := by
  intro he
  obtain ⟨ht, hx⟩ := Prod.mk.inj he
  have hc := v.counter_eq w ht
  have hg : g.counter = h.counter := by rw [counter, counter, hx]
  have hp := List.length_pos_iff.2 hpos
  have hb := h.counter_lt
  omega

end Header

end HeaderMiner
