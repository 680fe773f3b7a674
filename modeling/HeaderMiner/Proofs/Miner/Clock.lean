import HeaderMiner.Miner.Clock
import HeaderMiner.Proofs.Header.Progression
import HeaderMiner.Proofs.Miner.Assertions
import HeaderMiner.Proofs.Miner.Trial
/-!
# The node's clock stays in its bounds

The offset of the node's clock is a time of 32 bits less a local time, and it is added to another
local time.  As long as the local times leave room for the 32 bits (`lastClock`), the sum fits the
48 bits of a header's time, so whatever the node says, and however the local clock jumps, no loop
breaks on a time that is too large.  The room is exactly what is needed: the sum can be the largest
time that there is (`time_fits_latest`).
-/

namespace HeaderMiner.Miner

/-- the latest local time that leaves room for an offset -/
def lastClock : Nat := 2 ^ 48 - 2 ^ 32

/-! ## machine words -/

namespace Clock

theorem toInt_toInt64 {a : UInt64} (h : a.toNat < limit) : a.toInt64.toInt = a.toNat := by
  show a.toBitVec.toInt = a.toNat
  refine BitVec.toInt_eq_toNat_of_lt ?_
  unfold limit at h
  show 2 * a.toNat < 2 ^ 64
  omega

theorem fit?_eq_some {n : Int} (h : -limit ≤ n) (h' : n < limit) :
    ∃ o, fit? n = some o ∧ o.toInt = n := by
  refine ⟨Int64.ofInt n, if_pos ⟨h, h'⟩, ?_⟩
  unfold limit at h h'
  exact Int64.toInt_ofInt_of_le (by omega) (by omega)

theorem toNat_max_zero (n : Int64) : (max n 0).toUInt64.toNat = n.toInt.toNat := by
  show (if n ≤ 0 then 0 else n).toUInt64.toNat = n.toInt.toNat
  by_cases h : n ≤ 0
  · have hn : n.toInt ≤ 0 := Int64.le_iff_toInt_le.1 h
    rw [if_pos h]
    show 0 = n.toInt.toNat
    omega
  · have hn : ¬ n.toInt ≤ 0 := fun hn => h (Int64.le_iff_toInt_le.2 hn)
    have hp : (0 : Int64) ≤ n := Int64.le_iff_toInt_le.2 (by show (0 : Int) ≤ n.toInt; omega)
    rw [if_neg h, Int64.toNat_toUInt64_of_le hp]
    rfl

theorem exists_offset (time : UInt32) {c : UInt64} (hc : c.toNat ≤ lastClock) :
    ∃ o, offset? time c = some o ∧ o.toInt = (time.toNat : Int) - c.toNat := by
  have ht : time.toNat < UInt32.size := time.toNat_lt_size
  have hu : time.toUInt64.toNat = time.toNat := UInt32.toNat_toUInt64 time
  have hroom : lastClock + UInt32.size < limit := by decide
  have h1 : time.toUInt64.toInt64.toInt = time.toNat := by
    rw [toInt_toInt64 (by omega), hu]
  have h2 : c.toInt64.toInt = c.toNat := toInt_toInt64 (by omega)
  unfold offset? sub?
  rw [h1, h2]
  exact fit?_eq_some (by omega) (by omega)

theorem exists_now {offset : Int64} {c : UInt64} (hlo : -(lastClock : Int) ≤ offset.toInt)
    (hhi : offset.toInt < UInt32.size) (hc : c.toNat ≤ lastClock) :
    ∃ now, now? offset c = some now ∧ now.toNat = (c.toNat + offset.toInt).toNat := by
  have hroom : lastClock + UInt32.size < limit := by decide
  have hw : c.toInt64.toInt = c.toNat := toInt_toInt64 (by omega)
  unfold now? add?
  rw [hw]
  obtain ⟨n, hn, hs⟩ := fit?_eq_some (n := c.toNat + offset.toInt) (by omega) (by omega)
  rw [hn]
  exact ⟨_, rfl, by rw [toNat_max_zero, hs]⟩

end Clock

/-! ## the offset -/

def Move.clock? : Move → Option Int
  | .answer _ _ clock => some clock
  | .turn m => some m.clock
  | _ => none

/-- whether a local time is neither before the beginning of time nor too late -/
def InBounds (c : Int) : Prop := 0 ≤ c ∧ c ≤ lastClock

namespace State

variable {su : Setup} {s t : State} {m : Move} {es : List Event} {c : Int}

/-- an offset that a time of 32 bits can have made -/
structure InTime (s : State) : Prop where
  low : -(lastClock : Int) ≤ s.offset
  high : s.offset < UInt32.size

theorem offset_resume (s : State) (a : Asker) : (s.resume a).offset = s.offset :=
  frame_resume State.offset (fun _ _ _ => rfl) s a

theorem offset_install (s : State) (w : Work) (c : Int) :
    (s.install w c).1.offset = (w.time.toNat : Int) - c := by
  obtain ⟨mining, loop, he⟩ := exists_install s w c
  rw [he]
  rfl

theorem InTime.install (hc : InBounds c) (w : Work) : InTime (s.install w c).1 := by
  have ht : w.time.toNat < UInt32.size := w.time.toNat_lt_size
  obtain ⟨hlo, hhi⟩ := hc
  constructor
  · rw [offset_install]
    omega
  · rw [offset_install]
    omega

theorem InTime.step (v : InTime s) (hc : ∀ c, m.clock? = some c → InBounds c)
    (ht : Transition su s m t es) : InTime t := by
  have same {u : State} (h : u.offset = s.offset) : InTime u :=
    ⟨h ▸ v.low, h ▸ v.high⟩
  cases ht with
  | @keep _ _ _ q _ _ _ _ => exact same (offset_resume (s.without q) q.asker)
  | @fail _ _ _ q e _ _ _ _ => exact same (offset_resume ((s.without q).fail e) q.asker)
  | @install _ _ clock q w _ _ =>
    have hi : InTime ((s.without q).install w clock).1 := InTime.install (hc clock rfl) w
    have hr := offset_resume ((s.without q).install w clock).1 q.asker
    exact ⟨hr ▸ hi.low, hr ▸ hi.high⟩
  | _ => exact same rfl

theorem InTime.now_le (v : InTime s) (hc : InBounds c) : s.now c ≤ maxTime := by
  have hl := v.high
  obtain ⟨_, hhi⟩ := hc
  have hroom : lastClock + UInt32.size = maxTime + 1 := by decide
  unfold now
  omega

/-- a loop breaks on its time only where the clock is beyond 48 bits -/
theorem late_step (ht : Transition su s m t es) {time : Nat}
    (hb : t.loop = .broken (.timeTooLarge time)) :
    s.loop = .broken (.timeTooLarge time) ∨ ∃ mo, m = .turn mo ∧ maxTime < s.now mo.clock := by
  rcases broken_step ht hb with hb | hc | ⟨q, _, c, header, _, hf⟩
  · exact .inl hb
  · exact .inr hc
  · exact absurd rfl (Candidate.ne_timeTooLarge_of_finalize hf time)

end State

namespace History

variable {su : Setup} {h : History su}

/-- whether the local clock has stayed in its bounds -/
def KeepsTime (h : History su) : Prop := ∀ m ∈ h.moves, ∀ c, m.clock? = some c → InBounds c

theorem KeepsTime.of_earlier {g : History su} (k : h.KeepsTime) (hp : g.moves <+: h.moves) :
    g.KeepsTime := fun m hm => k m (hp.subset hm)

theorem KeepsTime.inTime (k : h.KeepsTime) : State.InTime h.state := by
  induction h using induction with
  | start =>
    have hlow : -(lastClock : Int) ≤ 0 := by decide
    have hhigh : (0 : Int) < UInt32.size := by decide
    exact ⟨hlow, hhigh⟩
  | extend h m t es hs ih =>
    have hm : m ∈ h.moves ++ [m] := List.mem_append_right _ (List.mem_singleton.2 rfl)
    exact (ih (k.of_earlier (List.prefix_append ..))).step (k m hm) (State.transition_of_step hs)

theorem KeepsTime.now_le {g : History su} {m : Moment} (k : h.KeepsTime)
    (hg : h.Makes g (.turn m)) : g.state.now m.clock ≤ maxTime := by
  have hp : g.moves <+: h.moves := (List.prefix_append ..).trans hg
  have hm : .turn m ∈ h.moves :=
    hg.subset (List.mem_append_right _ (List.mem_singleton.2 rfl))
  exact (k.of_earlier hp).inTime.now_le (k _ hm m.clock rfl)

theorem KeepsTime.not_late (k : h.KeepsTime) (time : Nat) :
    h.state.loop ≠ .broken (.timeTooLarge time) := by
  intro hb
  induction h using induction with
  | start => cases hb
  | extend h m t es hs ih =>
    rcases State.late_step (State.transition_of_step hs) hb with hb | ⟨mo, rfl, hlt⟩
    · exact ih (k.of_earlier (List.prefix_append ..)) hb
    · have hle := k.now_le (makes_extend.2 (.inr ⟨rfl, rfl⟩))
      omega

/-- However the local clock jumps within its bounds, and whatever times the node gives: every
offset, and every time reckoned with it, fits the machine's words and is what the state says, the
node's time fits a header at each turn of the loop, on every network and for every header, and the
loop never breaks on it. -/
theorem time_fits (h : History su) (clocks : h.KeepsTime) :
    (∀ c : UInt64, c.toNat ≤ lastClock →
      (∀ w : Work, ∃ o, Clock.offset? w.time c = some o ∧
        o.toInt = (h.state.install w c.toNat).1.offset) ∧
      ∃ o now, o.toInt = h.state.offset ∧ Clock.now? o c = some now ∧
        now.toNat = h.state.now c.toNat ∧ now.toNat ≤ maxTime) ∧
    (∀ g m, h.Makes g (.turn m) → g.state.now m.clock ≤ maxTime ∧
      ∀ (header : Header) (network : Network), ∃ next moved,
        header.advance (g.state.now m.clock) network = .ok (next, moved)) ∧
    ∀ time, h.state.loop ≠ .broken (.timeTooLarge time) := by
  have v : State.InTime h.state := clocks.inTime
  refine ⟨?_, ?_, clocks.not_late⟩
  · intro c hc
    constructor
    · intro w
      rw [State.offset_install]
      exact Clock.exists_offset w.time hc
    · have hlow := v.low
      have hhigh := v.high
      have hroom : lastClock + UInt32.size < Clock.limit := by decide
      obtain ⟨o, _, ho⟩ := Clock.fit?_eq_some (n := h.state.offset) (by omega) (by omega)
      have hlo : -(lastClock : Int) ≤ o.toInt := ho ▸ v.low
      have hhi : o.toInt < UInt32.size := ho ▸ v.high
      obtain ⟨now, hn, hs⟩ := Clock.exists_now hlo hhi hc
      have hnow : now.toNat = h.state.now c.toNat := by
        rw [hs, ho]
        rfl
      have hb : InBounds c.toNat := ⟨Int.natCast_nonneg _, Int.ofNat_le.2 hc⟩
      exact ⟨o, now, ho, hn, hnow, hnow ▸ v.now_le hb⟩
  · intro g m hg
    have hle := clocks.now_le hg
    exact ⟨hle, fun header network => header.exists_advance fun _ => hle⟩

end History

/-! ## the latest time that there is -/

namespace Trial

/-- work with the last time of 32 bits comes at the beginning of local time, and the loop's first
turn is at the last local time -/
def latest : History { setup with network := .main } :=
  (History.start _)
    |>.go .tick (by decide +kernel)
    |>.receive ⟨0, .caller⟩ { work 1 0 255 with time := 4294967295 } (by decide +kernel)
      (by decide +kernel)
    |>.go .enter (by decide +kernel)
    |>.go (.turn { moment with clock := lastClock }) (by decide +kernel)

theorem time_fits_latest : latest.KeepsTime ∧ latest.state.now lastClock = maxTime ∧
    ∀ time, latest.state.loop ≠ .broken (.timeTooLarge time) := by
  have clocks : latest.KeepsTime := by
    intro m hm c hc
    simp only [latest, History.go, History.receive, History.extend, History.start,
      List.nil_append, List.cons_append, List.mem_cons, List.not_mem_nil, or_false] at hm
    rcases hm with rfl | rfl | rfl | rfl
    · cases hc
    · cases hc
      exact ⟨by decide, by decide⟩
    · cases hc
    · cases hc
      exact ⟨by decide, by decide⟩
  exact ⟨clocks, by decide +kernel, (History.time_fits latest clocks).2.2⟩

end Trial

end HeaderMiner.Miner
