import HeaderMiner.Header.Buffer
import HeaderMiner.Proofs.Header.Format
import HeaderMiner.Proofs.Header.Progression
import HeaderMiner.Proofs.Header.Writing
import HeaderMiner.Proofs.Target.Order
/-!
# Headers edited in place

Each field that is edited has a window of its own in the buffer, and writing the field is putting
its bytes into the window (`toBytes_nonce_eq`, `toBytes_time_eq`, `toBytes_extraNonce_eq`,
`toBytes_setTail_eq`).  So an edit in the buffer comes to the same as in the fields
(`Edit.write_octets`), and where an assertion breaks nothing has been written.  A buffer that is the
written form of a header stays one under every edit (`Edit.run_octets`), which carries what one edit
leaves alone (`Edit.getElem?_after`) and what reads back behind it over to any number of them.
-/

namespace HeaderMiner.Header

/-! ## windows -/

namespace Buffer

variable {bs xs ys pre mid post : List UInt8} {i j : Nat}

theorem splice_append (hi : pre.length = i) (hl : mid.length = xs.length) :
    splice (pre ++ (mid ++ post)) i xs = pre ++ (xs ++ post) := by
  have hd : (pre ++ mid).length = i + xs.length := by rw [List.length_append, hi, hl]
  have hdrop : (pre ++ (mid ++ post)).drop (i + xs.length) = post := by
    rw [← List.append_assoc, List.drop_left' hd]
  rw [splice, List.take_left' hi, hdrop]

theorem splice_splice (hi : i ≤ bs.length) (hj : i + xs.length = j) :
    splice (splice bs i xs) j ys = splice bs i (xs ++ ys) := by
  have hl : (bs.take i ++ xs).length = j := by
    rw [List.length_append, List.length_take, Nat.min_eq_left hi, hj]
  have hb : splice bs i xs = (bs.take i ++ xs) ++ bs.drop j := by
    rw [splice, List.append_assoc, hj]
  have hd : ((bs.take i ++ xs) ++ bs.drop j).drop (j + ys.length) = bs.drop (j + ys.length) := by
    rw [← List.drop_drop, List.drop_left' hl, List.drop_drop]
  rw [hb, splice, List.take_left' hl, hd, splice, List.length_append, ← Nat.add_assoc, hj,
    List.append_assoc, List.append_assoc]

theorem getElem?_splice (hi : i + xs.length ≤ bs.length) (hj : j < i ∨ i + xs.length ≤ j) :
    (splice bs i xs)[j]? = bs[j]? := by
  have hl : (bs.take i).length = i := by rw [List.length_take, Nat.min_eq_left (by omega)]
  rcases hj with hj | hj
  · rw [splice, List.getElem?_append_left (by omega), List.getElem?_take_of_lt hj]
  · obtain ⟨k, rfl⟩ := Nat.exists_eq_add_of_le hj
    have hk : i + xs.length + k - i - xs.length = k := by omega
    rw [splice, List.getElem?_append_right (by omega), List.getElem?_append_right (by omega),
      List.getElem?_drop, hl, hk]

end Buffer

open Buffer

variable {h g : Header}

theorem toBytes_nonce_eq (h : Header) (nonce : UInt32) :
    ({ h with nonce } : Header).toBytes = splice h.toBytes 0 (leBytes 4 nonce.toNat) := by
  rw [toBytes_nonce, splice, length_leBytes]
  rfl

theorem toBytes_time_eq (h : Header) (time : HeaderTime) :
    ({ h with time } : Header).toBytes = splice h.toBytes 4 (leBytes 6 time.seconds) := by
  rw [toBytes_eq h, splice_append h.length_front (by simp), toBytes_eq]
  rfl

theorem toBytes_time_guard (h : Header) (time : HeaderTime) :
    ({ h with time } : Header).toBytes = splice h.toBytes 4 (leBytes 6 time.seconds ++ [0, 0]) := by
  have hb : h.toBytes = h.front ++ ((leBytes 6 h.time.seconds ++ [0, 0]) ++
      (h.middle.drop 2 ++ (h.extraNonce.toList ++ h.rear))) := by
    rw [toBytes_eq, List.append_assoc (leBytes 6 _)]
    rfl
  rw [hb, splice_append h.length_front (by simp), toBytes_eq, List.append_assoc (leBytes 6 _)]
  rfl

theorem toBytes_extraNonce_eq (h : Header) (extraNonce : ExtraNonce) :
    ({ h with extraNonce } : Header).toBytes = splice h.toBytes 128 extraNonce.toList := by
  have hb (h : Header) : h.toBytes = (h.front ++ (leBytes 6 h.time.seconds ++ h.middle)) ++
      (h.extraNonce.toList ++ h.rear) := by
    rw [toBytes_eq]
    simp only [List.append_assoc]
  rw [hb h, splice_append (by simp) (by simp), hb]
  rfl

theorem toBytes_setTail_eq (h : Header) (tail : Octets 12) :
    (h.setTail tail).toBytes = splice h.toBytes 140 tail.toList := by
  rw [toBytes_setTail, splice, tail.length_toList]

/-! ## reading -/

theorem toList_octets (h : Header) : h.octets.toList = h.toBytes := rfl

theorem nonce_octets (h : Header) : Buffer.nonce h.octets = h.nonce := by
  show (fieldsOf h.toBytes h.length_toBytes).nonce = _
  rw [fieldsOf_toBytes]

theorem extraNonce_octets (h : Header) : Buffer.extraNonce h.octets = h.extraNonce := by
  show (fieldsOf h.toBytes h.length_toBytes).extraNonce = _
  rw [fieldsOf_toBytes]

theorem toNat_time (b : Buffer) : b.time.toNat = leNat ((b.toList.drop 4).take 6) := by
  have hsplit :
      (b.toList.drop 4).take 6 = (b.toList.drop 4).take 4 ++ (b.toList.drop 8).take 2 := by
    rw [← List.drop_drop (i := 4) (j := 4), ← List.take_add]
  have hlow : ((b.toList.drop 4).take 4).length = 4 := by simp
  have hhigh : ((b.toList.drop 8).take 2).length = 2 := by simp
  have hl := leNat_lt ((b.toList.drop 4).take 4)
  have hh := leNat_lt ((b.toList.drop 8).take 2)
  rw [hlow] at hl
  rw [hhigh] at hh
  have hword : (word b.toList 4).toUInt64.toNat = leNat ((b.toList.drop 4).take 4) := by
    rw [UInt32.toNat_toUInt64, word, UInt32.toNat_ofNat', Nat.mod_eq_of_lt (by omega)]
  have hhalf : ((b.half 8).toUInt64 <<< 32).toNat = leNat ((b.toList.drop 8).take 2) <<< 32 := by
    have h32 : (32 : UInt64).toNat % 64 = 32 := rfl
    rw [UInt64.toNat_shiftLeft, h32, UInt16.toNat_toUInt64, half, UInt16.toNat_ofNat',
      Nat.mod_eq_of_lt (b := 2 ^ 16) (by omega), Nat.mod_eq_of_lt (by rw [Nat.shiftLeft_eq]; omega)]
  rw [Buffer.time, UInt64.toNat_or, hword, hhalf, ← Nat.shiftLeft_add_eq_or_of_lt (by omega),
    Nat.shiftLeft_eq, hsplit, leNat_append, hlow]
  omega

theorem toNat_time_octets (h : Header) : (Buffer.time h.octets).toNat = h.time.seconds := by
  have hread (bs : List UInt8) (hl : bs.length = 256) :
      leNat ((bs.drop 4).take 6) = (fieldsOf bs hl).time.seconds := rfl
  rw [toNat_time, toList_octets, hread _ h.length_toBytes, fieldsOf_toBytes]

/-! ## writing -/

theorem Buffer.put_eq {i : Nat} {bytes : List UInt8} {b c : Buffer} (hi : i + bytes.length ≤ 256)
    (hc : c.toList = splice b.toList i bytes) : put i bytes hi b = .ok () c :=
  congrArg (EStateM.Result.ok ()) (Octets.ext hc.symm)

theorem leBytes_add (j k n : Nat) : leBytes (j + k) n = leBytes j n ++ leBytes k (n / 256 ^ j) := by
  induction j generalizing n with
  | zero => simp [leBytes]
  | succ j ih =>
    rw [Nat.succ_add, leBytes, leBytes, ih, Nat.div_div_eq_div_mul, Nat.pow_succ, Nat.mul_comm 256]
    rfl

theorem leBytes_mod (k n : Nat) : leBytes k (n % 256 ^ k) = leBytes k n := by
  have hb := leBytes_leNat (leBytes k n)
  rwa [length_leBytes, leNat_leBytes] at hb

theorem leBytes_time {t : UInt64} (ht : t.toNat ≤ maxTime) :
    leBytes 4 t.toUInt32.toNat ++ leBytes 2 (t >>> 32).toUInt16.toNat = leBytes 6 t.toNat := by
  have hlow : t.toUInt32.toNat = t.toNat % 256 ^ 4 := UInt64.toNat_toUInt32 t
  have hhigh : (t >>> 32).toUInt16.toNat = t.toNat / 256 ^ 4 := by
    have h32 : (32 : UInt64).toNat % 64 = 32 := rfl
    have hle : t.toNat ≤ 2 ^ 48 - 1 := ht
    rw [UInt64.toNat_toUInt16, UInt64.toNat_shiftRight, h32, Nat.shiftRight_eq_div_pow,
      Nat.mod_eq_of_lt (by omega)]
    rfl
  rw [hlow, hhigh, leBytes_mod, leBytes_add 4 2]

theorem maxTime_lt_iff (t : UInt64) : 0xffffffffffff < t ↔ maxTime < t.toNat :=
  UInt64.lt_iff_toNat_lt

theorem Buffer.setTime_of_lt {t : UInt64} {b : Buffer} (ht : maxTime < t.toNat) :
    setTime t b = .error (.timeTooLarge t.toNat) b := by
  unfold setTime
  rw [if_pos ((maxTime_lt_iff t).2 ht)]
  rfl

theorem setNonce_octets (h : Header) (nonce : UInt32) :
    Buffer.setNonce nonce h.octets = .ok () ({ h with nonce } : Header).octets :=
  Buffer.put_eq (by simp) (toBytes_nonce_eq h nonce)

theorem setExtraNonce_octets (h : Header) (x : ExtraNonce) :
    Buffer.setExtraNonce x h.octets = .ok () ({ h with extraNonce := x } : Header).octets :=
  Buffer.put_eq (by simp) (toBytes_extraNonce_eq h x)

theorem randomize_octets (h : Header) (tail : Octets 12) :
    Buffer.randomize tail h.octets = .ok () (h.setTail tail).octets :=
  Buffer.put_eq (by simp) (toBytes_setTail_eq h tail)

theorem finalize_octets (h : Header) (nonce : UInt32) (x : ExtraNonce) :
    Buffer.finalize nonce x h.octets = .ok () (h.finalize nonce x).octets := by
  show EStateM.bind (Buffer.setNonce nonce) (fun _ => Buffer.setExtraNonce x) h.octets = _
  rw [EStateM.bind, setNonce_octets]
  exact setExtraNonce_octets _ x

theorem setTime_octets_of_le {t : UInt64} (ht : t.toNat ≤ maxTime) :
    Buffer.setTime t h.octets = .ok () ({ h with time := ⟨t.toNat, ht⟩ } : Header).octets := by
  have hn : ¬0xffffffffffff < t := mt (maxTime_lt_iff t).1 (Nat.not_lt.2 ht)
  have hput : splice (splice (splice h.toBytes 4 (leBytes 4 t.toUInt32.toNat)) 8
      (leBytes 2 (t >>> 32).toUInt16.toNat)) 10 [0, 0] =
      ({ h with time := ⟨t.toNat, ht⟩ } : Header).toBytes := by
    have hl : 4 ≤ h.toBytes.length := by
      rw [length_toBytes]
      decide
    rw [splice_splice hl (by simp), splice_splice hl (by simp), leBytes_time ht,
      toBytes_time_guard h ⟨t.toNat, ht⟩]
  unfold Buffer.setTime
  rw [if_neg hn]
  exact congrArg (EStateM.Result.ok ()) (Octets.ext hput)

/-- counting up byte by byte adds one to the number of the bytes -/
theorem Buffer.countUp_eq (n i : Nat) (hi : i + n ≤ 256) {b c : Buffer}
    (hc : c.toList = splice b.toList i (succBytes ((b.toList.drop i).take n))) :
    countUp n i hi b = .ok () c := by
  induction n generalizing i b with
  | zero =>
    have hcb : c = b := by
      apply Octets.ext
      simp [hc, splice, succBytes]
    rw [hcb]
    rfl
  | succ n ih =>
    have hlt : i < b.toList.length := by
      rw [b.length_toList]
      omega
    have hle : i ≤ b.toList.length := Nat.le_of_lt hlt
    obtain ⟨byte, hbyte⟩ : ∃ byte, b.toList.get ⟨i, hlt⟩ = byte := ⟨_, rfl⟩
    have hwindow : (b.toList.drop i).take (n + 1) = byte :: (b.toList.drop (i + 1)).take n := by
      rw [← hbyte, List.drop_eq_getElem_cons hlt]
      rfl
    have hlen : ((b.toList.drop (i + 1)).take n).length = n := by
      rw [List.length_take, List.length_drop, b.length_toList]
      omega
    have hdrop : (b.toList.drop (i + 1)).take n ++ b.toList.drop (i + (n + 1)) =
        b.toList.drop (i + 1) := by
      have hd := List.take_append_drop n (b.toList.drop (i + 1))
      rwa [List.drop_drop, show i + 1 + n = i + (n + 1) by omega] at hd
    rw [hwindow, succBytes] at hc
    show (if b.toList.get ⟨i, hlt⟩ ≠ 0xff then put i [b.toList.get ⟨i, hlt⟩ + 1] _
      else do put i [0] _; countUp n (i + 1) _ : Writer Unit) b = _
    rw [hbyte]
    by_cases hff : byte = 0xff
    · rw [if_pos hff] at hc
      rw [if_neg (not_not_intro hff)]
      have hrest : (splice b.toList i [0]).drop (i + 1) = b.toList.drop (i + 1) := by
        have hl : (b.toList.take i ++ [0]).length = i + 1 := by
          rw [List.length_append, List.length_take, Nat.min_eq_left hle]
          rfl
        rw [splice, ← List.append_assoc, List.drop_left' hl]
        rfl
      apply ih (i + 1) _ (b := ⟨splice b.toList i [0], _⟩)
      show c.toList = splice (splice b.toList i [0]) (i + 1)
        (succBytes (((splice b.toList i [0]).drop (i + 1)).take n))
      have hone : i + ([0] : List UInt8).length = i + 1 := rfl
      rw [hc, hrest, splice_splice hle hone]
      rfl
    · rw [if_neg hff] at hc
      rw [if_pos hff]
      apply put_eq _
      show c.toList = b.toList.take i ++ (byte + 1) :: b.toList.drop (i + 1)
      rw [hc, splice, List.length_cons, hlen, List.cons_append, hdrop]

theorem incrementExtraNonce_octets (h : Header) :
    Buffer.incrementExtraNonce h.octets = .ok () h.incrementExtraNonce.octets := by
  have hread (b : Buffer) : (b.toList.drop 128).take 24 = (Buffer.extraNonce b).toList := rfl
  have hx : (h.octets.toList.drop 128).take 24 = h.extraNonce.toList := by
    rw [hread, extraNonce_octets]
  have hc : h.incrementExtraNonce.octets.toList =
      splice h.octets.toList 128 (succBytes ((h.octets.toList.drop 128).take 24)) := by
    rw [hx, toList_octets, toList_octets]
    exact toBytes_extraNonce_eq h _
  unfold Buffer.incrementExtraNonce
  exact Buffer.countUp_eq 24 128 (by decide) hc

theorem setTime_octets (h : Header) (t : UInt64) :
    Buffer.setTime t h.octets = match h.setTime t.toNat with
      | .ok g => .ok () g.octets
      | .error v => .error v h.octets := by
  by_cases ht : t.toNat ≤ maxTime
  · rw [setTime_octets_of_le ht, setTime, dif_pos ht]
  · rw [Buffer.setTime_of_lt (Nat.not_le.1 ht), setTime, dif_neg ht]

theorem time_lt_iff (h : Header) (now : UInt64) :
    Buffer.time h.octets < now ↔ h.time.seconds < now.toNat := by
  rw [UInt64.lt_iff_toNat_lt, toNat_time_octets]

theorem rolls_iff (h : Header) (now : UInt64) (network : Network) :
    network.rollsTime = true ∧ Buffer.time h.octets < now ↔
      network.rollsTime = true ∧ h.time.seconds < now.toNat :=
  and_congr_right fun _ => time_lt_iff h now

theorem Buffer.advance_eq (now : UInt64) (network : Network) (b : Buffer) :
    advance now network b = if network.rollsTime ∧ b.time < now
      then EStateM.map (fun _ => .time) (setTime now) b
      else EStateM.map (fun _ => .extraNonce) incrementExtraNonce b := by
  show (if network.rollsTime ∧ b.time < now
    then (do setTime now; return .time : Writer Advance)
    else do incrementExtraNonce; return .extraNonce) b = _
  by_cases hr : network.rollsTime ∧ b.time < now
  · rw [if_pos hr, if_pos hr]
    rfl
  · rw [if_neg hr, if_neg hr]
    rfl

theorem advance_octets (h : Header) (now : UInt64) (network : Network) :
    Buffer.advance now network h.octets = match h.advance now.toNat network with
      | .ok (g, moved) => .ok moved g.octets
      | .error v => .error v h.octets := by
  rw [Buffer.advance_eq, advance]
  by_cases hr : network.rollsTime ∧ Buffer.time h.octets < now
  · rw [if_pos hr, if_pos ((rolls_iff ..).1 hr), EStateM.map, setTime_octets]
    cases h.setTime now.toNat <;> rfl
  · rw [if_neg hr, if_neg (mt (rolls_iff ..).2 hr), EStateM.map, incrementExtraNonce_octets]

/-! ## one edit -/

namespace Edit

/-- an edit in the buffer is that in the fields, and one that breaks an assertion writes nothing -/
theorem write_octets (e : Edit) (h : Header) :
    e.write h.octets = match e.apply h with
      | .ok g => .ok () g.octets
      | .error v => .error v h.octets := by
  cases e with
  | setNonce nonce => exact setNonce_octets h nonce
  | setTime t => exact setTime_octets h t
  | setExtraNonce x => exact setExtraNonce_octets h x
  | incrementExtraNonce => exact incrementExtraNonce_octets h
  | randomize tail => exact randomize_octets h tail
  | finalize nonce x => exact finalize_octets h nonce x
  | advance now network =>
    show EStateM.map (fun _ => ()) (Buffer.advance now network) h.octets = _
    rw [EStateM.map, advance_octets, apply]
    cases h.advance now.toNat network <;> rfl

theorem after_octets (e : Edit) (h : Header) :
    e.after h.octets = ((e.apply h).toOption.getD h).octets := by
  rw [after, write_octets]
  cases e.apply h <;> rfl

theorem run_octets (edits : List Edit) (h : Header) :
    run edits h.octets = (applyAll edits h).octets := by
  induction edits generalizing h with
  | nil => rfl
  | cons e edits ih =>
    show run edits (e.after h.octets) = (applyAll edits ((e.apply h).toOption.getD h)).octets
    rw [after_octets, ih]

theorem applied_setTime (h : Header) (t : UInt64) : ((setTime t).apply h).toOption.getD h =
    if ht : t.toNat ≤ maxTime then { h with time := ⟨t.toNat, ht⟩ } else h := by
  rw [apply, Header.setTime]
  split <;> rfl

theorem applied_advance (h : Header) (now : UInt64) (network : Network) :
    ((advance now network).apply h).toOption.getD h =
      if network.rollsTime ∧ Buffer.time h.octets < now
      then ((setTime now).apply h).toOption.getD h
      else h.incrementExtraNonce := by
  show ((h.advance now.toNat network).map Prod.fst).toOption.getD h = _
  rw [Header.advance]
  by_cases hr : network.rollsTime ∧ Buffer.time h.octets < now
  · rw [if_pos hr, if_pos ((rolls_iff ..).1 hr), apply]
    cases h.setTime now.toNat <;> rfl
  · rw [if_neg hr, if_neg (mt (rolls_iff ..).2 hr)]
    rfl

/-! ## what breaks -/

/-- whether an edit breaks an assertion, as a time above 48 bits does where it is to be written -/
def Breaks : Edit → Buffer → Prop
  | setTime t, _ => maxTime < t.toNat
  | advance now network, b => network.rollsTime ∧ b.time < now ∧ maxTime < now.toNat
  | _, _ => False

theorem write_eq_error_iff (e : Edit) (h : Header) :
    (∃ v c, e.write h.octets = .error v c) ↔ e.Breaks h.octets := by
  have herr : (∃ v c, e.write h.octets = .error v c) ↔ ∃ v, e.apply h = .error v := by
    rw [write_octets]
    cases e.apply h <;> simp
  have htime (t : Nat) : (∃ v, h.setTime t = .error v) ↔ maxTime < t := by
    rw [Header.setTime, ← Nat.not_le]
    split <;> simp [*]
  rw [herr]
  cases e with
  | setTime t => exact htime t.toNat
  | advance now network =>
    show (∃ v, (h.advance now.toNat network).map Prod.fst = .error v) ↔
      _ ∧ Buffer.time h.octets < now ∧ _
    rw [time_lt_iff, ← htime, ← and_assoc]
    unfold Header.advance
    by_cases hr : network.rollsTime ∧ h.time.seconds < now.toNat
    · rw [if_pos hr]
      cases h.setTime now.toNat <;> simp [Except.map, hr]
    · rw [if_neg hr]
      simp [Except.map, hr]
  | setNonce | setExtraNonce | incrementExtraNonce | randomize | finalize =>
    simp [apply, Breaks]

/-! ## what stays -/

/-- whether an edit may change a byte -/
def Covers (i : Nat) : Edit → Buffer → Prop
  | setNonce _, _ => i < 4
  | setTime _, _ => 4 ≤ i ∧ i < 10
  | setExtraNonce _, _ | incrementExtraNonce, _ => 128 ≤ i ∧ i < 152
  | advance now network, b =>
    if network.rollsTime ∧ b.time < now then 4 ≤ i ∧ i < 10 else 128 ≤ i ∧ i < 152
  | randomize _, _ => 140 ≤ i ∧ i < 152
  | finalize _ _, _ => i < 4 ∨ 128 ≤ i ∧ i < 152

theorem getElem?_applied_setTime {i : Nat} (h : Header) (t : UInt64) (hi : ¬(4 ≤ i ∧ i < 10)) :
    (((setTime t).apply h).toOption.getD h).toBytes[i]? = h.toBytes[i]? := by
  rw [applied_setTime]
  split
  · rw [toBytes_time_eq]
    exact getElem?_splice (by simp [size]) (by simp; omega)
  · rfl

theorem getElem?_extraNonce {i : Nat} (h : Header) (x : ExtraNonce) (hi : ¬(128 ≤ i ∧ i < 152)) :
    ({ h with extraNonce := x } : Header).toBytes[i]? = h.toBytes[i]? := by
  rw [toBytes_extraNonce_eq]
  exact getElem?_splice (by simp [size]) (by simp; omega)

theorem getElem?_after {e : Edit} {i : Nat} (hi : ¬e.Covers i h.octets) :
    (e.after h.octets).toList[i]? = h.octets.toList[i]? := by
  rw [after_octets, toList_octets, toList_octets]
  cases e with
  | setNonce nonce => exact getElem?_nonce nonce (Nat.not_lt.1 hi)
  | setTime t => exact getElem?_applied_setTime h t hi
  | setExtraNonce x =>
    show ({ h with extraNonce := x } : Header).toBytes[i]? = _
    exact getElem?_extraNonce h x hi
  | incrementExtraNonce =>
    show h.incrementExtraNonce.toBytes[i]? = _
    exact getElem?_extraNonce h _ hi
  | randomize tail =>
    apply getElem?_setTail
    simp only [Covers] at hi
    omega
  | finalize nonce x =>
    simp only [Covers, not_or] at hi
    have hx := getElem?_extraNonce { h with nonce } x hi.2
    exact hx.trans (getElem?_nonce nonce (Nat.not_lt.1 hi.1))
  | advance now network =>
    rw [applied_advance]
    simp only [Covers] at hi
    split at hi
    · next hr =>
      rw [if_pos hr]
      exact getElem?_applied_setTime h now hi
    · next hr =>
      rw [if_neg hr]
      exact getElem?_extraNonce h _ hi

theorem Covers.lt {e : Edit} {b : Buffer} {i : Nat} (hc : e.Covers i b) :
    i < 10 ∨ 128 ≤ i ∧ i < 152 := by
  cases e with
  | advance now network =>
    simp only [Covers] at hc
    split at hc <;> omega
  | _ =>
    simp only [Covers] at hc
    omega

theorem getElem?_run {i : Nat} (edits : List Edit) (h : Header) (hi : 10 ≤ i ∧ i < 128 ∨ 152 ≤ i) :
    (run edits h.octets).toList[i]? = h.octets.toList[i]? := by
  induction edits generalizing h with
  | nil => rfl
  | cons e edits ih =>
    have hn : ¬e.Covers i h.octets := by
      intro hc
      have hlt := hc.lt
      omega
    show (run edits (e.after h.octets)).toList[i]? = _
    rw [after_octets, ih, ← after_octets, getElem?_after hn]

/-! ## what is read -/

/-- the extra nonce counted up, as a number -/
def next (x : ExtraNonce) : ExtraNonce := ⟨leBytes 24 (leNat x.toList + 1), length_leBytes 24 _⟩

def nonce? : Edit → Buffer → Option UInt32
  | setNonce nonce, _ | finalize nonce _, _ => some nonce
  | _, _ => none

def time? : Edit → Buffer → Option UInt64
  | setTime t, _ => if t.toNat ≤ maxTime then some t else none
  | advance now network, b =>
    if network.rollsTime ∧ b.time < now ∧ now.toNat ≤ maxTime then some now else none
  | _, _ => none

def extraNonce? : Edit → Buffer → Option ExtraNonce
  | setExtraNonce x, _ | finalize _ x, _ => some x
  | incrementExtraNonce, b => some (next b.extraNonce)
  | advance now network, b =>
    if network.rollsTime ∧ b.time < now then none else some (next b.extraNonce)
  | randomize tail, b => some ⟨b.extraNonce.toList.take 12 ++ tail.toList, by simp⟩
  | _, _ => none

/-- what some edits write into a field, first to last -/
def written {α : Type} (field? : Edit → Buffer → Option α) : List Edit → Buffer → List α
  | [], _ => []
  | e :: edits, b => (field? e b).toList ++ written field? edits (e.after b)

theorem incrementExtraNonce_eq (h : Header) :
    h.incrementExtraNonce = { h with extraNonce := next h.extraNonce } := by
  have hb := leBytes_leNat (succBytes h.extraNonce.toList)
  rw [leNat_succBytes, length_succBytes, leBytes_mod, Octets.length_toList] at hb
  have hx : next h.extraNonce = ⟨succBytes h.extraNonce.toList, by simp⟩ := Octets.ext hb
  rw [hx, Header.incrementExtraNonce]

theorem time_octets (h : Header) : Buffer.time h.octets = .ofNat h.time.seconds := by
  rw [← toNat_time_octets, UInt64.ofNat_toNat]

theorem nonce_after (e : Edit) (h : Header) :
    Buffer.nonce (e.after h.octets) = (e.nonce? h.octets).getD (Buffer.nonce h.octets) := by
  rw [after_octets, nonce_octets, nonce_octets]
  cases e with
  | setTime t =>
    rw [applied_setTime]
    split <;> rfl
  | advance now network =>
    rw [applied_advance, applied_setTime]
    split
    · split <;> rfl
    · rfl
  | _ => rfl

theorem time_after (e : Edit) (h : Header) :
    Buffer.time (e.after h.octets) = (e.time? h.octets).getD (Buffer.time h.octets) := by
  rw [after_octets, time_octets]
  cases e with
  | setTime t =>
    rw [applied_setTime, time?]
    by_cases ht : t.toNat ≤ maxTime
    · rw [dif_pos ht, if_pos ht]
      exact UInt64.ofNat_toNat
    · rw [dif_neg ht, if_neg ht]
      exact (time_octets h).symm
  | advance now network =>
    rw [applied_advance, applied_setTime, time?]
    by_cases hr : network.rollsTime ∧ Buffer.time h.octets < now
    · rw [if_pos hr]
      by_cases ht : now.toNat ≤ maxTime
      · rw [dif_pos ht, if_pos ⟨hr.1, hr.2, ht⟩]
        exact UInt64.ofNat_toNat
      · rw [dif_neg ht, if_neg fun hall => ht hall.2.2]
        exact (time_octets h).symm
    · rw [if_neg hr, if_neg fun hall => hr ⟨hall.1, hall.2.1⟩]
      exact (time_octets h).symm
  | _ => exact (time_octets h).symm

theorem extraNonce_after (e : Edit) (h : Header) :
    Buffer.extraNonce (e.after h.octets) =
      (e.extraNonce? h.octets).getD (Buffer.extraNonce h.octets) := by
  rw [after_octets, extraNonce_octets, extraNonce_octets]
  cases e with
  | setTime t =>
    rw [applied_setTime]
    split <;> rfl
  | advance now network =>
    rw [applied_advance, applied_setTime, extraNonce?, extraNonce_octets, incrementExtraNonce_eq]
    split
    · split <;> rfl
    · rfl
  | incrementExtraNonce =>
    rw [extraNonce?, extraNonce_octets]
    exact congrArg Header.extraNonce (incrementExtraNonce_eq h)
  | randomize tail =>
    apply Octets.ext
    show h.extraNonce.toList.take 12 ++ tail.toList =
      (Buffer.extraNonce h.octets).toList.take 12 ++ tail.toList
    rw [extraNonce_octets]
  | _ => rfl

/-- what reads back after each edit as written or as before reads back in the end as last written -/
theorem get_run {α : Type} {get : Buffer → α} {field? : Edit → Buffer → Option α}
    (hstep : ∀ e (h : Header), get (e.after h.octets) = (field? e h.octets).getD (get h.octets))
    (edits : List Edit) (h : Header) :
    get (run edits h.octets) = (written field? edits h.octets).getLastD (get h.octets) := by
  have hlast (o : Option α) (l : List α) (d : α) :
      (o.toList ++ l).getLastD d = l.getLastD (o.getD d) := by
    cases o with
    | none => rfl
    | some a => exact List.getLastD_cons
  induction edits generalizing h with
  | nil => rfl
  | cons e edits ih =>
    show get (run edits (e.after h.octets)) =
      (_ ++ written field? edits (e.after h.octets)).getLastD _
    rw [hlast, ← hstep, after_octets, ih]

end Edit

/-- a header that has been read and is edited in place in any way is the header with its fields
edited: it can be read again, it keeps its guard and its other bytes, and each field that is edited
holds what was last written -/
theorem edits_exact (h : Header) (edits : List Edit) :
    (∀ bs, ofBytes bs = .ok h → h.octets.toList = bs) ∧
    (∀ s, ofHex s = .ok h → Hex.decode s = .ok h.octets.toList) ∧
    let b := Edit.run edits h.octets
    ofBytes b.toList = .ok (Edit.applyAll edits h) ∧ IsGuarded b.toList ∧
    (∀ i, 12 ≤ i ∧ i < 128 ∨ 152 ≤ i → b.toList[i]? = h.octets.toList[i]?) ∧
    b.nonce = (Edit.written Edit.nonce? edits h.octets).getLastD (Buffer.nonce h.octets) ∧
    b.time = (Edit.written Edit.time? edits h.octets).getLastD (Buffer.time h.octets) ∧
    b.extraNonce =
      (Edit.written Edit.extraNonce? edits h.octets).getLastD (Buffer.extraNonce h.octets) ∧
    ∀ e : Edit,
      (∀ i, ¬e.Covers i b → (e.after b).toList[i]? = b.toList[i]?) ∧
      (∀ v c, e.write b = .error v c → c = b) ∧
      ((∃ v c, e.write b = .error v c) ↔ e.Breaks b) := by
  have hb := Edit.run_octets edits h
  refine ⟨fun _ hok => ofBytes_eq_ok_iff.1 hok, fun _ hok => ofHex_eq_ok_iff.1 hok, ?_, ?_, ?_,
    Edit.get_run Edit.nonce_after edits h, Edit.get_run Edit.time_after edits h,
    Edit.get_run Edit.extraNonce_after edits h, ?_⟩
  · rw [hb]
    exact ofBytes_toBytes _
  · rw [hb]
    exact isGuarded_toBytes _
  · intro i hi
    exact Edit.getElem?_run edits h (by omega)
  · intro e
    rw [hb]
    refine ⟨fun i hi => Edit.getElem?_after hi, ?_, Edit.write_eq_error_iff e _⟩
    intro v c hc
    rw [Edit.write_octets] at hc
    split at hc <;> cases hc
    rfl

end HeaderMiner.Header
