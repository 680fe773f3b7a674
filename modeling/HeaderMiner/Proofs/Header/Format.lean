import HeaderMiner.Proofs.Checks
import HeaderMiner.Proofs.Header.Reading
/-!
# Which bytes are a header

A byte string is the written form of a header exactly if it has 256 bytes and a guard of two zeros
behind the time (`exists_toBytes_iff`): every other byte lies in the window of one field, and the
windows in their order are the whole string again (`toBytes_fieldsOf`).  What is refused is refused for
its size before its guard, and so is the text of a header, whose size is that of its digits
(`ofHex_cases`).
-/

namespace HeaderMiner.Header

variable {bs : List UInt8} {h : Header}

/-! ## the guard -/

theorem guardOf_eq_zero_iff (hl : 12 ≤ bs.length) :
    guardOf bs = 0 ↔ bs[10]? = some 0 ∧ bs[11]? = some 0 := by
  have h10 : bs[10]? = some bs[10] := List.getElem?_eq_getElem _
  have h11 : bs[11]? = some bs[11] := List.getElem?_eq_getElem _
  have hguard : (bs.drop 10).take 2 = [bs[10], bs[11]] := by
    rw [List.drop_eq_getElem_cons (by omega), List.drop_eq_getElem_cons (by omega)]
    rfl
  have hzero (b : UInt8) : b = 0 ↔ b.toNat = 0 := UInt8.toNat_inj.symm
  rw [guardOf, hguard, h10, h11, Option.some.injEq, Option.some.injEq, hzero, hzero]
  simp only [leNat]
  omega

/-! ## the windows -/

theorem getElem?_window (bs : List UInt8) (i n k : Nat) :
    ((bs.drop i).take n)[k]? = if k < n then bs[i + k]? else none := by
  rw [List.getElem?_take, List.getElem?_drop]

theorem window_eq_iff {as bs : List UInt8} {i n : Nat} :
    (as.drop i).take n = (bs.drop i).take n ↔ ∀ j, i ≤ j → j < i + n → as[j]? = bs[j]? := by
  constructor
  · intro h j hi hj
    have hk := congrArg (·[j - i]?) h
    simp only [getElem?_window, if_pos (show j - i < n by omega), Nat.add_sub_cancel' hi] at hk
    exact hk
  · intro h
    apply List.ext_getElem?
    intro k
    rw [getElem?_window, getElem?_window]
    split
    · exact h (i + k) (by omega) (by omega)
    · rfl

theorem window_append (bs : List UInt8) (i n : Nat) :
    (bs.drop i).take n ++ bs.drop (i + n) = bs.drop i := by
  rw [← List.drop_drop, List.take_append_drop]

theorem leBytes_window {i n : Nat} (hi : i + n ≤ bs.length) :
    leBytes n (leNat ((bs.drop i).take n)) = (bs.drop i).take n := by
  have hl : ((bs.drop i).take n).length = n := by
    rw [List.length_take, List.length_drop]
    omega
  have hb := leBytes_leNat ((bs.drop i).take n)
  rwa [hl] at hb

theorem leBytes_word {i : Nat} (hi : i + 4 ≤ bs.length) :
    leBytes 4 (word bs i).toNat = (bs.drop i).take 4 := by
  have hlt : leNat ((bs.drop i).take 4) < 2 ^ 32 := by
    have hle := leNat_lt ((bs.drop i).take 4)
    have hl : ((bs.drop i).take 4).length = 4 := by
      rw [List.length_take, List.length_drop]
      omega
    rwa [hl] at hle
  rw [word, UInt32.toNat_ofNat', Nat.mod_eq_of_lt hlt, leBytes_window hi]

/-- with a guard of zeros, the windows in their order are the whole string -/
theorem toBytes_fieldsOf (hl : bs.length = 256) (hg : guardOf bs = 0) :
    (fieldsOf bs hl).toBytes = bs := by
  have hguard : [0, 0] = (bs.drop 10).take 2 := by
    rw [← leBytes_window (by omega), ← guardOf, hg]
    rfl
  have hbits : (bs.drop 252).take 4 = bs.drop 252 :=
    List.take_of_length_le (by rw [List.length_drop]; omega)
  unfold toBytes
  rw [hguard]
  simp only [fieldsOf, Octets.window, timeAt]
  rw [leBytes_word (by omega), leBytes_word (by omega), leBytes_word (by omega),
    leBytes_window (by omega), hbits]
  simp only [List.append_assoc]
  rw [window_append bs 248 4, window_append bs 216 32, window_append bs 184 32,
    window_append bs 152 32, window_append bs 128 24, window_append bs 96 32,
    window_append bs 64 32, window_append bs 32 32, window_append bs 12 20, window_append bs 10 2,
    window_append bs 4 6, window_append bs 0 4, List.drop_zero]

/-! ## reading -/

/-- whether the two bytes behind the time are zero -/
def IsGuarded (bs : List UInt8) : Prop := bs[10]? = some 0 ∧ bs[11]? = some 0

theorem isGuarded_toBytes (h : Header) : IsGuarded h.toBytes := by
  have hl : 12 ≤ h.toBytes.length := by rw [length_toBytes]; decide
  exact (guardOf_eq_zero_iff hl).1 h.guardOf_toBytes

theorem exists_toBytes_iff : (∃ h : Header, h.toBytes = bs) ↔ bs.length = 256 ∧ IsGuarded bs := by
  constructor
  · rintro ⟨h, rfl⟩
    exact ⟨h.length_toBytes, h.isGuarded_toBytes⟩
  · rintro ⟨hl, hg⟩
    have hz : guardOf bs = 0 := (guardOf_eq_zero_iff (by omega)).2 hg
    exact ⟨fieldsOf bs hl, toBytes_fieldsOf hl hz⟩

theorem toList_maskHash (h : Header) : h.maskHash.toList = (h.toBytes.drop 96).take 32 := by
  have hwindow : ∀ (bs : List UInt8) (hl : bs.length = 256),
      (fieldsOf bs hl).maskHash.toList = (bs.drop 96).take 32 := fun _ _ => rfl
  rw [← hwindow h.toBytes h.length_toBytes, h.fieldsOf_toBytes]

theorem ofBytes_eq_ok_iff : ofBytes bs = .ok h ↔ h.toBytes = bs := by
  constructor
  · intro hok
    unfold ofBytes at hok
    split at hok
    · next hl =>
      split at hok
      · next hg =>
        cases hok
        exact toBytes_fieldsOf hl hg
      · cases hok
    · cases hok
  · rintro rfl
    exact h.ofBytes_toBytes

theorem ofBytes_of_not_isGuarded (hl : bs.length = 256) (hg : ¬IsGuarded bs) :
    ∃ why, ofBytes bs = .error (.badTime why) := by
  have hz : guardOf bs ≠ 0 := mt (guardOf_eq_zero_iff (by omega)).1 hg
  unfold ofBytes
  rw [dif_pos hl, if_neg hz]
  exact ⟨_, rfl⟩

/-! ## texts -/

/-- a text is refused for its digits, refused for the guard among them, or read -/
theorem ofHex_cases (s : String) :
    (¬Hex.IsText size s ∧ ∃ why, ofHex s = .error (.badHeaderSize why)) ∨
    (∃ raw, raw.length = size ∧ Hex.decode s = .ok raw ∧ ¬IsGuarded raw ∧
      ∃ why, ofHex s = .error (.badTime why)) ∨
    ∃ h : Header, Hex.decode s = .ok h.toBytes ∧ ofHex s = .ok h := by
  rw [ofHex]
  rcases Hex.decodeSized_cases Error.badHeaderSize size s with ⟨ht, why, he⟩ | ⟨raw, hl, hd, hok⟩
  · rw [he]
    exact .inl ⟨ht, why, rfl⟩
  · have hread : (Except.ok raw >>= ofBytes) = ofBytes raw := pure_bind raw ofBytes
    rw [hok, hread]
    by_cases hg : IsGuarded raw
    · obtain ⟨h, rfl⟩ := exists_toBytes_iff.2 ⟨hl, hg⟩
      exact .inr (.inr ⟨h, hd, h.ofBytes_toBytes⟩)
    · obtain ⟨why, he⟩ := ofBytes_of_not_isGuarded hl hg
      exact .inr (.inl ⟨raw, hl, hd, hg, why, he⟩)

theorem ofHex_eq_ok_iff {s : String} : ofHex s = .ok h ↔ Hex.decode s = .ok h.toBytes := by
  rw [ofHex, bind_eq_ok_iff]
  simp only [Hex.decodeSized_eq_ok_iff, ofBytes_eq_ok_iff]
  constructor
  · rintro ⟨raw, ⟨-, hd⟩, rfl⟩
    exact hd
  · intro hd
    exact ⟨_, ⟨h.length_toBytes, hd⟩, rfl⟩

end HeaderMiner.Header
