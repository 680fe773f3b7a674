import HeaderMiner.Proofs.Text.Decimal
import HeaderMiner.Proofs.Text.Decoding
import HeaderMiner.Proofs.Text.HexDigits
import HeaderMiner.Proofs.Text.Words
import HeaderMiner.Proofs.Worker.CycleProofs
/-!
# The language of solver answers

A solver answers with blanks, or with two words between blanks: a decimal number that fits 32 bits, and
the digits of a proof of 1 to 255 words, of either case (`Solver.IsAnswer`).  What it has written
is read as nothing, or as that number and that proof, and whatever else it is, as a failure of the solver
(`Solver.parseOutput_exact`).  A bad byte is read as a character that is neither a blank nor a digit.
-/

namespace HeaderMiner.Solver

open Text

/-- whether a text answers with a nonce and a proof -/
def IsAnswer (text : List Char) (nonce : UInt32) (proof : List UInt8) : Prop :=
  ∃ a v b w c, IsBlank a ∧ IsBlank b ∧ b ≠ [] ∧ IsBlank c ∧ text = a ++ (v ++ (b ++ (w ++ c))) ∧
    IsDecimal v nonce.toNat ∧
    (String.ofList w).toLower = Hex.encode proof ∧
    ∃ k, 1 ≤ k ∧ k ≤ 255 ∧ proof.length = 4 * k

/-! ## both words are words -/

theorem isBlank_of_isDigit {c : Char} (h : Hex.IsDigit c) : isBlank c = false := by
  have hrange : 48 ≤ c.toNat ∧ c.toNat ≤ 57 ∨ 97 ≤ c.toNat ∧ c.toNat ≤ 102 ∨
      65 ≤ c.toNat ∧ c.toNat ≤ 70 := h
  simp [isBlank]
  omega

theorem isWord_of_isDecimal {v : List Char} {n : Nat} (h : IsDecimal v n) : IsWord v := by
  obtain ⟨ds, hv, hne, hds, _⟩ := h
  have hdigits : ∀ c ∈ ds, isBlank c = false := by
    intro c hc
    have hd := hds c hc
    rw [Char.isDigit, Bool.and_eq_true, decide_eq_true_eq, decide_eq_true_eq] at hd
    exact isBlank_of_isDigit (.inl hd)
  rcases hv with rfl | rfl
  · exact ⟨hne, hdigits⟩
  · exact ⟨List.cons_ne_nil _ _, List.forall_mem_cons.2 ⟨by decide, hdigits⟩⟩

theorem isWord_of_decode {w : List Char} {proof : List UInt8}
    (h : Hex.decode (String.ofList w) = .ok proof) (hne : proof ≠ []) : IsWord w := by
  obtain ⟨hlength, hdigits⟩ := Hex.exists_decode_iff.1 ⟨proof, rfl, h⟩
  rw [String.length_ofList] at hlength
  rw [String.toList_ofList] at hdigits
  refine ⟨?_, fun c hc => isBlank_of_isDigit (hdigits c hc)⟩
  rintro rfl
  have hzero : proof.length = 0 := by
    rw [List.length_nil] at hlength
    omega
  exact hne (List.length_eq_zero_iff.1 hzero)

theorem isProofSize_iff_exists {n : Nat} :
    isProofSize n = true ↔ ∃ k, 1 ≤ k ∧ k ≤ 255 ∧ n = 4 * k := by
  rw [isProofSize_iff]
  constructor
  · rintro ⟨hne, hwords, hcount⟩
    exact ⟨n / 4, by omega, hcount, by omega⟩
  · rintro ⟨k, hk, hle, rfl⟩
    omega

/-! ## reading an answer -/

variable {stdout proof : List UInt8} {nonce : UInt32}

theorem parseOutput_eq_none_iff :
    parseOutput stdout = .ok none ↔ words (Utf8.decodeLossy stdout).toList = [] := by
  unfold parseOutput
  dsimp only
  rw [words_trim]
  split
  · next hw => exact iff_of_true rfl hw
  · next hw =>
    rw [hw]
    refine iff_of_false ?_ nofun
    split
    · exact nofun
    · split
      · exact nofun
      · split
        · exact nofun
        · exact nofun
  · next hw _ => exact iff_of_false nofun hw

theorem parseOutput_eq_some_iff :
    parseOutput stdout = .ok (some (nonce, proof)) ↔
      ∃ v w, words (Utf8.decodeLossy stdout).toList = [v, w] ∧
        natural (2 ^ 32) v = .ok nonce.toNat ∧ Hex.decode (String.ofList w) = .ok proof ∧
        isProofSize proof.length = true := by
  unfold parseOutput
  dsimp only
  rw [words_trim]
  split
  · next hw =>
    rw [hw]
    exact iff_of_false nofun fun ⟨_, _, he, _⟩ => nomatch he
  · next v w hw =>
    have hpair (p : List Char → List Char → Prop) :
        (∃ v' w', words (Utf8.decodeLossy stdout).toList = [v', w'] ∧ p v' w') ↔ p v w := by
      rw [hw]
      constructor
      · rintro ⟨v', w', he, hp⟩
        cases he
        exact hp
      · exact fun hp => ⟨v, w, rfl, hp⟩
    rw [hpair fun v w => natural (2 ^ 32) v = .ok nonce.toNat ∧
      Hex.decode (String.ofList w) = .ok proof ∧ isProofSize proof.length = true]
    cases hn : natural (2 ^ 32) v with
    | error f => exact iff_of_false nofun fun h => nomatch h.1
    | ok n =>
      cases hd : Hex.decode (String.ofList w) with
      | error f => exact iff_of_false nofun fun h => nomatch h.2.1
      | ok bs =>
        have hlt : n < 2 ^ 32 := ((natural_eq_ok_iff (by decide)).1 hn).2
        have hnonce : UInt32.ofNat n = nonce ↔ n = nonce.toNat := by
          rw [← UInt32.toNat_inj, UInt32.toNat_ofNat', Nat.mod_eq_of_lt hlt]
        dsimp only
        rw [Except.ok.injEq, Except.ok.injEq, ← hnonce]
        split
        · next hs =>
          rw [Except.ok.injEq, Option.some.injEq, Prod.mk.injEq]
          exact and_congr_right fun _ => ⟨fun h => ⟨h, h ▸ hs⟩, And.left⟩
        · next hs =>
          refine iff_of_false nofun ?_
          rintro ⟨_, rfl, h⟩
          exact hs h
  · next hw =>
    refine iff_of_false nofun ?_
    rintro ⟨v, w, he, _⟩
    exact hw v w he

theorem exists_failure_of_parseOutput {e : Error} (h : parseOutput stdout = .error e) :
    ∃ why, e = failure why := by
  unfold parseOutput at h
  dsimp only at h
  split at h
  · cases h
  · split at h
    · cases h
      exact ⟨_, rfl⟩
    · split at h
      · cases h
        exact ⟨_, rfl⟩
      · split at h
        · cases h
        · cases h
          exact ⟨_, rfl⟩
  · cases h
    exact ⟨_, rfl⟩

/-- two words are a nonce and a proof exactly if they are read as such -/
theorem isAnswer_iff {text : List Char} :
    IsAnswer text nonce proof ↔ ∃ v w, words text = [v, w] ∧ natural (2 ^ 32) v = .ok nonce.toNat ∧
      Hex.decode (String.ofList w) = .ok proof ∧ isProofSize proof.length = true := by
  have hfits : nonce.toNat < 2 ^ 32 := nonce.toNat_lt
  constructor
  · rintro ⟨a, v, b, w, c, ha, hb, hne, hc, htext, hv, hw, hsize⟩
    have hdecode := Hex.decode_eq_ok_iff.2 hw
    have hproof : proof ≠ [] := by
      rintro rfl
      obtain ⟨k, hk, _, hl⟩ := hsize
      rw [List.length_nil] at hl
      omega
    refine ⟨v, w, words_eq_pair_iff.2 ?_, (natural_eq_ok_iff (by decide)).2 ⟨hv, hfits⟩, hdecode,
      isProofSize_iff_exists.2 hsize⟩
    exact ⟨a, b, c, ha, isWord_of_isDecimal hv, hb, hne, isWord_of_decode hdecode hproof, hc, htext⟩
  · rintro ⟨v, w, hwords, hv, hw, hsize⟩
    obtain ⟨a, b, c, ha, _, hb, hne, _, hc, htext⟩ := words_eq_pair_iff.1 hwords
    exact ⟨a, v, b, w, c, ha, hb, hne, hc, htext, ((natural_eq_ok_iff (by decide)).1 hv).1,
      Hex.decode_eq_ok_iff.1 hw, isProofSize_iff_exists.1 hsize⟩

/-- Whatever bytes a solver writes: they are read as nothing exactly if their text is blank, as a nonce
and a proof exactly if it is an answer with these, and otherwise as a failure of the solver.  A number
and the digits of a proof of 1 to 255 words are such an answer, with any blanks around them. -/
theorem parseOutput_exact (stdout : List UInt8) :
    (parseOutput stdout = .ok none ↔ IsBlank (Utf8.decodeLossy stdout).toList) ∧
    (∀ nonce proof, parseOutput stdout = .ok (some (nonce, proof)) ↔
      IsAnswer (Utf8.decodeLossy stdout).toList nonce proof) ∧
    (¬ IsBlank (Utf8.decodeLossy stdout).toList →
      (∀ nonce proof, ¬ IsAnswer (Utf8.decodeLossy stdout).toList nonce proof) →
      ∃ why, parseOutput stdout = .error (.backend "external" why)) ∧
    ∀ (nonce : UInt32) (proof : List UInt8) (before after : String) (k : Nat),
      IsBlank before.toList → IsBlank after.toList → 1 ≤ k → k ≤ 255 → proof.length = 4 * k →
      stdout = Utf8.encode (before ++ toString nonce.toNat ++ " " ++ Hex.encode proof ++ after) →
      parseOutput stdout = .ok (some (nonce, proof)) := by
  have hnone : parseOutput stdout = .ok none ↔ IsBlank (Utf8.decodeLossy stdout).toList :=
    parseOutput_eq_none_iff.trans words_eq_nil_iff
  have hsome (nonce : UInt32) (proof : List UInt8) :
      parseOutput stdout = .ok (some (nonce, proof)) ↔
        IsAnswer (Utf8.decodeLossy stdout).toList nonce proof :=
    parseOutput_eq_some_iff.trans isAnswer_iff.symm
  refine ⟨hnone, hsome, ?_, ?_⟩
  · intro hblank hanswer
    cases h : parseOutput stdout with
    | error e =>
      obtain ⟨why, rfl⟩ := exists_failure_of_parseOutput h
      exact ⟨why, rfl⟩
    | ok answer =>
      cases answer with
      | none => exact absurd (hnone.1 h) hblank
      | some a => exact absurd ((hsome a.1 a.2).1 h) (hanswer a.1 a.2)
  · rintro nonce proof before after k hbefore hafter hk hle hlength rfl
    have hspace : IsBlank [' '] := List.forall_mem_singleton.2 rfl
    refine (hsome nonce proof).2 ?_
    rw [Utf8.decodeLossy_encode]
    refine ⟨before.toList, (toString nonce.toNat).toList, [' '], (Hex.encode proof).toList,
      after.toList, hbefore, hspace, List.cons_ne_nil _ _, hafter, ?_, isDecimal_toString _, ?_,
      k, hk, hle, hlength⟩
    · simp only [String.toList_append, List.append_assoc]
      rfl
    · rw [String.ofList_toList]
      exact Hex.decode_eq_ok_iff.1 (Hex.decode_encode proof)

end HeaderMiner.Solver
