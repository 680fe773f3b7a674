import HeaderMiner.Settings.Load
/-!
# Which settings are accepted

The checks of settings say no more and no less than `Settings.IsAccepted` (`validate_eq_ok_iff`).
A pinned device is compared with the number of devices only if that is set, as zero may stand for
one on each core of a machine that the check does not know.

The built-in settings are accepted (`isAccepted_builtIn`); the only check of theirs that takes more
than a look is that of their URL.
-/

namespace HeaderMiner

namespace Settings

variable {c : Settings}

/-- what the checks ask of settings -/
structure IsAccepted (c : Settings) : Prop where
  url : ∃ u, Url.parse c.rpcUrl = .ok u
  pollInterval : (c .pollInterval : Duration).isZero = false
  command : (c .backend : BackendType) = .external → c.hasCommand = true
  device : ∀ d, (c .device : Option UInt32) = some d → (c .deviceCount : UInt32) ≠ 0 →
    d < (c .deviceCount : UInt32)

theorem isAccepted_of_validate (h : c.validate = .ok ()) : c.IsAccepted := by
  unfold validate at h
  cases hu : Url.parse c.rpcUrl with
  | error f =>
    rw [hu] at h
    cases h
  | ok u =>
    rw [hu] at h
    dsimp only at h
    split at h
    · cases h
    · next hp =>
      split at h
      · cases h
      · next hc =>
        constructor
        case url => exact ⟨u, hu⟩
        case pollInterval => exact Bool.eq_false_iff.2 hp
        case command =>
          intro he
          rw [he] at hc
          simpa using hc
        case device =>
          intro d hd hn
          rw [hd] at h
          dsimp only at h
          split at h
          · cases h
          · next hl =>
            rw [Bool.and_eq_true, decide_eq_true hn, decide_eq_true_iff] at hl
            exact UInt32.not_le.1 fun hle => hl ⟨rfl, hle⟩

theorem IsAccepted.validate (h : c.IsAccepted) : c.validate = .ok () := by
  obtain ⟨⟨u, hu⟩, hp, hc, hd⟩ := h
  have hb : (decide ((c .backend : BackendType) = .external) && !c.hasCommand) = false := by
    cases he : decide ((c .backend : BackendType) = .external) with
    | false => rfl
    | true =>
      rw [hc (of_decide_eq_true he)]
      rfl
  unfold Settings.validate
  rw [hu, hp, hb]
  cases hdev : (c .device : Option UInt32) with
  | none => rfl
  | some d =>
    have hno : ¬ (decide ((c .deviceCount : UInt32) ≠ 0) &&
        decide ((c .deviceCount : UInt32) ≤ d)) = true := by
      rw [Bool.and_eq_true, decide_eq_true_iff, decide_eq_true_iff]
      rintro ⟨hn, hle⟩
      exact UInt32.not_le.2 (hd d hdev hn) hle
    show (if (decide ((c .deviceCount : UInt32) ≠ 0) &&
      decide ((c .deviceCount : UInt32) ≤ d)) = true then _ else Except.ok ()) = .ok ()
    exact if_neg hno

theorem validate_eq_ok_iff : c.validate = .ok () ↔ c.IsAccepted :=
  ⟨isAccepted_of_validate, IsAccepted.validate⟩

end Settings

/-! ## the built-in settings -/

namespace Url

def localhost : List Nat := "localhost".toList.map Char.toNat

theorem label?_localhost : Domain.label? localhost = some (localhost, localhost) := by
  have hf : ∀ n ∈ localhost, Domain.isForbidden n = false := by
    unfold Domain.isForbidden
    simp only [String.contains_char_eq]
    decide +kernel
  have hs : Domain.isSound localhost = true := by
    unfold Domain.isSound
    rw [List.any_eq_false.2 fun n hn => ne_true_of_eq_false (hf n hn)]
    decide +kernel
  unfold Domain.label?
  rw [if_neg (by decide), if_pos hs]
  decide +kernel

theorem toAscii?_localhost :
    Domain.toAscii? (percentBytes "localhost".toList) = some "localhost".toList := by
  have hd : Utf8.decode? (percentBytes "localhost".toList) = some "localhost" := by decide +kernel
  have hm : Domain.mapped? ("localhost".toList.map Char.toNat) = some localhost := by
    decide +kernel
  have hs : Text.splitAt 0x2e (Text.composed localhost) = [localhost] := by decide +kernel
  unfold Domain.toAscii?
  rw [hd, Option.bind_eq_bind, Option.bind_some, hm, Option.bind_eq_bind, Option.bind_some, hs,
    List.mapM_cons, label?_localhost]
  decide +kernel

/-- a domain that does not end in a number is a host -/
theorem webHost_of_toAscii? {cs domain : List Char} (hb : cs.head? ≠ some '[')
    (hd : Domain.toAscii? (percentBytes cs) = some domain) (he : domain.isEmpty = false)
    (hn : endsInNumber domain = false) : webHost cs = .ok (String.ofList domain) := by
  unfold webHost
  split
  · exact absurd rfl hb
  · rw [hd]
    dsimp only
    rw [he, hn]
    rfl

theorem parse_localhost : parse "http://localhost:12037/" =
    .ok ⟨"http", "", "", some "localhost", some 12037, .segments [""], none, none⟩ := by
  have h : parse "http://localhost:12037/" = (webHost "localhost".toList).bind fun host =>
      .ok ⟨"http", "", "", some host, some 12037, .segments [""], none, none⟩ := rfl
  have hhost : webHost "localhost".toList = .ok "localhost" :=
    webHost_of_toAscii? (by decide) toAscii?_localhost (by decide) (by decide +kernel)
  rw [h, hhost]
  rfl

end Url

theorem Settings.isAccepted_builtIn : Given.empty.complete.IsAccepted where
  url := ⟨_, Url.parse_localhost⟩
  pollInterval := by decide
  command h := nomatch h
  device d h := nomatch h

end HeaderMiner
