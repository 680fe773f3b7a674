import HeaderMiner.Proofs.Checks
import HeaderMiner.Proofs.Header.Format
import HeaderMiner.Proofs.Json.Members
import HeaderMiner.Proofs.Work.Answer
/-!
# Which answers are work

An answer is taken apart by the types of five members and whatever else it holds does not matter
(`WorkAnswer.ofJson_filter`).  Its members are then checked in the order network, header, target,
height, time: it becomes work exactly if all of them are right, and the work is what the members say
(`WorkAnswer.Describes`); otherwise the error is that of the first that is wrong
(`WorkAnswer.decides_validate`).
-/

namespace HeaderMiner

/-! ## texts of targets -/

namespace Target

/-- a text is refused for its digits, or read -/
theorem ofHex_cases (s : String) :
    (¬Hex.IsText 32 s ∧ ∃ why, ofHex s = .error (.badTargetSize why)) ∨
    ∃ t : Target, Hex.decode s = .ok t.octets.toList ∧ ofHex s = .ok t := by
  rw [ofHex]
  rcases Hex.decodeSized_cases Error.badTargetSize 32 s with ⟨ht, why, he⟩ | ⟨bs, hl, hd, hok⟩
  · rw [he]
    exact .inl ⟨ht, why, rfl⟩
  · have hread := ofBytes_toList ⟨⟨bs, hl⟩⟩
    rw [hok]
    exact .inr ⟨⟨⟨bs, hl⟩⟩, hd, (pure_bind bs ofBytes).trans hread⟩

theorem ofHex_eq_ok_iff {s : String} {t : Target} :
    ofHex s = .ok t ↔ Hex.decode s = .ok t.octets.toList := by
  rw [ofHex, bind_eq_ok_iff]
  simp only [Hex.decodeSized_eq_ok_iff]
  constructor
  · rintro ⟨bs, ⟨hl, hd⟩, hok⟩
    cases (ofBytes_toList ⟨⟨bs, hl⟩⟩).symm.trans hok
    exact hd
  · intro hd
    exact ⟨_, ⟨t.octets.length_toList, hd⟩, t.ofBytes_toList⟩

end Target

namespace WorkAnswer

open Header (IsGuarded)
open Json (lookup)

variable {a : WorkAnswer} {network : Network} {w : Work} {v : Json} {e : Error}
  {members : List (String × Json)}

/-! ## decoding -/

def memberKeys : List String := ["network", "data", "target", "height", "time"]

/-- members of other keys do not matter -/
theorem ofJson_filter (members : List (String × Json)) :
    ofJson (.object (members.filter fun m => memberKeys.contains m.1)) = ofJson (.object members) := by
  have hkey (key : String) (h : memberKeys.contains key = true) :
      lookup key (members.filter fun m => memberKeys.contains m.1) = lookup key members :=
    Json.lookup_filter h
  have htypes : Json.checkStrings ["network", "data", "target"]
      (members.filter fun m => memberKeys.contains m.1) =
      Json.checkStrings ["network", "data", "target"] members :=
    Json.checkStrings_filter (by decide)
  have hmembers : ofMembers (members.filter fun m => memberKeys.contains m.1) =
      ofMembers members := by
    simp only [ofMembers, Json.stringAt, Json.valueAt, htypes, hkey "network" (by decide),
      hkey "data" (by decide), hkey "target" (by decide), hkey "height" (by decide),
      hkey "time" (by decide)]
  rw [ofJson, ofJson, hmembers]

theorem ofMembers_eq_ok_iff (hs : Json.IsSorted members) :
    ofMembers members = .ok a ↔
      lookup "network" members = some (.string a.network) ∧
      lookup "data" members = some (.string a.data) ∧
      lookup "target" members = some (.string a.target) ∧
      lookup "height" members = some a.height ∧ lookup "time" members = some a.time := by
  unfold ofMembers
  simp only [bind_eq_ok_iff, Json.stringAt_eq_ok_iff, Json.valueAt_eq_ok_iff]
  constructor
  · rintro ⟨-, -, network, hn, data, hd, target, ht, height, hh, time, hti, hp⟩
    cases hp
    exact ⟨hn, hd, ht, hh, hti⟩
  · rintro ⟨hn, hd, ht, hh, hti⟩
    refine ⟨(), Json.checkStrings_eq_ok ?_, _, hn, _, hd, _, ht, _, hh, _, hti, rfl⟩
    -- a key has one member only, so each member with it is the one that is looked up
    intro m hm hk
    have hl : lookup m.1 members = some m.2 := Json.lookup_of_mem hs hm
    simp only [List.mem_cons, List.not_mem_nil, or_false] at hk
    rcases hk with hk | hk | hk
    · exact ⟨_, Option.some.inj (hl.symm.trans (hk ▸ hn))⟩
    · exact ⟨_, Option.some.inj (hl.symm.trans (hk ▸ hd))⟩
    · exact ⟨_, Option.some.inj (hl.symm.trans (hk ▸ ht))⟩

/-- whether a value is an object with the members of an answer -/
structure IsAnswer (v : Json) (a : WorkAnswer) : Prop where
  network : v.get? "network" = some (.string a.network)
  data : v.get? "data" = some (.string a.data)
  target : v.get? "target" = some (.string a.target)
  height : v.get? "height" = some a.height
  time : v.get? "time" = some a.time

theorem ofJson_eq_ok_some_iff (hv : v.WellFormed) : ofJson v = .ok (some a) ↔ IsAnswer v a := by
  cases hv with
  | object hs _ =>
    have hmembers := ofMembers_eq_ok_iff (a := a) hs
    rw [ofJson]
    constructor
    · intro h
      split at h
      · next b hb =>
        cases h
        obtain ⟨hn, hd, ht, hh, hti⟩ := hmembers.1 hb
        exact ⟨hn, hd, ht, hh, hti⟩
      · cases h
    · rintro ⟨hn, hd, ht, hh, hti⟩
      rw [hmembers.2 ⟨hn, hd, ht, hh, hti⟩]
  | _ =>
    constructor
    · nofun
    · rintro ⟨hn, -⟩
      cases hn

theorem ofJson_eq_ok_none_iff : ofJson v = .ok none ↔ v = .null := by
  cases v with
  | object members =>
    rw [ofJson]
    split <;> simp
  | _ => simp [ofJson]

/-! ## the checks -/

theorem word?_eq_some_iff {n : UInt32} : word? v = some n ↔ v = .natural n.toNat := by
  cases v with
  | natural k =>
    show (if k < 2 ^ 32 then some (UInt32.ofNat k) else none) = some n ↔ _
    split
    · next hk =>
      rw [Option.some.injEq, Json.natural.injEq, ← UInt32.toNat_inj,
        UInt32.toNat_ofNat_of_lt' hk]
    · next hk =>
      have hne : k ≠ n.toNat := by
        rintro rfl
        exact hk n.toNat_lt
      simp [hne]
  | _ => simp [word?, Json.asNat?]

/-- the checks that an answer has to pass, in their order -/
def checks (network : Network) (a : WorkAnswer) : List Check :=
  [fun e => a.network ≠ network.name ∧ e = .wrongNetwork network.name a.network,
    fun e => (¬Hex.IsText 256 a.data ∧ ∃ why, e = .badHeaderSize why) ∨
      (∃ raw, raw.length = 256 ∧ Hex.decode a.data = .ok raw ∧ ¬IsGuarded raw) ∧
        ∃ why, e = .badTime why,
    fun e => ¬Hex.IsText 32 a.target ∧ ∃ why, e = .badTargetSize why,
    fun e => (∀ n : UInt32, a.height ≠ .natural n.toNat) ∧ e = .badHeight (notWord a.height),
    fun e => (∀ n : UInt32, a.time ≠ .natural n.toNat) ∧ e = .badTime (notWord a.time)]

theorem validate_eq (a : WorkAnswer) (network : Network) :
    a.validate network = (do
      Check.ensure (a.network = network.name) (.wrongNetwork network.name a.network)
      let header ← Header.ofHex a.data
      let target ← Target.ofHex a.target
      let height ← Check.demand (word? a.height) (.badHeight (notWord a.height))
      let time ← Check.demand (word? a.time) (.badTime (notWord a.time))
      return { header, target, height, time }) := by
  unfold validate Check.ensure
  by_cases hn : a.network = network.name
  · rw [if_neg (not_not.2 hn), if_pos hn]
    cases Header.ofHex a.data with
    | error e => rfl
    | ok header =>
      cases Target.ofHex a.target with
      | error e => rfl
      | ok target =>
        cases word? a.height with
        | none => rfl
        | some height => cases word? a.time <;> rfl
  · rw [if_pos hn, if_neg hn]
    rfl

theorem decides_header (s : String) :
    Check.Decides [fun e => (¬Hex.IsText 256 s ∧ ∃ why, e = .badHeaderSize why) ∨
      (∃ raw, raw.length = 256 ∧ Hex.decode s = .ok raw ∧ ¬IsGuarded raw) ∧ ∃ why, e = .badTime why]
      (Header.ofHex s) := by
  rcases Header.ofHex_cases s with ⟨ht, why, he⟩ | ⟨raw, hl, hd, hg, why, he⟩ | ⟨h, hd, hok⟩
  · rw [he]
    refine Check.decides_step (fun e h => ?_) nofun
    cases h
    exact .inl ⟨ht, why, rfl⟩
  · rw [he]
    refine Check.decides_step (fun e h => ?_) nofun
    cases h
    exact .inr ⟨⟨raw, hl, hd, hg⟩, why, rfl⟩
  · rw [hok]
    refine Check.decides_step nofun ?_
    rintro _ _ e (⟨ht, -⟩ | ⟨⟨raw, -, hraw, hg⟩, -⟩)
    · exact ht (Hex.exists_decode_iff.1 ⟨_, h.length_toBytes, hd⟩)
    · cases hraw.symm.trans hd
      exact hg h.isGuarded_toBytes

theorem decides_target (s : String) :
    Check.Decides [fun e => ¬Hex.IsText 32 s ∧ ∃ why, e = .badTargetSize why] (Target.ofHex s) := by
  rcases Target.ofHex_cases s with ⟨ht, why, he⟩ | ⟨t, hd, hok⟩
  · rw [he]
    refine Check.decides_step (fun e h => ?_) nofun
    cases h
    exact ⟨ht, why, rfl⟩
  · rw [hok]
    refine Check.decides_step nofun ?_
    rintro _ _ e ⟨ht, -⟩
    exact ht (Hex.exists_decode_iff.1 ⟨_, t.octets.length_toList, hd⟩)

theorem decides_word (v : Json) (e : Error) :
    Check.Decides [fun e' => (∀ n : UInt32, v ≠ .natural n.toNat) ∧ e' = e]
      (Check.demand (word? v) e) := by
  have h := Check.decides_demand (word? v) e
  simpa only [ne_eq, word?_eq_some_iff] using h

/-- the checks in their order decide what comes of an answer -/
theorem decides_validate (a : WorkAnswer) (network : Network) :
    Check.Decides (a.checks network) (a.validate network) := by
  rw [validate_eq]
  refine (Check.decides_ensure _ _).bind fun _ _ => ?_
  refine (decides_header _).bind fun header _ => ?_
  refine (decides_target _).bind fun target _ => ?_
  refine (decides_word _ _).bind fun height _ => ?_
  refine (decides_word _ _).bind fun time _ => ?_
  exact Check.decides_ok _

/-! ## what is accepted -/

theorem validate_eq_ok_iff :
    a.validate network = .ok w ↔
      a.network = network.name ∧ Hex.decode a.data = .ok w.header.toBytes ∧
      Hex.decode a.target = .ok w.target.octets.toList ∧
      a.height = .natural w.height.toNat ∧ a.time = .natural w.time.toNat := by
  rw [validate_eq]
  simp only [bind_eq_ok_iff, Check.ensure_eq_ok_iff, Check.demand_eq_ok_iff, word?_eq_some_iff,
    Header.ofHex_eq_ok_iff, Target.ofHex_eq_ok_iff]
  constructor
  · rintro ⟨-, hn, header, hd, target, ht, height, hh, time, hti, hw⟩
    cases hw
    exact ⟨hn, hd, ht, hh, hti⟩
  · rintro ⟨hn, hd, ht, hh, hti⟩
    exact ⟨(), hn, _, hd, _, ht, _, hh, _, hti, rfl⟩

/-- whether an answer is right for a network -/
structure IsRight (network : Network) (a : WorkAnswer) : Prop where
  network : a.network = network.name
  data : Hex.IsText 256 a.data ∧ ∃ raw, a.data.toLower = Hex.encode raw ∧ IsGuarded raw
  target : Hex.IsText 32 a.target
  height : ∃ n : UInt32, a.height = .natural n.toNat
  time : ∃ n : UInt32, a.time = .natural n.toNat

/-- whether work is what an answer says -/
structure Describes (a : WorkAnswer) (w : Work) : Prop where
  header : a.data.toLower = Hex.encode w.header.toBytes
  target : a.target.toLower = Hex.encode w.target.octets.toList
  height : a.height = .natural w.height.toNat
  time : a.time = .natural w.time.toNat
  identity : ∀ raw, a.data.toLower = Hex.encode raw → w.identity.toList = (raw.drop 96).take 32

theorem describes_of_validate (h : a.validate network = .ok w) : a.Describes w := by
  obtain ⟨-, hd, ht, hh, hti⟩ := validate_eq_ok_iff.1 h
  refine ⟨Hex.decode_eq_ok_iff.1 hd, Hex.decode_eq_ok_iff.1 ht, hh, hti, fun raw hraw => ?_⟩
  cases (Hex.decode_eq_ok_iff.2 hraw).symm.trans hd
  exact w.header.toList_maskHash

theorem exists_validate_iff : (∃ w, a.validate network = .ok w) ↔ a.IsRight network := by
  constructor
  · rintro ⟨w, hw⟩
    obtain ⟨hn, hd, ht, hh, hti⟩ := validate_eq_ok_iff.1 hw
    exact {
      network := hn
      data := ⟨Hex.exists_decode_iff.1 ⟨_, w.header.length_toBytes, hd⟩, _,
        Hex.decode_eq_ok_iff.1 hd, w.header.isGuarded_toBytes⟩
      target := Hex.exists_decode_iff.1 ⟨_, w.target.octets.length_toList, ht⟩
      height := ⟨_, hh⟩
      time := ⟨_, hti⟩ }
  · rintro ⟨hn, ⟨hdata, raw, hraw, hg⟩, htarget, ⟨height, hh⟩, time, hti⟩
    obtain ⟨bs, hl, hd⟩ := Hex.exists_decode_iff.2 hdata
    obtain ⟨ts, hlt, ht⟩ := Hex.exists_decode_iff.2 htarget
    cases (Hex.decode_eq_ok_iff.2 hraw).symm.trans hd
    obtain ⟨header, rfl⟩ := Header.exists_toBytes_iff.2 ⟨hl, hg⟩
    exact ⟨⟨header, ⟨⟨ts, hlt⟩⟩, height, time⟩, validate_eq_ok_iff.2 ⟨hn, hd, ht, hh, hti⟩⟩

/-- An answer is no work exactly if it is `null`, and becomes work exactly if it is an object with the
five members and these are right for the network; the work is then what they say.  Otherwise the first
check that an answer does not pass gives the error.  Members of other keys do not matter, and a height
or a time that is right is spelled with neither sign nor fraction nor exponent. -/
theorem acceptance_exact (hv : v.WellFormed) (network : Network) :
    (ofJson v = .ok none ↔ v = .null) ∧
    ((∃ a w, ofJson v = .ok (some a) ∧ a.validate network = .ok w) ↔
      ∃ a, IsAnswer v a ∧ a.IsRight network) ∧
    (∀ a, ofJson v = .ok (some a) → IsAnswer v a ∧ Check.Decides (a.checks network)
      (a.validate network) ∧ ∀ w, a.validate network = .ok w → a.Describes w) ∧
    (∀ members, v = .object members →
      ofJson (.object (members.filter fun m => memberKeys.contains m.1)) = ofJson v) ∧
    (∀ (l : Json.Literal) (positive : Bool) (n : Nat), l.value? positive = some (.natural n) ↔
      positive = true ∧ l.fraction = none ∧ l.exponent = none ∧
        Json.spelled 0 l.whole = n ∧ n < Json.wordBound) := by
  have hanswer (a : WorkAnswer) : ofJson v = .ok (some a) ↔ IsAnswer v a := ofJson_eq_ok_some_iff hv
  refine ⟨ofJson_eq_ok_none_iff, ?_, ?_, ?_, fun _ _ _ => Json.value?_eq_natural_iff⟩
  · simp only [hanswer, exists_and_left, exists_validate_iff]
  · intro a ha
    exact ⟨(hanswer a).1 ha, decides_validate a network, fun w => describes_of_validate⟩
  · rintro members rfl
    exact ofJson_filter members

/-- an answer that has one member more than it needs -/
def sample : Json :=
  .object [("bits", .null), ("data", .string (Hex.encode (List.replicate 256 0))),
    ("height", .natural 7), ("network", .string "main"),
    ("target", .string (Hex.encode (List.replicate 32 255))), ("time", .natural 9)]

theorem acceptance_exact_sample :
    sample.WellFormed ∧
      ∃ a w, ofJson sample = .ok (some a) ∧ a.validate .main = .ok w ∧ a.Describes w := by
  have hv : sample.WellFormed := by
    have hkeys : ["bits", "data", "height", "network", "target", "time"].Pairwise (· < ·) := by
      decide
    refine .object (List.pairwise_map.1 hkeys) ?_
    simp only [List.forall_mem_cons, List.not_mem_nil]
    exact ⟨.null, .string _, .natural (by decide), .string _, .string _, .natural (by decide),
      nofun⟩
  obtain ⟨-, haccept, hwork, -⟩ := acceptance_exact hv .main
  have hanswer : IsAnswer sample ⟨"main", Hex.encode (List.replicate 256 0),
      Hex.encode (List.replicate 32 255), .natural 7, .natural 9⟩ := ⟨rfl, rfl, rfl, rfl, rfl⟩
  obtain ⟨a, w, ha, hw⟩ := haccept.2 ⟨_, hanswer, {
    network := rfl
    data := ⟨Hex.exists_decode_iff.1 ⟨_, List.length_replicate, Hex.decode_encode _⟩, _,
      Hex.decode_eq_ok_iff.1 (Hex.decode_encode _), rfl, rfl⟩
    target := Hex.exists_decode_iff.1 ⟨_, List.length_replicate, Hex.decode_encode _⟩
    height := ⟨7, rfl⟩
    time := ⟨9, rfl⟩ }⟩
  exact ⟨hv, a, w, ha, hw, (hwork a ha).2.2 w hw⟩

end WorkAnswer

end HeaderMiner
