import HeaderMiner.Proofs.Header.Agreement
import HeaderMiner.Proofs.Header.Hashing
import HeaderMiner.Proofs.Worker.Searches
import HeaderMiner.Worker.Round
import HeaderMiner.Worker.Sweep
/-!
# Searches on headers that are hashed alike

The hash of a header reads its first 128 bytes and nothing else, and so does a `Hasher` that is made
of it (`Alike.ofHeader_eq`).  The extra nonce stands behind them: neither a tail of its own nor a
header that moves on without its time changes what is hashed.  A nonce search reads its header through
such a hasher alone and writes down the extra nonce in the end, so on headers that are hashed alike it
takes the same course and comes to the same but for the extra nonce (`Grind.run_alike`).
-/

namespace HeaderMiner

namespace Header

variable {a b g h : Header} {now : Nat} {network : Network}

/-- whether two headers are written alike in the part that is hashed -/
def Alike (a b : Header) : Prop := ∀ i < 128, a.toBytes[i]? = b.toBytes[i]?

theorem Alike.symm (v : a.Alike b) : b.Alike a := fun i hi => (v i hi).symm

theorem Alike.trans (v : a.Alike b) (w : b.Alike h) : a.Alike h :=
  fun i hi => (v i hi).trans (w i hi)

theorem alike_iff : a.Alike b ↔ a.toBytes.take 128 = b.toBytes.take 128 := by
  have hwindow := @window_eq_iff a.toBytes b.toBytes 0 128
  exact ⟨fun v => hwindow.2 fun i _ hi => v i (by omega),
    fun he i hi => hwindow.1 he i (Nat.zero_le i) (by omega)⟩

theorem take_toBytes (h : Header) :
    h.toBytes.take 128 = h.front ++ leBytes 6 h.time.seconds ++ h.middle := by
  have hl : (h.front ++ leBytes 6 h.time.seconds ++ h.middle).length = 128 := by simp
  have hb : h.toBytes =
      (h.front ++ leBytes 6 h.time.seconds ++ h.middle) ++ (h.extraNonce.toList ++ h.rear) := by
    rw [toBytes_eq]
    simp only [List.append_assoc]
  rw [hb, List.take_left' hl]

theorem alike_of_parts (hf : a.front = b.front) (ht : a.time = b.time)
    (hm : a.middle = b.middle) : a.Alike b := by
  rw [alike_iff, take_toBytes, take_toBytes, hf, ht, hm]

theorem alike_of_agrees (hab : a.Agrees b) (ht : a.time = b.time) : a.Alike b := by
  obtain ⟨hf, hm, _⟩ := agrees_iff.1 hab
  exact alike_of_parts hf ht hm

theorem alike_setTail (h : Header) (tail : Octets 12) : (h.setTail tail).Alike h :=
  alike_of_parts rfl rfl rfl

theorem alike_of_advance (ha : h.advance now network = .ok (g, .extraNonce)) : g.Alike h := by
  unfold advance at ha
  split at ha
  · unfold setTime at ha
    split at ha <;> cases ha
  · cases ha
    exact alike_of_parts rfl rfl rfl

/-! ## hashes -/

/-- whatever nonces are tried one after the other, they are hashed alike -/
theorem Alike.ofHeader_eq (v : a.Alike b) : Hasher.ofHeader a = Hasher.ofHeader b := by
  rw [← Hasher.ofBuffer_octets, ← Hasher.ofBuffer_octets]
  exact Hasher.ofBuffer_congr v

theorem Alike.powHash_eq (v : a.Alike b) : a.powHash = b.powHash := by
  rw [← Hasher.hashParts_ofHeader, v.ofHeader_eq, Hasher.hashParts_ofHeader]

theorem Alike.verify_eq (v : a.Alike b) (target : Target) : a.verify target = b.verify target := by
  rw [verify, verify, v.powHash_eq]

end Header

/-! ## results -/

/-- a candidate without the extra nonce of its header -/
def Candidate.bare (c : Candidate) : Candidate := { c with extraNonce := .replicate 24 0 }

def bareResult (r : Except Error Candidate) : Except Error Candidate := r.map Candidate.bare

namespace Round

variable {results : List (Except Error Candidate)}

theorem firstFailure_bare : firstFailure (results.map bareResult) = firstFailure results := by
  induction results with
  | nil => rfl
  | cons r results ih =>
    cases r with
    | error e => rfl
    | ok c => exact ih

theorem firstMatch_bare :
    firstMatch (results.map bareResult) = (firstMatch results).map Candidate.bare := by
  induction results with
  | nil => rfl
  | cons r results ih =>
    cases r with
    | error e => exact ih
    | ok c =>
      show (if c.isMatch then some c.bare else firstMatch (results.map bareResult)) = _
      rw [firstMatch, ih]
      split <;> rfl

/-- a round does not look at extra nonces -/
theorem settle_bare : settle (results.map bareResult) = bareResult (settle results) := by
  unfold settle
  rw [firstFailure_bare, firstMatch_bare]
  cases firstFailure results with
  | some e => rfl
  | none => cases firstMatch results <;> rfl

end Round

/-! ## searches -/

section

variable {a b : Header}

/-- a nonce search finds the same, with the extra nonce of its own header, and does as much -/
theorem Grind.run_alike (v : a.Alike b) (target : Target) (start range : UInt32)
    (seen : Nat → Bool) :
    run a target start range seen =
      ({ (run b target start range seen).1 with extraNonce := a.extraNonce },
        (run b target start range seen).2) := by
  unfold run
  rw [v.ofHeader_eq]
  dsimp only
  split <;> rfl

theorem Sweep.run?_alike (v : a.Alike b) (target : Target) (start range : UInt32)
    (seen : Nat → Bool) :
    run? a target start range seen =
      (run? b target start range seen).map fun p =>
        ({ p.1 with extraNonce := a.extraNonce }, p.2) := by
  unfold run?
  rw [v.ofHeader_eq]
  cases limit? start range with
  | none => rfl
  | some limit =>
    cases hloop : loop? target seen limit (.ofHeader b) {} 0 start.toUInt64 with
    | none => simp [hloop]
    | some p =>
      obtain ⟨hit, s⟩ := p
      cases hit <;> simp [hloop, Candidate.noneOn]

end

/-- requests that differ in what is not hashed at most -/
structure Request.Alike (r r' : Request) : Prop where
  header : r.header.Alike r'.header
  target : r.target = r'.target
  params : r.params = r'.params
  device : r.device = r'.device

theorem Round.Plan.alike_request (p : Plan) {a b : Header} (v : a.Alike b) (target : Target)
    (tail tail' : Octets 12) (i : Nat) :
    (p.request a target tail i).Alike (p.request b target tail' i) where
  header := by
    show (if p.randomizes then a.setTail tail else a).Alike
      (if p.randomizes then b.setTail tail' else b)
    split
    · exact (a.alike_setTail tail).trans (v.trans (b.alike_setTail tail').symm)
    · exact v
  target := rfl
  params := rfl
  device := rfl

namespace Backend

variable {b : Backend} {r r' : Request} {i i' : Invocation} {c c' : Course} {seen : Nat → Bool}
  {x y : Except Error Candidate}

theorem check_alike (v : r.Alike r') : b.check r = b.check r' := by
  rw [check, check, v.device, v.params]

/-- a search on the CPU comes to the same and adds the same to the totals -/
theorem conclude_alike (hb : b.type = .cpu) (v : i.request.Alike i'.request)
    (hc : c.seen = c'.seen) :
    bareResult (b.conclude i c).1 = bareResult (b.conclude i' c').1 ∧
      (b.conclude i c).2 = (b.conclude i' c').2 := by
  unfold conclude
  rw [hb, v.params, v.target, hc]
  split
  · rw [Grind.run_alike v.header]
    exact ⟨rfl, rfl⟩
  · exact ⟨rfl, rfl⟩
  · exact absurd ‹BackendType.cpu = .external› (by decide)

/-- what a search comes back with on a device that is free, if its looks at the token go as given -/
def Yields (b : Backend) (seen : Nat → Bool) (r : Request) (result : Except Error Candidate) :
    Prop :=
  ∃ stats ts parent ending,
    (({ b with registry := {}, stats } : Backend).mine ts r parent fun _ _ =>
      { seen, ending }).1 = result

/-- it is what the checks say, or what the search comes to -/
theorem Yields.cases (v : b.Yields seen r x) :
    (∃ e, b.check r = .error e ∧ x = .error e) ∨
      b.check r = .ok () ∧ ∃ token ending, (b.conclude ⟨r, token⟩ { seen, ending }).1 = x := by
  obtain ⟨stats, ts, parent, ending, rfl⟩ := v
  cases hc : b.check r with
  | error e =>
    have hb : ({ b with registry := {}, stats } : Backend).begin ts r parent = .error e :=
      begin_of_check hc
    refine .inl ⟨e, rfl, ?_⟩
    unfold mine
    rw [hb]
  | ok u =>
    have hs : ({} : Registry).start ts r.device parent =
      .ok ((ts.child parent).1, { jobs := [(r.device, (ts.child parent).1)] },
        (ts.child parent).2) := rfl
    have hb := begin_eq_ok_iff (b := { b with registry := {}, stats }).2
      ⟨hc, _, _, hs, rfl, rfl⟩
    refine .inr ⟨rfl, (ts.child parent).1, ending, ?_⟩
    unfold mine
    rw [hb]
    rfl

/-- searches on the CPU whose looks go alike find the same -/
theorem Yields.bare_eq (hb : b.type = .cpu) (hr : r.Alike r') (v : b.Yields seen r x)
    (w : b.Yields seen r' y) : bareResult x = bareResult y := by
  have hc := check_alike (b := b) hr
  rcases v.cases with ⟨e, he, rfl⟩ | ⟨hk, token, ending, rfl⟩
  · rcases w.cases with ⟨e', he', rfl⟩ | ⟨hk', _⟩
    · rw [hc, he'] at he
      cases he
      rfl
    · rw [hc, hk'] at he
      cases he
  · rcases w.cases with ⟨e', he', rfl⟩ | ⟨hk', token', ending', rfl⟩
    · rw [hc, he'] at hk
      cases hk
    · have hi : (⟨r, token⟩ : Invocation).request.Alike (⟨r', token'⟩ : Invocation).request := hr
      have hs : ({ seen, ending } : Course).seen = ({ seen, ending := ending' } : Course).seen := rfl
      exact (conclude_alike hb hi hs).1

end Backend

end HeaderMiner
