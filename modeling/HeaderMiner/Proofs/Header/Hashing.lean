import HeaderMiner.ProofOfWork.Bytes
import HeaderMiner.Proofs.Header.Editing
/-!
# Hashing many nonces of one header

A hasher is made of the first 128 bytes of a header and nothing else (`Hasher.ofBuffer_congr`), and of
these the pad reads 64 that stand behind the nonce.  So writing a nonce into a hasher comes to the same
as writing it into the header and making a hasher of that (`Hasher.setNonce_ofBuffer`), and a nonce
that was written before leaves no trace (`Header.Buffer.setNonce_setNonce`).  Whatever the hash
functions are, a hasher that goes from nonce to nonce therefore is at each the hasher of the header
with this nonce in it (`Hasher.hashAll_ofBuffer`), and whatever nonces it has tried it follows the
header (`Hasher.Follows.hash_eq`).
-/

namespace HeaderMiner

open Header (Buffer Edit)

namespace Header.Buffer

variable {b c : Buffer} {bs xs : List UInt8} {i k : Nat}

/-! ## nonces in a buffer -/

theorem take_splice_zero (hl : xs.length ≤ k) :
    (splice bs 0 xs).take k = xs ++ (bs.take k).drop xs.length := by
  show (xs ++ bs.drop (0 + xs.length)).take k = _
  rw [Nat.zero_add, List.take_append, List.take_of_length_le hl, List.drop_take]

theorem toList_setNonce (nonce : UInt32) (b : Buffer) :
    ((Edit.setNonce nonce).after b).toList = splice b.toList 0 (leBytes 4 nonce.toNat) := rfl

theorem getElem?_setNonce (nonce : UInt32) (hi : 4 ≤ i) :
    ((Edit.setNonce nonce).after b).toList[i]? = b.toList[i]? := by
  rw [toList_setNonce]
  exact getElem?_splice (by simp) (.inr (by simpa using hi))

theorem getElem?_finalize (nonce : UInt32) (x : ExtraNonce) (hi : i < 128) :
    ((Edit.finalize nonce x).after b).toList[i]? = ((Edit.setNonce nonce).after b).toList[i]? := by
  show (splice ((Edit.setNonce nonce).after b).toList 128 x.toList)[i]? = _
  exact getElem?_splice (by simp) (.inl hi)

theorem setNonce_setNonce (m n : UInt32) (b : Buffer) :
    (Edit.setNonce n).after ((Edit.setNonce m).after b) = (Edit.setNonce n).after b := by
  have hm : splice b.toList 0 (leBytes 4 m.toNat) =
      [] ++ (leBytes 4 m.toNat ++ b.toList.drop 4) := by
    rw [splice, length_leBytes]
    rfl
  apply Octets.ext
  rw [toList_setNonce, toList_setNonce, toList_setNonce, hm,
    splice_append List.length_nil (by simp), splice, length_leBytes]
  rfl

theorem setNonce_octets (nonce : UInt32) (h : Header) :
    (Edit.setNonce nonce).after h.octets = ({ h with nonce } : Header).octets :=
  Edit.after_octets ..

theorem finalize_octets (nonce : UInt32) (x : ExtraNonce) (h : Header) :
    (Edit.finalize nonce x).after h.octets = (h.finalize nonce x).octets :=
  Edit.after_octets ..

/-! ## the pad and the hash -/

theorem toList_pad (b : Buffer) :
    b.pad.toList = xorBytes ((b.toList.drop 32).take 32) ((b.toList.drop 64).take 32) := by
  apply List.ext_getElem
  · simp [xorBytes]
  · intro i _ _
    simp only [pad, xorBytes, List.getElem_ofFn, List.getElem_zipWith, List.getElem_take,
      List.getElem_drop, List.get_eq_getElem]

theorem pad_congr (h : ∀ i, 32 ≤ i → i < 96 → b.toList[i]? = c.toList[i]?) : b.pad = c.pad := by
  have hprev : (b.toList.drop 32).take 32 = (c.toList.drop 32).take 32 :=
    window_eq_iff.2 fun i hlow hup => h i hlow (by omega)
  have htree : (b.toList.drop 64).take 32 = (c.toList.drop 64).take 32 :=
    window_eq_iff.2 fun i hlow hup => h i (by omega) hup
  apply Octets.ext
  rw [toList_pad, toList_pad, hprev, htree]

theorem pad_octets (h : Header) : Buffer.pad h.octets = h.pad := by
  have hfields (bs : List UInt8) (hl : bs.length = 256) :
      (fieldsOf bs hl).pad.toList = xorBytes ((bs.drop 32).take 32) ((bs.drop 64).take 32) := rfl
  apply Octets.ext
  rw [toList_pad, toList_octets, ← hfields h.toBytes h.length_toBytes, fieldsOf_toBytes]

theorem powHash_octets (h : Header) : Buffer.powHash .standard h.octets = h.powHash := by
  rw [powHash, pad_octets, toList_octets]
  rfl

theorem verify_octets (h : Header) (target : Target) :
    Buffer.verify .standard h.octets target = h.verify target := by
  rw [verify, powHash_octets, Header.verify]

end Header.Buffer

namespace Hasher

open Header.Buffer

variable {b c : Buffer} {h : Header} {s : Hasher}

/-! ## one nonce -/

theorem ofBuffer_congr (h : ∀ i < 128, b.toList[i]? = c.toList[i]?) : ofBuffer b = ofBuffer c := by
  have hpre : b.toList.take 128 = c.toList.take 128 :=
    Header.window_eq_iff (i := 0).2 fun i _ hi => h i (by omega)
  rw [ofBuffer, hpre, pad_congr fun i _ hi => h i (by omega), ofBuffer]

theorem ofBuffer_octets (h : Header) : ofBuffer h.octets = ofHeader h := by
  rw [ofBuffer, pad_octets, Header.toList_octets, ofHeader]

theorem hashParts_ofHeader (h : Header) :
    hashParts (ofHeader h).pre (ofHeader h).pad = h.powHash := by
  rw [ofHeader, Header.powHash]

/-- a nonce may be written into a hasher or into the header that it is made of -/
theorem setNonce_ofBuffer (nonce : UInt32) (b : Buffer) :
    (ofBuffer b).setNonce nonce = ofBuffer ((Edit.setNonce nonce).after b) := by
  have hpre : ((Edit.setNonce nonce).after b).toList.take 128 =
      leBytes 4 nonce.toNat ++ (b.toList.take 128).drop 4 := by
    rw [toList_setNonce, take_splice_zero (by simp), length_leBytes]
  have hpad : ((Edit.setNonce nonce).after b).pad = b.pad :=
    pad_congr fun i hi _ => getElem?_setNonce nonce (by omega)
  show (⟨leBytes 4 nonce.toNat ++ (b.toList.take 128).drop 4, b.pad⟩ : Hasher) = _
  rw [← hpre, ← hpad, ofBuffer]

theorem setNonce_ofHeader (nonce : UInt32) (h : Header) :
    (ofHeader h).setNonce nonce = ofHeader { h with nonce } := by
  rw [← ofBuffer_octets, setNonce_ofBuffer, setNonce_octets, ofBuffer_octets]

theorem hash_ofBuffer (f : HashFunctions) (nonce : UInt32) (b : Buffer) :
    (hash f nonce).run (ofBuffer b) =
      (Buffer.powHash f ((Edit.setNonce nonce).after b),
        ofBuffer ((Edit.setNonce nonce).after b)) := by
  rw [← setNonce_ofBuffer]
  show (f.hashParts ((ofBuffer b).setNonce nonce).pre ((ofBuffer b).setNonce nonce).pad,
    (ofBuffer b).setNonce nonce) = _
  rw [setNonce_ofBuffer]
  rfl

theorem hash_standard (nonce : UInt32) : hash .standard nonce = fun s => s.hashNonce nonce := rfl

/-- the extra nonce is not hashed -/
theorem powHash_finalize (f : HashFunctions) (nonce : UInt32) (x : ExtraNonce) (b : Buffer) :
    Buffer.powHash f ((Edit.finalize nonce x).after b) =
      Buffer.powHash f ((Edit.setNonce nonce).after b) := by
  have he : ofBuffer ((Edit.finalize nonce x).after b) = ofBuffer ((Edit.setNonce nonce).after b) :=
    ofBuffer_congr fun i hi => getElem?_finalize nonce x hi
  exact congrArg (fun s : Hasher => f.hashParts s.pre s.pad) he

/-! ## many nonces -/

/-- whether a hasher hashes the nonces of a header: it differs from it in the nonce at most -/
structure Follows (s : Hasher) (h : Header) : Prop where
  drop_pre : s.pre.drop 4 = (h.toBytes.take 128).drop 4
  pad_eq : s.pad = h.pad

theorem follows_ofHeader (h : Header) : (ofHeader h).Follows h := ⟨rfl, rfl⟩

/-- trying a nonce leaves everything but the nonce as it was -/
theorem Follows.next (v : s.Follows h) (nonce : UInt32) : (s.hashNonce nonce).2.Follows h := by
  refine ⟨?_, v.pad_eq⟩
  show (leBytes 4 nonce.toNat ++ s.pre.drop 4).drop 4 = _
  rw [List.drop_left' (length_leBytes ..), v.drop_pre]

/-- a nonce is hashed as if it stood in the header -/
theorem Follows.hash_eq (v : s.Follows h) (nonce : UInt32) :
    (s.hashNonce nonce).1 = ({ h with nonce } : Header).powHash := by
  have hs : s.setNonce nonce = ofHeader { h with nonce } := by
    rw [← setNonce_ofHeader]
    show (⟨leBytes 4 nonce.toNat ++ s.pre.drop 4, s.pad⟩ : Hasher) = _
    rw [v.drop_pre, v.pad_eq]
    rfl
  show hashParts (s.setNonce nonce).pre (s.setNonce nonce).pad = _
  rw [hs, hashParts_ofHeader]

/-- each nonce is hashed as in the header, and none changes what the next ones give -/
theorem hashAll_ofBuffer (f : HashFunctions) (nonces : List UInt32) (b : Buffer) :
    (hashAll f nonces).run (ofBuffer b) =
      (nonces.map fun n => Buffer.powHash f ((Edit.setNonce n).after b),
        ofBuffer (Edit.run (nonces.map .setNonce) b)) := by
  induction nonces generalizing b with
  | nil => rfl
  | cons n nonces ih =>
    have hrun (s : Hasher) : (hashAll f (n :: nonces)).run s =
        (((hash f n).run s).1 :: ((hashAll f nonces).run ((hash f n).run s).2).1,
          ((hashAll f nonces).run ((hash f n).run s).2).2) := by
      rw [hashAll, List.mapM_cons]
      rfl
    rw [hrun, hash_ofBuffer, ih]
    -- the nonces behind are written over this one
    simp only [setNonce_setNonce]
    rfl

/-- One hasher, to which any nonces are handed one after the other, gives for each of them the hash of
the header with the nonce in it, so the nonces that meet a target are those with which the header is
verified, whatever extra nonce it is finalized with.  This holds of the bytes of the header for any
hash functions, and of its fields for those of the network. -/
theorem hashAll_exact (h : Header) (nonces : List UInt32) :
    (∀ f : HashFunctions,
      let digests := ((hashAll f nonces).run (ofBuffer h.octets)).1
      digests = nonces.map (fun n => Buffer.powHash f ((Edit.setNonce n).after h.octets)) ∧
      ∀ (target : Target) (x : ExtraNonce), digests.map target.isMetBy =
        nonces.map fun n => Buffer.verify f ((Edit.finalize n x).after h.octets) target) ∧
    let digests := ((nonces.mapM (m := StateM Hasher) fun n s => s.hashNonce n).run (ofHeader h)).1
    digests = nonces.map (fun n => ({ h with nonce := n } : Header).powHash) ∧
    ∀ (target : Target) (x : ExtraNonce), digests.map target.isMetBy =
      nonces.map fun n => (h.finalize n x).verify target := by
  have hany (f : HashFunctions) : ((hashAll f nonces).run (ofBuffer h.octets)).1 =
      nonces.map fun n => Buffer.powHash f ((Edit.setNonce n).after h.octets) := by
    rw [hashAll_ofBuffer]
  have hmet (f : HashFunctions) (target : Target) (x : ExtraNonce) :
      ((hashAll f nonces).run (ofBuffer h.octets)).1.map target.isMetBy =
        nonces.map fun n => Buffer.verify f ((Edit.finalize n x).after h.octets) target := by
    rw [hany, List.map_map]
    refine List.map_congr_left fun n _ => ?_
    rw [Buffer.verify, powHash_finalize]
    rfl
  have hrun : (nonces.mapM (m := StateM Hasher) fun n s => s.hashNonce n).run (ofHeader h) =
      (hashAll .standard nonces).run (ofBuffer h.octets) := by
    rw [ofBuffer_octets, hashAll, funext hash_standard]
  refine ⟨fun f => ⟨hany f, hmet f⟩, ?_⟩
  rw [hrun]
  refine ⟨?_, fun target x => ?_⟩
  · rw [hany]
    refine List.map_congr_left fun n _ => ?_
    rw [setNonce_octets, powHash_octets]
  · rw [hmet]
    refine List.map_congr_left fun n _ => ?_
    rw [finalize_octets, verify_octets]

end Hasher

end HeaderMiner
