import HeaderMiner.Work
import HeaderMiner.Proofs.Header.Reading
/-!
# Work as a node would describe it

Every piece of work has an answer that says it (`WorkAnswer.ofWork`), and a miner that expects the
network of that answer makes of it the work that it says.
-/

namespace HeaderMiner

theorem Target.ofBytes_toList (t : Target) : Target.ofBytes t.octets.toList = .ok t := by
  have ho : Octets.ofList? 32 t.octets.toList = some t.octets := dif_pos t.octets.length_toList
  rw [ofBytes, ho]

theorem Target.ofHex_toHex (t : Target) : Target.ofHex t.toHex = .ok t := by
  rw [ofHex, toHex, Hex.decodeSized_of_decode _ t.octets.length_toList (Hex.decode_encode _)]
  exact (pure_bind t.octets.toList ofBytes).trans t.ofBytes_toList

namespace WorkAnswer

/-- the answer by which a node of a network describes work -/
def ofWork (network : Network) (w : Work) : WorkAnswer where
  network := network.name
  data := w.header.toHex
  target := w.target.toHex
  height := .natural w.height.toNat
  time := .natural w.time.toNat

theorem word?_natural (v : UInt32) : word? (.natural v.toNat) = some v := by
  have hv : v.toNat < 2 ^ 32 := v.toNat_lt
  show (if v.toNat < 2 ^ 32 then some (UInt32.ofNat v.toNat) else none) = some v
  rw [if_pos hv, UInt32.ofNat_toNat]

theorem validate_ofWork (network : Network) (w : Work) :
    (ofWork network w).validate network = .ok w := by
  simp only [validate, ofWork, ne_eq, not_true_eq_false, if_false, Header.ofHex_toHex,
    Target.ofHex_toHex, word?_natural]
  rfl

end WorkAnswer

end HeaderMiner
