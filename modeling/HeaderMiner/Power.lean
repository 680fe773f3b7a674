/-!
# Powers

A power of natural numbers means the same in every module, whatever else the module imports.
-/

namespace HeaderMiner

/-- the powers of natural numbers -/
@[default_instance 10000]
instance (priority := high) natPower : Pow Nat Nat := instPowNat

end HeaderMiner
