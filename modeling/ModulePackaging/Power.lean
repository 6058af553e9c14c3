/-!
# Powers

Powers of natural numbers and of integers are those of the core library, whatever other algebra is in
sight.
-/

namespace ModulePackaging

@[default_instance high]
instance natPower : Pow Nat Nat := instPowNat

instance intPower : Pow Int Nat := instPowNat

end ModulePackaging
