/-
Octet strings as numbers, in either order of the octets.
-/
import Tollgate.Bytes.Utf8

-- powers are those of natural numbers and integers, beside other libraries too
attribute [default_instance 20000, instance (2000)] instPowNat

namespace Tollgate.Bytes

/-- The number whose digits in base 256 are the octets, the most significant first. -/
def toNat (b : Bytes) : Nat := b.foldl (fun n x => 256 * n + x.toNat) 0

/-- The last `count` digits in base 256, the most significant first. -/
def ofNat (count n : Nat) : Bytes := (List.range count).reverse.map fun i => UInt8.ofNat (n >>> (8 * i))

/-- The number whose least significant octet stands first. -/
def toNatReversed (b : Bytes) : Nat := toNat b.reverse

/-- The last `count` digits in base 256, the least significant first. -/
def ofNatReversed (count n : Nat) : Bytes := (ofNat count n).reverse

end Tollgate.Bytes
