/-
Shared secrets: comparing two of them, and showing a signature without giving it away.
-/
import Tollgate.Crypto.Sha2

namespace Tollgate.Secret

/-- Whether two secrets have the same hash. Hashing first makes the time taken independent of where
they differ and of their lengths. -/
def same (a b : Bytes) : Bool := Sha256.digest a == Sha256.digest b

/-- The first and last eight characters of a signature; nothing of one that is too short for that to
hide anything, or that is not ASCII. -/
def masked (signature : String) : String :=
  let s := signature.toList
  if s.all (fun c => c.toNat < 128) && 16 < s.length then
    String.ofList (s.take 8 ++ "...".toList ++ s.drop (s.length - 8))
  else "***"

end Tollgate.Secret
