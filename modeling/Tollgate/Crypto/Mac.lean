/-
Message tags: HMAC over SHA-256, written as 64 lower-case hex digits, and the receiver's check.
-/
import Tollgate.Bytes.Hex
import Tollgate.Crypto.Sha2
import Tollgate.Text.Blank

namespace Tollgate.Mac

/-- A key longer than a block is hashed first; every key is then filled up with zeros. -/
def blockKey (key : Bytes) : Bytes :=
  let k := if key.length ≤ 64 then key else Sha256.digest key
  k ++ List.replicate (64 - k.length) 0

/-- The tag of a message under a key: 32 octets. -/
def tag (key message : Bytes) : Bytes :=
  let k := blockKey key
  Sha256.digest (k.map (· ^^^ 0x5c) ++ Sha256.digest (k.map (· ^^^ 0x36) ++ message))

@[simp] theorem length_tag (key message : Bytes) : (tag key message).length = 32 := by
  simp [tag]

/-- The written form of a tag. -/
def signature (key message : Bytes) : String := String.ofList (Hex.encode (tag key message))

/-- Whether a text, without the blanks around it, spells the tag in either case of its digits. A text
that is no string of digit pairs stands for 32 zero octets. -/
def accepts (key message : Bytes) (signature : String) : Bool :=
  (Hex.decode? (Text.trimmed signature.toList)).getD (List.replicate 32 0) == tag key message

end Tollgate.Mac
