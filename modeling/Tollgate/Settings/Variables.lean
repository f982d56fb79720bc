/-
Settings read from variables. A value is taken without the white space around it, and a variable whose
value is empty counts as not set.
-/
import Tollgate.Net.Url
import Tollgate.Text.Integer
import Tollgate.Text.Quoted

namespace Tollgate

/-- Why settings cannot be used. -/
inductive SettingsFault where
  | missing (key : String)
  | invalidUrl (value : String)
  | invalidValue (key value : String)
deriving DecidableEq, Repr

/-- Results of reading can be compared. -/
instance decidableEqResult {ε α : Type} [DecidableEq ε] [DecidableEq α] : DecidableEq (Except ε α)
  | .error a, .error b => decidable_of_iff (a = b) (by simp)
  | .ok a, .ok b => decidable_of_iff (a = b) (by simp)
  | .error _, .ok _ => isFalse nofun
  | .ok _, .error _ => isFalse nofun

/-- What is said of settings. -/
def SettingsFault.message : SettingsFault → String
  | missing key => "missing required environment variable: " ++ key
  | invalidUrl value => "invalid URL: " ++ value
  | invalidValue key value => "invalid value for " ++ key ++ ": " ++ Text.quoted value

/-- Variables by name. -/
abbrev Variables := String → Option String

namespace Variables

/-- The value of a variable that is set. -/
def value? (vars : Variables) (key : String) : Option String :=
  ((vars key).map Text.trim).filter (!·.isEmpty)

/-- The value of a variable that has to be set. -/
def required (vars : Variables) (key : String) : Except SettingsFault String :=
  match vars.value? key with
  | some value => .ok value
  | none => .error (.missing key)

/-- A URL that has to be set. -/
def url (vars : Variables) (key : String) : Except SettingsFault String := do
  let value ← vars.required key
  if (Url.ofText? value).isNone then throw (.invalidUrl value)
  return value

/-- A value as it is read; what stands for it if it is not set. -/
def read {α : Type} (reader : List Char → Option α) (vars : Variables) (key : String) (default : α) :
    Except SettingsFault α :=
  match vars.value? key with
  | none => .ok default
  | some value =>
    match reader value.toList with
    | some x => .ok x
    | none => .error (.invalidValue key value)

/-- A number below `2 ^ bits`. -/
def natural (bits : Nat) : Variables → String → Nat → Except SettingsFault Nat := read (Text.unsigned? bits)

/-- A number below `2 ^ bits` that is not zero. -/
def positive (bits : Nat) (vars : Variables) (key : String) (default : Nat) : Except SettingsFault Nat := do
  let n ← vars.natural bits key default
  if n = 0 then throw (.invalidValue key "0")
  return n

/-- Yes or no. -/
def flag : Variables → String → Bool → Except SettingsFault Bool :=
  read fun s => if s = "true".toList then some true else if s = "false".toList then some false else none

/-- The entries of a text between commas, without white space around them and without empty ones. -/
def entries (text : String) : List String :=
  (((Text.splitBy (· == ',') text.toList).map Text.trimmed).filter (!·.isEmpty)).map String.ofList

/-- A list of entries. -/
def list (vars : Variables) (key : String) (default : List String) : List String :=
  ((vars.value? key).map entries).getD default

end Variables

end Tollgate
