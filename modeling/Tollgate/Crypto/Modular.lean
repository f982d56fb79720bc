/-
Arithmetic of remainders: powers by repeated squaring, and inverses and differences that stay natural
numbers.
-/
namespace Tollgate.Modular

/-- `base ^ exp` modulo `m`, times `acc`: one squaring for every bit of the exponent. -/
def powTimes (m : Nat) (acc base exp : Nat) : Nat :=
  if h : exp = 0 then acc % m
  else powTimes m (if exp % 2 = 1 then acc * base % m else acc) (base * base % m) (exp / 2)
termination_by exp
decreasing_by omega

/-- `base ^ exp` modulo `m`. -/
def pow (m base exp : Nat) : Nat := powTimes m 1 (base % m) exp

/-- The inverse modulo a prime. -/
def inverse (p a : Nat) : Nat := pow p a (p - 2)

/-- The difference modulo `m`. -/
def sub (m a b : Nat) : Nat := (a + (m - b % m)) % m

/-- The bits of a number, the most significant first. -/
def bits (n : Nat) : List Bool :=
  if n = 0 then [] else (List.range (n.log2 + 1)).reverse.map n.testBit

/-- The multiple of an element by a number, given how two elements are added: each bit doubles, and
adds the element where it is set. -/
def multiple {α : Type} (add : α → α → α) (zero x : α) (n : Nat) : α :=
  (bits n).foldl (fun acc b => let twice := add acc acc; if b then add twice x else twice) zero

end Tollgate.Modular
