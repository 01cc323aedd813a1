/-!
# Binary floating point numbers of 64 bits

Every finite number of the format is a whole number of quanta of 2⁻¹⁰⁷⁴ with a sign, and its
quanta have at most 53 significant bits. So the numbers are stored as what they are worth, and
each operation is one exact quotient of natural numbers, rounded once.

* `roundSignificant num den`: the whole number with at most 53 significant bits that is nearest
  to `num / den`, a half going to the even neighbour.
* `Binary64.ofRatio`: the number nearest to a quotient, infinite when it is too large.
* `Binary64.ofBits`, `Binary64.toBits`: the interchange format.
-/

namespace FilterSelect

/-! ## Rounding -/

/-- The natural number nearest to `num / den`; a half goes to the even neighbour. -/
def roundHalfEven (num den : Nat) : Nat :=
  let quotient := num / den
  let rest := num % den
  if 2 * rest < den then quotient
  else if den < 2 * rest then quotient + 1
  else quotient + quotient % 2

/-- How many of the lowest bits of a number have to go for 53 to remain. -/
def surplusBits (n : Nat) : Nat := n.log2 - 52

/-- The quotient `num / den` rounded to 53 significant bits, and to a whole number at least. -/
def roundSignificant (num den : Nat) : Nat :=
  let shift := surplusBits (num / den)
  roundHalfEven num (den * Nat.pow 2 shift) * Nat.pow 2 shift

/-! ## The format -/

/-- The bits of one quantum: it is worth 2⁻¹⁰⁷⁴. -/
def quantumBits : Nat := 1074

/-- The quanta that the number one is worth. -/
def quantaOfOne : Nat := Nat.pow 2 quantumBits

/-- What the finite numbers stay below, in quanta: 2¹⁰²⁴. -/
def quantaLimit : Nat := Nat.pow 2 (1024 + quantumBits)

/-- Whether some finite number is worth `n` quanta. -/
def Representable (n : Nat) : Prop := n % Nat.pow 2 (surplusBits n) = 0 ∧ n < quantaLimit

instance (n : Nat) : Decidable (Representable n) := inferInstanceAs (Decidable (_ ∧ _))

/-- A number of the format; all NaNs count as one. -/
inductive Binary64
  | nan
  | infinite (negative : Bool)
  | finite (negative : Bool) (quanta : Nat) (representable : Representable quanta)
  deriving DecidableEq

namespace Binary64

/-- The number worth so many quanta, infinite when the format has none. -/
def ofQuanta (negative : Bool) (quanta : Nat) : Binary64 :=
  if h : Representable quanta then .finite negative quanta h else .infinite negative

/-- The number nearest to `num / den`, for a positive `den`. -/
def ofRatio (negative : Bool) (num den : Nat) : Binary64 :=
  ofQuanta negative (roundSignificant (num * quantaOfOne) den)

/-- The number nearest to a natural number. -/
def ofNat (n : Nat) : Binary64 := ofRatio false n 1

/-- The zero of a sign. -/
def zero (negative : Bool) : Binary64 := ofQuanta negative 0

/-- Whether the number is neither infinite nor NaN. -/
def isFinite : Binary64 → Bool
  | .finite .. => true
  | _ => false

/-- The number with its sign changed. -/
def neg : Binary64 → Binary64
  | .nan => .nan
  | .infinite s => .infinite (!s)
  | .finite s n h => .finite (!s) n h

/-! ## The interchange format

From the highest bit: one bit of sign, eleven of exponent, 52 of fraction. The exponent field 0
holds the numbers below 2⁵² quanta; a field e between 1 and 2046 scales the fraction, with a
leading bit set before it, by 2ᵉ⁻¹; the field 2047 is left for the infinities and NaN. -/

/-- The bit before the fraction, which is set in all but the smallest numbers. -/
def leadingBit : Nat := Nat.pow 2 52

/-- The bit that is set in negative numbers. -/
def signBit : Nat := Nat.pow 2 63

/-- The number with these 64 bits. -/
def ofBits (bits : UInt64) : Binary64 :=
  let word := bits.toNat
  let negative := decide (signBit ≤ word)
  let field := word / leadingBit % 2048
  let fraction := word % leadingBit
  if field = 2047 then if fraction = 0 then .infinite negative else .nan
  else if field = 0 then ofQuanta negative fraction
  else ofQuanta negative ((leadingBit + fraction) * Nat.pow 2 (field - 1))

/-- The 64 bits of a number; NaN is quiet and positive. -/
def toBits : Binary64 → UInt64
  | .nan => 0x7ff8000000000000
  | .infinite negative => signed negative 0x7ff0000000000000
  | .finite negative quanta _ =>
    let shift := surplusBits quanta
    signed negative (shift * leadingBit + quanta / Nat.pow 2 shift)
where
  signed (negative : Bool) (word : Nat) : UInt64 :=
    UInt64.ofNat (if negative then signBit + word else word)

end Binary64

end FilterSelect
