/-!
# PlanningAgents.Decimal.Binary

What the bits of a machine number say: a sign, and either a whole number times a power of two,
infinity, or no number at all.
-/

namespace PlanningAgents.Decimal

/-- The two widths of binary fields that make up an interchange format. -/
structure BinaryFormat where
  fractionBits : Nat
  exponentBits : Nat

/-- Single precision. -/
def binary32 : BinaryFormat := ⟨23, 8⟩

/-- Double precision. -/
def binary64 : BinaryFormat := ⟨52, 11⟩

/-- A number read from its bits. -/
inductive Binary where
  | nan
  | infinite (negative : Bool)
  /-- The number `mantissa * 2 ^ exponent`.  When `atBoundary` holds, the next number below lies
  at half the distance of the next number above. -/
  | finite (negative : Bool) (mantissa : Nat) (exponent : Int) (atBoundary : Bool)
  deriving Repr, DecidableEq

/-- Reads the bits of a number. -/
def BinaryFormat.read (f : BinaryFormat) (bits : Nat) : Binary :=
  let leading := 1 <<< f.fractionBits
  let fraction := bits % leading
  let biased := (bits >>> f.fractionBits) % (1 <<< f.exponentBits)
  let negative := (bits >>> (f.fractionBits + f.exponentBits)) % 2 = 1
  let lowest : Int := 2 - (1 <<< (f.exponentBits - 1) : Nat) - f.fractionBits
  if biased + 1 = 1 <<< f.exponentBits then
    if fraction = 0 then .infinite negative else .nan
  else if biased = 0 then .finite negative fraction lowest false
  else .finite negative (leading + fraction) (lowest + (biased - 1))
    (fraction = 0 && 1 < biased)

/-- Reads a single-precision number. -/
def ofFloat32 (x : Float32) : Binary := binary32.read x.toBits.toNat

/-- Reads a double-precision number. -/
def ofFloat (x : Float) : Binary := binary64.read x.toBits.toNat

end PlanningAgents.Decimal
