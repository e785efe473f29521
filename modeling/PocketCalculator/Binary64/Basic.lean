/-!
# Signs and magnitudes of doubles

A double is read through its bits as a sign and a *magnitude*, the natural number below `2 ^ 63`
that its other bits spell. Magnitudes grow with the values they stand for, so comparing two
non-negative doubles is comparing two natural numbers, and the next double is the next number.

## Main definitions

* `Binary64.infinity` — the magnitude above all finite ones; greater ones stand for NaN.
* `Binary64.unpack` — significand and exponent of a finite magnitude.
* `Binary64.negative`, `Binary64.magnitude`, `Binary64.ofMagnitude` — a double taken apart and put
  together.
-/

namespace PocketCalculator.Binary64

-- Powers of natural numbers are the ones of the core library, whatever else is imported.
attribute [local instance (2000)] instPowNat

/-- The magnitude of the two infinities: all exponent bits set and no others. -/
def infinity : Nat := 2047 * 2 ^ (52 : Nat)

/-- Significand `m` and exponent `q` of a finite magnitude, whose value is `m * 2 ^ q`. The lowest
binade holds the subnormal numbers; above it the leading one of the significand is not stored. -/
def unpack (b : Nat) : Nat × Int :=
  if b / 2 ^ (52 : Nat) = 0 then (b, -1074)
  else (2 ^ (52 : Nat) + b % 2 ^ (52 : Nat), ((b / 2 ^ (52 : Nat) : Nat) : Int) - 1075)

/-- Whether the sign bit of a double is set. -/
def negative (v : Float) : Bool :=
  decide (2 ^ (63 : Nat) ≤ v.toBits.toNat)

/-- What the bits of a double below the sign bit spell. -/
def magnitude (v : Float) : Nat :=
  v.toBits.toNat % 2 ^ (63 : Nat)

/-- Whether a double is not a number. -/
def isNaN (v : Float) : Bool :=
  decide (infinity < magnitude v)

/-- The double with the given sign bit and magnitude. -/
def ofMagnitude (negative : Bool) (b : Nat) : Float :=
  Float.ofBits (UInt64.ofNat ((if negative then 2 ^ (63 : Nat) else 0) + b))

/-- The quiet NaN that stands for all of them. A `Float` holds a single NaN, so that sign and
payload of a NaN are not represented, and what is said of every bit of a double is meant up to
NaN. -/
def nan : Float :=
  ofMagnitude false (infinity + 2 ^ (51 : Nat))

/-! ## Bounds -/

/-- Sign and magnitude are all that the bits of a double hold. -/
theorem toNat_toBits (v : Float) :
    v.toBits.toNat = (if negative v then 2 ^ (63 : Nat) else 0) + magnitude v := by
  have h : v.toBits.toNat < 2 ^ (64 : Nat) := v.toBits.toNat_lt
  simp only [negative, magnitude, decide_eq_true_eq]
  split <;> omega

/-- A significand has at most 53 bits. -/
theorem unpack_fst_lt (b : Nat) : (unpack b).1 < 2 ^ (53 : Nat) := by
  simp only [unpack]
  split
  · simp only [Nat.div_eq_zero_iff] at *
    omega
  · have : b % 2 ^ (52 : Nat) < 2 ^ (52 : Nat) := Nat.mod_lt _ (by decide)
    simp only
    omega

end PocketCalculator.Binary64
