import PocketCalculator.Decimal.Digits

/-!
# The shortest decimal that reads back

Many decimal numbers have the same nearest double. To write a double, the one with the fewest digits
is wanted, and among those the one nearest to the double's value. It is found by laying ever finer
decimal grids over the value: on each grid the two neighbours of the value are tried, and the first
grid on which one of them reads back as the double decides.

## Main definitions

* `Decimal.leading` — the decimal order of magnitude of a fraction.
* `Decimal.onGrid?` — the better neighbour on one grid, if any reads back.
* `Decimal.shortest` — the shortest decimal that reads back as a finite magnitude.
-/

namespace PocketCalculator.Decimal

-- Powers of natural numbers are the ones of the core library, whatever else is imported.
attribute [local instance (2000)] instPowNat

/-- The least `k` with `num / den < 10 ^ k`, for positive `num` and `den`. Below one, `10 ^ j`
times the fraction reaches one exactly from `j = digitCount ((den - 1) / num)` on. -/
def leading (num den : Nat) : Int :=
  if den ≤ num then digitCount (num / den) else 1 - (digitCount ((den - 1) / num) : Int)

/-- The value of a finite magnitude as a multiple of `10 ^ g`: a fraction of natural numbers. -/
def gridFraction (b : Nat) (g : Int) : Nat × Nat :=
  let (m, q) := Binary64.unpack b
  (m * 2 ^ q.toNat * 10 ^ (-g).toNat, 2 ^ (-q).toNat * 10 ^ g.toNat)

/-- Of the two multiples of `10 ^ g` next to a finite magnitude, the one that reads back as it. If
both do, the nearer one is taken, and the upper one if they are equally near. -/
def onGrid? (b : Nat) (g : Int) : Option Decimal :=
  let (num, den) := gridFraction b g
  let lower : Decimal := ⟨num / den, g⟩
  let upper : Decimal := ⟨num / den + 1, g⟩
  if lower.magnitude = b then
    if upper.magnitude = b ∧ den ≤ 2 * (num % den) then some upper else some lower
  else if upper.magnitude = b then some upper
  else none

/-- A hit on a grid reads back. -/
theorem magnitude_of_onGrid? {b : Nat} {g : Int} {d : Decimal} (h : onGrid? b g = some d) :
    d.magnitude = b := by
  simp only [onGrid?] at h
  split at h
  · split at h <;> simp_all
  · split at h <;> simp_all

/-- The first hit on `n` grids from `10 ^ g` downward. The magnitude has to lie on the grid after
them, which is the last resort. -/
def search (b : Nat) : Nat → Int → Decimal
  | 0, g => ⟨(gridFraction b g).1 / (gridFraction b g).2, g⟩
  | n + 1, g => (onGrid? b g).getD (search b n (g - 1))

/-- The shortest decimal that reads back as a finite magnitude `m * 2 ^ q`. The grids run from the
one that gives a single digit to the one on which the value itself lies, which is that of the units
for a whole number and of `10 ^ q` for any other. -/
def shortest (b : Nat) : Decimal :=
  let (num, den) := gridFraction b 0
  let first := leading num den - 1
  let last := min (Binary64.unpack b).2 0
  search b (first - last).toNat first

end PocketCalculator.Decimal
