/-!
# Tick counts

Ticks are 32-bit words. Differences and sums wrap around; the sums that accumulate over a queue
stop at the ends of the range.

* `Ticks.addSat` : the sum, held inside the range;
* `Ticks.toFloat` : a tick count as a double, exactly;
* `Ticks.ofFloat` : a double cut to its whole part and held inside the range.
-/

namespace Peripheral.Ticks

def top : Int32 := Int32.maxValue

/-- A whole number held inside the range of tick counts. -/
def clamp (i : Int) : Int32 :=
  Int32.ofInt (max Int32.minValue.toInt (min Int32.maxValue.toInt i))

/-- The sum of two tick counts, held inside the range. -/
def addSat (a b : Int32) : Int32 := clamp (a.toInt + b.toInt)

def toFloat (t : Int32) : Float := Float.ofInt t.toInt

/-- The whole part of a double, held inside the range; 0 for a NaN. -/
def ofFloat (x : Float) : Int32 :=
  if x < 0 then clamp (-((-x).toUInt64.toNat : Int)) else clamp (x.toUInt64.toNat : Int)

/-- The larger of a double and zero; zero for a NaN. -/
def nonnegative (x : Float) : Float := if x > 0 then x else 0

end Peripheral.Ticks
