/-!
# Decimal text of doubles

* `Binary`, `Parts.of` : a double taken apart into `± mantissa · 2 ^ exponent`;
* `shortest` : the fewest decimal digits that read back as the same double;
* `plain` : those digits written positionally, without a point for a whole number;
* `literal` : those digits with a point or an exponent, so that the text reads as a fraction;
* `whole` : the nearest whole number, a half going to the even neighbour.
-/

namespace Peripheral.Decimal

/-- The value `± mantissa · 2 ^ exponent`. -/
structure Binary where
  negative : Bool
  mantissa : Nat
  exponent : Int
deriving DecidableEq, Repr

inductive Parts where
  | nan
  | infinite (negative : Bool)
  | finite (value : Binary)
deriving DecidableEq, Repr

/-- Take a double apart by its sign, exponent and fraction fields. -/
def Parts.of (x : Float) : Parts :=
  let bits : Nat := x.toBits.toNat
  let negative := decide (bits / Nat.pow 2 63 = 1)
  let field : Nat := bits / Nat.pow 2 52 % Nat.pow 2 11
  let fraction : Nat := bits % Nat.pow 2 52
  if field = 2047 then
    if fraction = 0 then .infinite negative else .nan
  else if field = 0 then .finite ⟨negative, fraction, -1074⟩
  else .finite ⟨negative, Nat.pow 2 52 + fraction, (field : Int) - 1075⟩

/-! ## Shortest digits -/

/-- Which of two equally near candidates is taken. -/
inductive Tie where
  | toEven
  | up
deriving DecidableEq, Repr

/-- The decimal `digits · 10 ^ scale`. -/
structure Scaled where
  digits : Nat
  scale : Int
deriving DecidableEq, Repr

/-- The reals `low / den … high / den` that round to the value `mid / den`; the ends belong to it
when `closed`. -/
structure Interval where
  low : Nat
  mid : Nat
  high : Nat
  den : Nat
  closed : Bool

/-- The reals nearer to `mantissa · 2 ^ exponent` than to its neighbours. The gap below a power of
two is half as wide as the gap above. -/
def Interval.around (mantissa : Nat) (exponent : Int) : Interval :=
  let up := Nat.pow 2 (exponent - 2).toNat
  let below := if mantissa = Nat.pow 2 52 ∧ exponent ≠ -1074 then 1 else 2
  { low := (4 * mantissa - below) * up
    mid := 4 * mantissa * up
    high := (4 * mantissa + 2) * up
    den := Nat.pow 2 (2 - exponent).toNat
    closed := mantissa % 2 = 0 }

def Interval.holds (i : Interval) (d : Scaled) : Bool :=
  let value := d.digits * Nat.pow 10 d.scale.toNat * i.den
  let unit := Nat.pow 10 (-d.scale).toNat
  if i.closed then i.low * unit ≤ value && value ≤ i.high * unit
  else i.low * unit < value && value < i.high * unit

/-- The least `k` with `num / den < 10 ^ k`, for `num > 0`. -/
def decade (num den : Nat) : Int :=
  if den ≤ num then ((Nat.toDigits 10 (num / den)).length : Int)
  else -(((List.range 400).find? fun j => den ≤ num * Nat.pow 10 (j + 1)).getD 0 : Nat)

/-- On the grid of step `10 ^ scale`, the neighbour of the value that lies in the interval, the
nearer one if both do. -/
def Interval.pick? (i : Interval) (tie : Tie) (scale : Int) : Option Scaled :=
  let step := Nat.pow 10 scale.toNat * i.den
  let value := i.mid * Nat.pow 10 (-scale).toNat
  let lower := value / step
  let below : Scaled := ⟨lower, scale⟩
  let above : Scaled := ⟨lower + 1, scale⟩
  let twice := 2 * (value % step)
  match i.holds below, i.holds above with
  | false, false => none
  | true, false => some below
  | false, true => some above
  | true, true =>
    if twice < step then some below
    else if step < twice then some above
    else match tie with
      | .up => some above
      | .toEven => some (if lower % 2 = 0 then below else above)

/-- Drop trailing zeros from the digits, at most `fuel` of them. -/
def Scaled.strip : Nat → Scaled → Scaled
  | 0, d => d
  | fuel + 1, d =>
    if d.digits ≠ 0 ∧ d.digits % 10 = 0 then strip fuel ⟨d.digits / 10, d.scale + 1⟩ else d

/-- The fewest digits that read back as `mantissa · 2 ^ exponent`; among those the nearest. -/
def shortest (tie : Tie) (mantissa : Nat) (exponent : Int) : Scaled :=
  let i := Interval.around mantissa exponent
  let k := decade i.mid i.den
  let found := (List.range' 1 17).findSome? fun (n : Nat) => i.pick? tie (k - (n : Int))
  (found.getD ⟨i.mid / i.den, 0⟩).strip 20

/-! ## Layout -/

def sign (negative : Bool) : String := if negative then "-" else ""

def zeros (count : Nat) : String := String.ofList (List.replicate count '0')

/-- `digits · 10 ^ scale` written positionally; `pad` follows a whole number. -/
def Scaled.positional (d : Scaled) (pad : String) : String :=
  let ds := Nat.toDigits 10 d.digits
  if 0 ≤ d.scale then String.ofList ds ++ zeros d.scale.toNat ++ pad
  else
    let places := (-d.scale).toNat
    if places < ds.length then
      String.ofList (ds.take (ds.length - places)) ++ "." ++
        String.ofList (ds.drop (ds.length - places))
    else "0." ++ zeros (places - ds.length) ++ String.ofList ds

/-- `digits · 10 ^ scale` with one digit before the point and a signed exponent. -/
def Scaled.scientific (d : Scaled) : String :=
  let ds := Nat.toDigits 10 d.digits
  let e := d.scale + ds.length - 1
  let tail := if ds.length ≤ 1 then "" else "." ++ String.ofList (ds.drop 1)
  String.ofList (ds.take 1) ++ tail ++ "e" ++ (if e < 0 then "-" else "+") ++ toString e.natAbs

/-- Positional shortest text: never an exponent, no point in a whole number, `NaN` and `inf`. -/
def plain (x : Float) : String :=
  match Parts.of x with
  | .nan => "NaN"
  | .infinite negative => sign negative ++ "inf"
  | .finite ⟨negative, m, q⟩ =>
    if m = 0 then sign negative ++ "0"
    else sign negative ++ (shortest .up m q).positional ""

/-- Shortest text that reads as a fraction: a point for values from `10 ^ -5` to below `10 ^ 16`,
an exponent outside. -/
def literal (x : Float) : String :=
  match Parts.of x with
  | .nan => "NaN"
  | .infinite negative => sign negative ++ "inf"
  | .finite ⟨negative, m, q⟩ =>
    if m = 0 then sign negative ++ "0.0"
    else
      let d := shortest .toEven m q
      let e := d.scale + (Nat.toDigits 10 d.digits).length - 1
      sign negative ++ if -5 ≤ e ∧ e ≤ 15 then d.positional ".0" else d.scientific

/-! ## Whole numbers -/

/-- `num / den` to the nearest whole number, a half to the even neighbour. -/
def roundHalfEven (num den : Nat) : Nat :=
  let down := num / den
  let twice := 2 * (num % den)
  if twice < den then down
  else if den < twice then down + 1
  else if down % 2 = 0 then down else down + 1

/-- The nearest whole number as text; the sign of a value that rounds to zero stays. -/
def whole (x : Float) : String :=
  match Parts.of x with
  | .nan => "NaN"
  | .infinite negative => sign negative ++ "inf"
  | .finite ⟨negative, m, q⟩ =>
    sign negative ++ toString (roundHalfEven (m * Nat.pow 2 q.toNat) (Nat.pow 2 (-q).toNat))

end Peripheral.Decimal
