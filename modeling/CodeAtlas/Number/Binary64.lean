/-!
# Binary floating-point numbers

`Binary64` holds the values of the 64-bit binary format as exact data: `mantissa · 2 ^ exponent` with
53 bits at most. `ofDecimal` rounds a decimal to the nearest of them, a tie to the even mantissa, and
`shortest` finds the decimal with the fewest digits that rounds back. Main statement:
`shortest_reads_back`, what `shortest` finds does round back.
-/

namespace CodeAtlas

/-- A value of the 64-bit binary format. -/
inductive Binary64 where
  | notANumber
  | infinite (negative : Bool)
  /-- The value `mantissa · 2 ^ exponent`, with its sign. -/
  | finite (negative : Bool) (mantissa : Nat) (exponent : Int)
  deriving DecidableEq, Inhabited

namespace Binary64

/-- The least exponent. -/
def leastExponent : Int := -1074

/-- The greatest exponent. -/
def greatestExponent : Int := 971

/-- What every mantissa is below: two to the power 53. -/
def mantissaLimit : Nat := 0x20000000000000

/-- A quotient scaled by a power of two, as numerator and denominator. -/
def scaled (num den : Nat) (e : Int) : Nat × Nat :=
  if 0 ≤ e then (num, den * Nat.pow 2 e.toNat) else (num * Nat.pow 2 (-e).toNat, den)

/-- The nearest whole number to a quotient; a tie goes to the even one. -/
def roundDiv (num den : Nat) : Nat :=
  let q := num / den
  let r := num % den
  if 2 * r < den then q else if den < 2 * r then q + 1 else q + q % 2

/-- The nearest value to a positive quotient. -/
def ofRatio (negative : Bool) (num den : Nat) : Binary64 :=
  let guess : Int := max leastExponent ((num.log2 : Int) - den.log2 - 53)
  let (n, d) := scaled num den guess
  let e := if mantissaLimit ≤ n / d then guess + 1 else guess
  let (n, d) := scaled num den e
  let m := roundDiv n d
  let (m, e) := if mantissaLimit ≤ m then (m / 2, e + 1) else (m, e)
  if greatestExponent < e then infinite negative else finite negative m e

/-- The nearest value to `digits · 10 ^ exponent`. Decimals far outside the range are settled by
their number of digits. -/
def ofDecimal (negative : Bool) (digits : Nat) (exponent : Int) : Binary64 :=
  if digits = 0 then finite negative 0 leastExponent
  else
    let size : Int := (Nat.repr digits).length + exponent
    if 310 < size then infinite negative
    else if size < -330 then finite negative 0 leastExponent
    else if 0 ≤ exponent then ofRatio negative (digits * Nat.pow 10 exponent.toNat) 1
    else ofRatio negative digits (Nat.pow 10 (-exponent).toNat)

/-- The value of an integer. -/
def ofInt (n : Int) : Binary64 := ofDecimal (n < 0) n.natAbs 0

/-- A decimal `digits · 10 ^ exponent`. -/
structure Decimal where
  digits : Nat
  exponent : Int
  deriving DecidableEq

/-- The power of ten `10 ^ e` with `10 ^ e ≤ num / den < 10 ^ (e + 1)`. -/
def decimalMagnitude (num den : Nat) : Int :=
  if den ≤ num then (Nat.repr (num / den)).length - 1
  else -((Nat.repr ((den + num - 1) / num - 1)).length : Int)

/-- The decimals with `count` digits next to a positive quotient, the nearer one first. -/
def neighbours (num den count : Nat) : List Decimal :=
  let k : Int := decimalMagnitude num den - count + 1
  let (n, d) :=
    if 0 ≤ k then (num, den * Nat.pow 10 k.toNat) else (num * Nat.pow 10 (-k).toNat, den)
  let q := n / d
  let below : Decimal := ⟨q, k⟩
  let above : Decimal := ⟨q + 1, k⟩
  if roundDiv n d = q then [below, above] else [above, below]

/-- The decimal with the fewest digits, and of those the nearest, that rounds to
`mantissa · 2 ^ exponent`. -/
def shortest (mantissa : Nat) (exponent : Int) : Option Decimal :=
  let (num, den) :=
    if 0 ≤ exponent then (mantissa * Nat.pow 2 exponent.toNat, 1)
    else (mantissa, Nat.pow 2 (-exponent).toNat)
  ((List.range 17).flatMap fun count ↦ neighbours num den (count + 1)).find? fun d ↦
    ofDecimal false d.digits d.exponent = finite false mantissa exponent

/-- A decimal that is found rounds back to the value. -/
theorem shortest_reads_back {m : Nat} {e : Int} {d : Decimal} (h : shortest m e = some d) :
    ofDecimal false d.digits d.exponent = finite false m e := by
  simpa using List.find?_some h

/-- How values are written: for which powers of ten without an exponent, and with how many digits of
the exponent at least. -/
structure Style where
  leastPositional : Int
  greatestPositional : Int
  exponentDigits : Nat
  notANumber : String
  infinity : String
  /-- What stands in front of an infinity below zero. -/
  minus : String

/-- Drops the zeros at the end of a decimal. -/
def Decimal.trimmed (d : Decimal) : Decimal :=
  let zeros := ((Nat.repr d.digits).toList.reverse.takeWhile (· == '0')).length
  if d.digits = 0 then ⟨0, 0⟩ else ⟨d.digits / Nat.pow 10 zeros, d.exponent + zeros⟩

namespace Style

/-- Writes a decimal above zero. -/
def writeDecimal (s : Style) (d : Decimal) : String :=
  let d := d.trimmed
  let ds := (Nat.repr d.digits).toList
  let power : Int := d.exponent + ds.length - 1
  if s.leastPositional ≤ power ∧ power ≤ s.greatestPositional then
    if 0 ≤ d.exponent then
      String.ofList (ds ++ List.replicate d.exponent.toNat '0' ++ ['.', '0'])
    else if 0 ≤ power then
      let whole := (power + 1).toNat
      String.ofList (ds.take whole ++ ['.'] ++ ds.drop whole)
    else String.ofList (['0', '.'] ++ List.replicate (-power - 1).toNat '0' ++ ds)
  else
    let e := (Nat.repr power.natAbs).toList
    let fraction := if ds.length ≤ 1 then [] else '.' :: ds.drop 1
    String.ofList (ds.take 1 ++ fraction ++ ['e', if power < 0 then '-' else '+'] ++
      List.replicate (s.exponentDigits - e.length) '0' ++ e)

/-- Writes a value with the fewest digits. -/
def write (s : Style) : Binary64 → String
  | .notANumber => s.notANumber
  | .infinite negative => (if negative then s.minus else "") ++ s.infinity
  | .finite negative m e =>
    (if negative then "-" else "") ++
      match (if m = 0 then none else shortest m e) with
      | none => "0.0"
      | some d => s.writeDecimal d

end Style

end Binary64

end CodeAtlas
