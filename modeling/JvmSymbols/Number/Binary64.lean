/-! Binary floating point numbers of sixty-four bits: the number nearest to a decimal, and the
shortest decimal that is nearest to a number. All arithmetic is exact. -/
namespace JvmSymbols

/-- A finite number is `mantissa * 2 ^ exponent` with the sign given apart, since zero has two. -/
inductive Binary64
  | finite (negative : Bool) (mantissa : Nat) (exponent : Int)
  | infinite (negative : Bool)
  | nan
  deriving DecidableEq, Repr

namespace Binary64

def mantissaBits : Nat := 53

def mantissaLimit : Nat := Nat.pow 2 mantissaBits

def minExponent : Int := -1074

def maxExponent : Int := 971

def digitCount (base n : Nat) : Nat := (Nat.toDigits base n).length

/-- `num / den`, rounded to the nearest whole number, of two the even one. -/
def roundDiv (num den : Nat) : Nat :=
  let q := num / den
  let r := 2 * (num % den)
  if den < r ∨ (r = den ∧ q % 2 = 1) then q + 1 else q

def scale (base num den : Nat) (e : Int) : Nat × Nat :=
  if 0 ≤ e then (num * Nat.pow base e.toNat, den) else (num, den * Nat.pow base (-e).toNat)

def ofRatio (negative : Bool) (num den : Nat) : Binary64 :=
  if num = 0 then finite negative 0 0
  else
    let guess := (Nat.log2 num : Int) - (Nat.log2 den : Int) - mantissaBits
    let fits (e : Int) : Bool :=
      let (n, d) := scale 2 num den (-e)
      n / d < mantissaLimit
    let e := ([guess, guess + 1, guess + 2].find? fits).getD (guess + 2)
    let e := max e minExponent
    let (n, d) := scale 2 num den (-e)
    let m := roundDiv n d
    let (m, e) := if m = mantissaLimit then (mantissaLimit / 2, e + 1) else (m, e)
    if maxExponent < e then infinite negative else finite negative m e

/-- The number nearest to `digits * 10 ^ e`. Decimals far beyond the range are settled by their
number of digits. -/
def ofDecimal (negative : Bool) (digits : Nat) (e : Int) : Binary64 :=
  let magnitude := (digitCount 10 digits : Int) + e
  if digits = 0 ∨ magnitude < -400 then finite negative 0 0
  else if 400 < magnitude then infinite negative
  else
    let (num, den) := scale 10 digits 1 e
    ofRatio negative num den

/-- Twice the distances from a number to the ends of the interval of reals that round to it, in units
of `2 ^ (exponent - 1)`. Below a power of two the numbers lie twice as close. -/
def slack (mantissa : Nat) (exponent : Int) : Nat × Nat :=
  if mantissa = mantissaLimit / 2 ∧ minExponent < exponent then (1, 2) else (2, 2)

def readsBack (mantissa : Nat) (exponent : Int) (c : Nat) (p : Int) : Bool :=
  let (below, above) := slack mantissa exponent
  let (unit, one) := scale 2 1 1 (exponent - 2)
  let low := (4 * mantissa - below) * unit
  let high := (4 * mantissa + above) * unit
  let (num, den) := scale 10 c 1 p
  if mantissa % 2 = 0 then low * den ≤ num * one && num * one ≤ high * den
  else low * den < num * one && num * one < high * den

/-- Of the two multiples of `10 ^ p` around a number those that read back, the nearer first, and the
upper one where both are equally near. -/
def candidates (mantissa : Nat) (exponent : Int) (p : Int) : List Nat :=
  let (num, den) := scale 2 mantissa 1 exponent
  let (num, den) := scale 10 num den (-p)
  let c := num / den
  let pair := if 2 * (num % den) < den then [c, c + 1] else [c + 1, c]
  pair.filter (fun c => readsBack mantissa exponent c p)

/-- The decimal `c * 10 ^ p` with the fewest digits that reads back. -/
def shortest (mantissa : Nat) (exponent : Int) : Nat × Int :=
  let (num, den) := scale 2 mantissa 1 exponent
  let top : Int := if den ≤ num then digitCount 10 (num / den)
    else 1 - digitCount 10 (den / num)
  let places := (List.range 19).map (fun (k : Nat) => top - k)
  (places.findSome? (fun p => (candidates mantissa exponent p).head?.map (fun c => (c, p)))).getD
    (0, 0)

def positional (c : Nat) (p : Int) : String :=
  if 0 ≤ p then (c * Nat.pow 10 p.toNat).repr ++ ".0"
  else
    let k := (-p).toNat
    let digits := Nat.toDigits 10 c
    let padded := List.replicate (k + 1 - digits.length) '0' ++ digits
    let whole := padded.take (padded.length - k)
    let fraction := ((padded.drop (padded.length - k)).reverse.dropWhile (· = '0')).reverse
    String.ofList (whole ++ '.' :: (if fraction = [] then ['0'] else fraction))

def text : Binary64 → String
  | finite negative m e =>
    let (c, p) := if m = 0 then (0, 0) else shortest m e
    (if negative then "-" else "") ++ positional c p
  | infinite negative => if negative then "-inf" else "inf"
  | nan => "NaN"

end Binary64
end JvmSymbols
