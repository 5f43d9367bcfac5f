import Maximal.Lib.Js.Text
import Mathlib.Data.Int.Basic
import Mathlib.Data.Nat.Digits.Defs

/-!
# Numbers of a JavaScript program

A finite number is a decimal `mantissa * 10 ^ exponent`. Equality of numbers as keys is equality
of their texts, which identifies the two zeros and different decimals of one value. Sums and
differences are exact: the rounding of doubles is not modelled, and the programs verified over
this library add and subtract counts only.

## Main definitions

- `Js.Number.text` — `Number::toString` in radix ten
- `Js.Number.add`, `Js.Number.sub`, `Js.Number.isPositive`, `Js.Number.truthy`
- `Js.Number.ofText` — `StringToNumber`
-/

namespace Js

inductive Number where
  | finite (mantissa exponent : ℤ)
  | infinity (negative : Bool)
  | nan
  deriving DecidableEq, Repr

namespace Number

def ofNat (n : ℕ) : Number := .finite n 0

def ofInt (n : ℤ) : Number := .finite n 0

def truthy : Number → Bool
  | .finite m _ => m ≠ 0
  | .infinity _ => true
  | .nan => false

def isPositive : Number → Bool
  | .finite m _ => 0 < m
  | .infinity negative => !negative
  | .nan => false

def sub : Number → Number → Number
  | .finite a e, .finite b f =>
    let g := min e f
    .finite (a * 10 ^ (e - g).toNat - b * 10 ^ (f - g).toNat) g
  | .nan, _ => .nan
  | _, .nan => .nan
  | .infinity a, .infinity b => if a = b then .nan else .infinity a
  | .infinity a, .finite _ _ => .infinity a
  | .finite _ _, .infinity b => .infinity (!b)

def add : Number → Number → Number
  | .finite a e, .finite b f =>
    let g := min e f
    .finite (a * 10 ^ (e - g).toNat + b * 10 ^ (f - g).toNat) g
  | .nan, _ => .nan
  | _, .nan => .nan
  | .infinity a, .infinity b => if a = b then .infinity a else .nan
  | .infinity a, .finite _ _ => .infinity a
  | .finite _ _, .infinity b => .infinity b

/-- `m` without its trailing zeros, and how many there were; the fuel bounds the digits. -/
def stripZeros : ℕ → ℕ → ℕ × ℕ
  | 0, m => (m, 0)
  | fuel + 1, m =>
    if m ≠ 0 ∧ m % 10 = 0 then
      let (d, z) := stripZeros fuel (m / 10)
      (d, z + 1)
    else (m, 0)

def zeros (n : ℕ) : List Char := List.replicate n '0'

/-- The text of the digits `ds` with the decimal point after position `n`, in the four forms of
`Number::toString`. -/
def place (ds : List Char) (n : ℤ) : List Char :=
  if ds.length ≤ n ∧ n ≤ 21 then ds ++ zeros (n - ds.length).toNat
  else if 0 < n ∧ n ≤ 21 then ds.take n.toNat ++ '.' :: ds.drop n.toNat
  else if -6 < n ∧ n ≤ 0 then '0' :: '.' :: (zeros (-n).toNat ++ ds)
  else
    let significand := if ds.length = 1 then ds else ds.take 1 ++ '.' :: ds.drop 1
    significand ++ 'e' :: (if n - 1 < 0 then '-' else '+') :: (n - 1).natAbs.repr.toList

def text : Number → String
  | .nan => "NaN"
  | .infinity negative => if negative then "-Infinity" else "Infinity"
  | .finite m e =>
    let (d, z) := stripZeros m.natAbs.repr.length m.natAbs
    if d = 0 then "0"
    else
      let ds := d.repr.toList
      String.ofList ((if m < 0 then ['-'] else []) ++ place ds (ds.length + e + z))

/-! ## Reading a number from a text -/

/-- The value of a digit in a radix up to sixteen. -/
def digitValue (radix : ℕ) (c : Char) : Option ℕ :=
  let v :=
    if '0' ≤ c ∧ c ≤ '9' then c.toNat - '0'.toNat
    else if 'a' ≤ c ∧ c ≤ 'f' then c.toNat - 'a'.toNat + 10
    else if 'A' ≤ c ∧ c ≤ 'F' then c.toNat - 'A'.toNat + 10
    else radix
  if v < radix then some v else none

def naturalOf (radix : ℕ) (cs : List Char) : Option ℕ :=
  if cs = [] then none
  else cs.foldlM (fun n c => (digitValue radix c).map (radix * n + ·)) 0

def exponentOf : List Char → Option ℤ
  | [] => some 0
  | c :: rest =>
    if c = 'e' ∨ c = 'E' then
      match rest with
      | '-' :: ds => (naturalOf 10 ds).map fun n => -n
      | '+' :: ds => (naturalOf 10 ds).map fun n => n
      | ds => (naturalOf 10 ds).map fun n => n
    else none

/-- An unsigned decimal literal: digits, a fraction and an exponent, each optional. -/
def decimalOf (cs : List Char) : Option (ℕ × ℤ) :=
  let whole := cs.takeWhile Char.isDigit
  let rest := cs.dropWhile Char.isDigit
  let fraction := if rest.head? = some '.' then rest.tail.takeWhile Char.isDigit else []
  let rest := if rest.head? = some '.' then rest.tail.dropWhile Char.isDigit else rest
  match naturalOf 10 (whole ++ fraction), exponentOf rest with
  | some n, some e => some (n, e - fraction.length)
  | _, _ => none

def signedOf (negative : Bool) (cs : List Char) : Number :=
  if cs = "Infinity".toList then .infinity negative
  else
    match decimalOf cs with
    | some (n, e) => .finite (if negative then -n else n) e
    | none => .nan

/-- `StringToNumber`: white space around the literal is dropped, the empty text is zero and a
text that is no literal is `nan`. -/
def ofText (s : String) : Number :=
  match trimChars s.toList with
  | [] => ofNat 0
  | '0' :: 'x' :: ds | '0' :: 'X' :: ds => (naturalOf 16 ds).elim .nan ofNat
  | '0' :: 'o' :: ds | '0' :: 'O' :: ds => (naturalOf 8 ds).elim .nan ofNat
  | '0' :: 'b' :: ds | '0' :: 'B' :: ds => (naturalOf 2 ds).elim .nan ofNat
  | '-' :: cs => signedOf true cs
  | '+' :: cs => signedOf false cs
  | cs => signedOf false cs

example : (finite 150 (-3)).text = "0.15" := by decide
example : (finite 12 20).text = "1.2e+21" := by decide
example : ofText " 1.50e1 " = .finite 150 (-1) := by decide

end Number

end Js
