import KubevirtUi.Python.Ipaddress

/-!
# Floats as texts

`float` reads a decimal number, with an exponent or without, or the name of an infinity or of what
is no number; digits are ASCII. `f"{x:g}"` prints six significant digits, rounded to even, without
the zeros at their end. `int` drops what is behind the point.
-/

namespace Python

/-- The digits that follow a digit. An underscore may come before each. -/
def moreDigits : List Char → List Char × List Char
  | '_' :: d :: s =>
    if d.isDigit then (d :: (moreDigits s).1, (moreDigits s).2) else ([], '_' :: d :: s)
  | d :: s => if d.isDigit then (d :: (moreDigits s).1, (moreDigits s).2) else ([], d :: s)
  | [] => ([], [])

/-- One digit at least, and what comes after them. -/
def digitPart : List Char → Option (List Char × List Char)
  | d :: s => if d.isDigit then some (d :: (moreDigits s).1, (moreDigits s).2) else none
  | [] => none

/-- The digits before the point and those behind it, and the rest. -/
def readNumber (s : List Char) : Option (List Char × List Char × List Char) :=
  match digitPart s with
  | some (whole, '.' :: rest) =>
    match digitPart rest with
    | some (fraction, rest) => some (whole, fraction, rest)
    | none => some (whole, [], rest)
  | some (whole, rest) => some (whole, [], rest)
  | none =>
    match s with
    | '.' :: rest => (digitPart rest).map fun (fraction, rest) => ([], fraction, rest)
    | _ => none

/-- Whether there is a minus sign. -/
def readSign : List Char → Bool × List Char
  | '-' :: s => (true, s)
  | '+' :: s => (false, s)
  | s => (false, s)

def decimal (digits : List Char) : Nat :=
  digits.foldl (fun n d => 10 * n + (d.toNat - '0'.toNat)) 0

/-- The exponent, with nothing behind it. -/
def readExponent : List Char → Option Int
  | [] => some 0
  | c :: s =>
    if c = 'e' ∨ c = 'E' then
      match digitPart (readSign s).2 with
      | some (digits, []) => some (if (readSign s).1 then -decimal digits else decimal digits)
      | _ => none
    else none

def withSign (negative : Bool) (x : Float) : Float := if negative then -x else x

/-- `float(text)`, or a `ValueError`. -/
def float (text : List Char) : Option Float :=
  let (negative, s) := readSign (strip text)
  let name := s.map Char.toLower
  if name = "inf".toList ∨ name = "infinity".toList then some (withSign negative (1.0 / 0.0))
  else if name = "nan".toList then some (0.0 / 0.0)
  else do
    let (whole, fraction, rest) ← readNumber s
    let exponent ← readExponent rest
    let e := exponent - fraction.length
    return withSign negative
      (Float.ofScientific (decimal (whole ++ fraction)) (decide (e < 0)) e.natAbs)

/-- A positive float as a ratio. -/
def ratio (mantissa : Nat) (exponent : Int) : Nat × Nat :=
  if 0 ≤ exponent then (mantissa * 2 ^ exponent.toNat, 1) else (mantissa, 2 ^ (-exponent).toNat)

/-- The nearest number to a ratio, the even one of two. -/
def nearest (num den : Nat) : Nat :=
  if 2 * (num % den) < den then num / den
  else if den < 2 * (num % den) then num / den + 1
  else num / den + num / den % 2

/-- A ratio times a power of ten. -/
def shifted (num den : Nat) (k : Int) : Nat × Nat :=
  if 0 ≤ k then (num * 10 ^ k.toNat, den) else (num, den * 10 ^ (-k).toNat)

/-- The power of ten of the first digit. -/
def leading (num den : Nat) : Int :=
  let k : Int := (Nat.toDigits 10 num).length - (Nat.toDigits 10 den).length
  if (shifted num den (-k)).1 < (shifted num den (-k)).2 then k - 1 else k

/-- Six digits, and the power of ten of the first. -/
def sixDigits (num den : Nat) : Nat × Int :=
  let k := leading num den
  let n := nearest (shifted num den (5 - k)).1 (shifted num den (5 - k)).2
  if n = 10 ^ 6 then (10 ^ 5, k + 1) else (n, k)

/-- Digits behind a point, if any are left. -/
def fractionText (digits : List Char) : List Char :=
  match digits.rdropWhile (· = '0') with
  | [] => []
  | rest => '.' :: rest

def generalPositive (num den : Nat) : List Char :=
  let (n, k) := sixDigits num den
  let digits := Nat.toDigits 10 n
  if -4 ≤ k ∧ k < 6 then
    if 0 ≤ k then digits.take (k.toNat + 1) ++ fractionText (digits.drop (k.toNat + 1))
    else '0' :: fractionText (List.replicate (-k - 1).toNat '0' ++ digits)
  else
    let exponent := Nat.toDigits 10 k.natAbs
    digits.take 1 ++ fractionText (digits.drop 1) ++ ['e', if k < 0 then '-' else '+'] ++
      (if exponent.length < 2 then '0' :: exponent else exponent)

def signText : Float.Model.UnpackedFloat.Sign → List Char
  | .positive => []
  | .negative => ['-']

/-- `f"{x:g}"` -/
def general (x : Float) : String :=
  match x.toModel.unpack with
  | .notANumber => "nan"
  | .infinity s => String.ofList (signText s ++ "inf".toList)
  | .zero s => String.ofList (signText s ++ ['0'])
  | .finite s m e _ => String.ofList (signText s ++ generalPositive (ratio m e).1 (ratio m e).2)

/-- What `int(x)` comes to. -/
inductive Truncation where
  | to (n : Int)
  | valueError
  | overflowError
  deriving DecidableEq

def int (x : Float) : Truncation :=
  match x.toModel.unpack with
  | .notANumber => .valueError
  | .infinity _ => .overflowError
  | .zero _ => .to 0
  | .finite s m e _ => .to (s.apply ((ratio m e).1 / (ratio m e).2))

example : float "1_6.5e1".toList = some 165.0 := by decide +kernel

example : general 0.1 = "0.1" ∧ general 17179869184.0 = "1.71799e+10" := by decide +kernel

end Python
