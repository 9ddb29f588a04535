import DeclGraph.Text.Digit
import DeclGraph.Text.Toml.Basic

/-! The TOML values that are written without quotes and brackets. -/
namespace DeclGraph.Toml

/-- Digits, where single underscores may stand between two of them. -/
def digits? (base : Nat) : List Char → Option (List Char)
  | [] => none
  | [c] => if isDigitOf base c then some [c] else none
  | c :: '_' :: cs => if isDigitOf base c then (digits? base cs).map (c :: ·) else none
  | c :: cs => if isDigitOf base c then (digits? base cs).map (c :: ·) else none

/-- Decimal digits of which only zero itself starts with zero. -/
def integral? (cs : List Char) : Option (List Char) := do
  let ds ← digits? 10 cs
  if ds.head? = some '0' ∧ ds ≠ ['0'] then none else return ds

/-- Whether there is a minus, and what follows the sign. -/
def unsign : List Char → Bool × List Char
  | '-' :: cs => (true, cs)
  | '+' :: cs => (false, cs)
  | cs => (false, cs)

/-- Integers have 64 bits. Only decimal ones have a sign. -/
def int? (run : List Char) : Option Int := do
  let i : Int ← match run with
    | '0' :: 'x' :: cs => pure (digitsValue 16 (← digits? 16 cs))
    | '0' :: 'o' :: cs => pure (digitsValue 8 (← digits? 8 cs))
    | '0' :: 'b' :: cs => pure (digitsValue 2 (← digits? 2 cs))
    | cs =>
      let (negative, cs) := unsign cs
      let n := digitsValue 10 (← integral? cs)
      pure (if negative then -n else n)
  if -0x8000000000000000 ≤ i ∧ i < 0x8000000000000000 then return i else none

/-- The digits of a float: its value is `digits * 10 ^ exponent`. -/
structure Decimal where
  negative : Bool
  digits : List Char
  exponent : Int

def isExponentMark (c : Char) : Bool := c == 'e' || c == 'E'

/-- The exponent with its mark, and zero for no exponent at all. -/
def exponent? : List Char → Option Int
  | [] => some 0
  | c :: cs => do
    if !isExponentMark c then none
    let (negative, cs) := unsign cs
    let n := digitsValue 10 (← digits? 10 cs)
    return if negative then -n else n

/-- A number with a fraction or an exponent. -/
def decimal? (run : List Char) : Option Decimal := do
  let (negative, cs) := unsign run
  let inWhole (c : Char) : Bool := c != '.' && !isExponentMark c
  let whole ← integral? (cs.takeWhile inWhole)
  match cs.dropWhile inWhole with
  | [] => none
  | '.' :: cs =>
    let fraction ← digits? 10 (cs.takeWhile (!isExponentMark ·))
    let e ← exponent? (cs.dropWhile (!isExponentMark ·))
    return ⟨negative, whole ++ fraction, e - fraction.length⟩
  | cs => return ⟨negative, whole, ← exponent? cs⟩

/-- The least number that rounds to an infinite float of 64 bits. -/
def floatBound : Nat := (1 <<< 54 - 1) <<< 970

/-- Whether the magnitude is below `floatBound`. The bound has 309 digits, so powers of ten are needed
only for numbers that have as many. -/
def Decimal.isFinite (d : Decimal) : Bool :=
  let ds := d.digits.dropWhile (· == '0')
  let places := ds.length + d.exponent
  if ds.isEmpty || places < 309 then true
  else if 309 < places then false
  else if 0 ≤ d.exponent then digitsValue 10 ds * Nat.pow 10 d.exponent.toNat < floatBound
  else digitsValue 10 ds < floatBound * Nat.pow 10 (-d.exponent).toNat

/-- Floats. A positive number that is too large is refused. -/
def isFloat (run : List Char) : Bool :=
  let bare := (unsign run).2
  bare == "inf".toList || bare == "nan".toList || (decimal? run).any fun d => d.negative || d.isFinite

/-- The number that two digits spell. -/
def pair? : List Char → Option Nat
  | [a, b] => if a.isDigit ∧ b.isDigit then some (digitsValue 10 [a, b]) else none
  | _ => none

def daysInMonth (year month : Nat) : Nat :=
  if month = 2 then if year % 4 = 0 ∧ (year % 100 ≠ 0 ∨ year % 400 = 0) then 29 else 28
  else if month ∈ [4, 6, 9, 11] then 30 else 31

def isDay : List Char → Bool
  | [y, y₁, y₂, y₃, '-', m, m₁, '-', d, d₁] =>
    [y, y₁, y₂, y₃].all Char.isDigit &&
      match pair? [m, m₁], pair? [d, d₁] with
      | some month, some day =>
        let year := digitsValue 10 [y, y₁, y₂, y₃]
        1 ≤ month && month ≤ 12 && 1 ≤ day && day ≤ daysInMonth year month
      | _, _ => false
  | _ => false

/-- Hours and minutes. -/
def isHourMinute : List Char → Bool
  | [h, h₁, ':', m, m₁] => (pair? [h, h₁]).any (· < 24) && (pair? [m, m₁]).any (· < 60)
  | _ => false

/-- Seconds with a fraction. A minute may have a leap second. -/
def isSecond (cs : List Char) : Bool :=
  (pair? (cs.take 2)).any (· ≤ 60) &&
    match cs.drop 2 with
    | [] => true
    | '.' :: ds => !ds.isEmpty && ds.all Char.isDigit
    | _ => false

def isTime (cs : List Char) : Bool :=
  isHourMinute (cs.take 5) && (cs.drop 5).head? == some ':' && isSecond (cs.drop 6)

def isOffset : List Char → Bool
  | ['Z'] => true
  | ['z'] => true
  | '+' :: cs => isHourMinute cs
  | '-' :: cs => isHourMinute cs
  | _ => false

/-- A time that an offset may follow. -/
def isZonedTime (cs : List Char) : Bool :=
  let isSign (c : Char) : Bool := c == 'Z' || c == 'z' || c == '+' || c == '-'
  let offset := cs.dropWhile (!isSign ·)
  isTime (cs.takeWhile (!isSign ·)) && (offset.isEmpty || isOffset offset)

/-- A day, a time, or both with a letter or a space between them. -/
def isDate (run : List Char) : Bool :=
  isDay run || isTime run ||
    isDay (run.take 10) &&
      match run.drop 10 with
      | c :: cs => (c == 'T' || c == 't' || c == ' ') && isZonedTime cs
      | [] => false

def scalar? (run : List Char) : Option Toml :=
  match String.ofList run with
  | "true" => some (.bool true)
  | "false" => some (.bool false)
  | s =>
    match int? run with
    | some i => some (.int i)
    | none => if isFloat run then some (.float s) else if isDate run then some (.date s) else none

end DeclGraph.Toml
