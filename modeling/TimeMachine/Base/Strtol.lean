import Mathlib.Algebra.Group.Int.Defs
import Mathlib.Algebra.Group.Nat.Defs

/-!
# Decimal numbers out of text

`std::stol`, `std::stoul` and `std::stoi` with their default base: leading white space is
skipped, a sign is read, and the longest run of digits after it is the number. Text
without a digit there is an invalid argument, and a number outside the type is out of
range; what follows the digits is ignored. For `std::stoul` the digits alone have to be
in range, and a minus sign negates the word.
-/

namespace TimeMachine.Base.Strtol

/-- `std::isspace` in the C locale. -/
def isSpace (c : Char) : Bool :=
  c = ' ' || c = '\t' || c = '\n' || c = '\x0b' || c = '\x0c' || c = '\r'

/-- The number a run of decimal digits stands for. -/
def digitsValue (digits : List Char) : Nat :=
  digits.foldl (fun n c ↦ 10 * n + (c.toNat - 48)) 0

/-- The sign, and the characters after it. -/
def takeSign : List Char → Int × List Char
  | '-' :: rest => (-1, rest)
  | '+' :: rest => (1, rest)
  | rest => (1, rest)

/-- `std::stol`; `none` where it throws. -/
def stol (text : String) : Option Int :=
  let (sign, rest) := takeSign (text.toList.dropWhile isSpace)
  let digits := rest.takeWhile Char.isDigit
  if digits = [] then none
  else
    let n := sign * digitsValue digits
    if -2 ^ 63 ≤ n ∧ n < 2 ^ 63 then some n else none

/-- `std::stoul`; `none` where it throws. -/
def stoul (text : String) : Option UInt64 :=
  let (sign, rest) := takeSign (text.toList.dropWhile isSpace)
  let digits := rest.takeWhile Char.isDigit
  if digits = [] then none
  else
    let n := digitsValue digits
    if n < 2 ^ 64 then some (UInt64.ofInt (sign * n)) else none

/-- `std::stoi`; `none` where it throws. -/
def stoi (text : String) : Option Int32 :=
  match stol text with
  | some n => if -2 ^ 31 ≤ n ∧ n < 2 ^ 31 then some (Int32.ofInt n) else none
  | none => none

example : [stol " -17x", stol "+9223372036854775807", stol "9223372036854775808", stol "x"] =
    [some (-17), some 9223372036854775807, none, none] := by decide

example : stoul "-1" = some (UInt64.ofNat (2 ^ 64 - 1)) ∧ stoul "18446744073709551616" = none ∧
    stoi "2147483648" = none := by decide

end TimeMachine.Base.Strtol
