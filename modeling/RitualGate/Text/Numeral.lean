/-!
# Numerals

Decimal numerals as they are written, and as they are read within a bound. The digits of other bases
are those of base sixteen.
-/

namespace RitualGate.Text

/-- The decimal digits of `n`. -/
def numeralChars (n : Nat) : List Char :=
  Nat.toDigits 10 n

/-- The decimal numeral of `n`. -/
def numeral (n : Nat) : String :=
  String.ofList (numeralChars n)

/-- The largest machine word, which bounds the counts that a text can name. -/
def wordMax : Nat := 18446744073709551615

/-- A count as a machine word, which starts again at zero behind the largest one. -/
def word (count : Nat) : Nat := count % (wordMax + 1)

theorem word_le (count : Nat) : word count ≤ wordMax :=
  Nat.le_of_lt_succ (Nat.mod_lt count wordMax.succ_pos)

/-- The number that a run of decimal digits names, if it is at most `limit`. -/
def readDigits? (limit : Nat) (ds : List Char) : Option Nat :=
  if ds.isEmpty || !ds.all Char.isDigit then none
  else
    let n := Nat.ofDigitChars 10 ds 0
    if n ≤ limit then some n else none

/-- Reads a numeral of at most `limit`, with or without a plus sign. -/
def readNumeral? (limit : Nat) : List Char → Option Nat
  | '+' :: ds => readDigits? limit ds
  | ds => readDigits? limit ds

/-- The value of a hexadecimal digit of either case. -/
def hexValue? (c : Char) : Option Nat :=
  if '0' ≤ c ∧ c ≤ '9' then some (c.toNat - 48)
  else if 'a' ≤ c ∧ c ≤ 'f' then some (c.toNat - 87)
  else if 'A' ≤ c ∧ c ≤ 'F' then some (c.toNat - 55)
  else none

end RitualGate.Text
