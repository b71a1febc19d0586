import RitualGate.Data.Value
import RitualGate.Text.Numeral

/-!
# Reading JSON

`parse?` reads a text that holds one JSON value, with blanks around it. Tables keep repeated keys.
A number is whole if it has neither fraction nor exponent and is not a negative zero. An escape for
half a character does not make the text malformed: it makes the string, or the table whose key it
is, unreadable.
-/

namespace RitualGate.Data.Json

/-- The characters that may stand between the parts of a value. -/
def isSpace (c : Char) : Bool :=
  c == ' ' || c == '\n' || c == '\t' || c == '\r'

/-- A text without the blanks in front of it. -/
def skipSpace (cs : List Char) : List Char :=
  cs.dropWhile isSpace

/-- The value of four hexadecimal digits. -/
def hexFour? (a b c d : Char) : Option Nat := do
  let a ← Text.hexValue? a
  let b ← Text.hexValue? b
  let c ← Text.hexValue? c
  let d ← Text.hexValue? d
  return ((a * 16 + b) * 16 + c) * 16 + d

/-- The character behind a backslash, `u` apart. -/
def unescape? (c : Char) : Option Char :=
  if c = '"' ∨ c = '\\' ∨ c = '/' then some c
  else if c = 'b' then some (Char.ofNat 8)
  else if c = 'f' then some (Char.ofNat 12)
  else if c = 'n' then some '\n'
  else if c = 'r' then some '\r'
  else if c = 't' then some '\t'
  else none

/-- The first half of a character beyond the basic plane. -/
def isHighHalf (n : Nat) : Bool := decide (0xD800 ≤ n) && decide (n ≤ 0xDBFF)

/-- The second half of a character beyond the basic plane. -/
def isLowHalf (n : Nat) : Bool := decide (0xDC00 ≤ n) && decide (n ≤ 0xDFFF)

/-- The character that two halves make. -/
def joinHalves (high low : Nat) : Char :=
  Char.ofNat (0x10000 + (high - 0xD800) * 0x400 + (low - 0xDC00))

/-- Puts a code in front of what a string reader returned. -/
def consCode (code : Nat) : Option (List Nat × List Char) → Option (List Nat × List Char)
  | some (codes, rest) => some (code :: codes, rest)
  | none => none

/-- Reads a string behind its opening quote, as the codes of its characters and half characters. -/
def readCodes : List Char → Option (List Nat × List Char)
  | [] => none
  | '"' :: rest => some ([], rest)
  | '\\' :: 'u' :: a :: b :: c :: d :: rest =>
    match hexFour? a b c d with
    | some code => consCode code (readCodes rest)
    | none => none
  | '\\' :: c :: rest =>
    match unescape? c with
    | some c => consCode c.toNat (readCodes rest)
    | none => none
  | c :: rest => if c.toNat < 32 then none else consCode c.toNat (readCodes rest)

/-- The characters that some codes stand for, if every half character has its other half. -/
def joinCodes? : List Nat → Option (List Char)
  | [] => some []
  | [code] => if isHighHalf code || isLowHalf code then none else some [Char.ofNat code]
  | code :: next :: codes =>
    if isHighHalf code then
      if isLowHalf next then (joinCodes? codes).map (joinHalves code next :: ·) else none
    else if isLowHalf code then none
    else (joinCodes? (next :: codes)).map (Char.ofNat code :: ·)

/-- The text that some codes stand for. -/
def textOfCodes? (codes : List Nat) : Option String :=
  (joinCodes? codes).map String.ofList

/-- The digits that a text begins with, at least one, and what follows them. -/
def readDigits (cs : List Char) : Option (List Char × List Char) :=
  let ds := cs.takeWhile Char.isDigit
  if ds.isEmpty then none else some (ds, cs.dropWhile Char.isDigit)

/-- The whole part of a number: a zero alone, or digits that begin with another one. -/
def readWhole : List Char → Option (List Char × List Char)
  | '0' :: rest => some (['0'], rest)
  | cs => readDigits cs

/-- The fraction of a number, point included, if it has one. -/
def readFraction : List Char → Option (List Char × List Char)
  | '.' :: rest => (readDigits rest).map fun (ds, rest) => ('.' :: ds, rest)
  | cs => some ([], cs)

/-- The digits of an exponent behind its sign. -/
def readSigned (e : Char) : List Char → Option (List Char × List Char)
  | '+' :: rest => (readDigits rest).map fun (ds, rest) => (e :: '+' :: ds, rest)
  | '-' :: rest => (readDigits rest).map fun (ds, rest) => (e :: '-' :: ds, rest)
  | cs => (readDigits cs).map fun (ds, rest) => (e :: ds, rest)

/-- The exponent of a number, mark included, if it has one. -/
def readExponent : List Char → Option (List Char × List Char)
  | 'e' :: rest => readSigned 'e' rest
  | 'E' :: rest => readSigned 'E' rest
  | cs => some ([], cs)

/-- A number without its sign. -/
def readUnsigned (negative : Bool) (cs : List Char) : Option (Value × List Char) := do
  let (whole, cs) ← readWhole cs
  let (fraction, cs) ← readFraction cs
  let (exponent, cs) ← readExponent cs
  let n := Nat.ofDigitChars 10 whole 0
  if fraction.isEmpty && exponent.isEmpty && !(negative && n == 0) then
    return (.int (if negative then -(n : Int) else n), cs)
  else
    let sign := if negative then ['-'] else []
    return (.real (String.ofList (sign ++ whole ++ fraction ++ exponent)), cs)

/-- A number. -/
def readNumber : List Char → Option (Value × List Char)
  | '-' :: cs => readUnsigned true cs
  | cs => readUnsigned false cs

/-- A member in front of the rest of its table; a key that cannot be read spoils the table. -/
def consMember (key : Option String) (v : Value) : Value → Value
  | .table ms =>
    match key with
    | some k => .table ((k, v) :: ms)
    | none => .unpaired
  | other => other

mutual

/-- Reads one value. Each call spends a unit of `fuel`. -/
def readValue : (fuel : Nat) → List Char → Option (Value × List Char)
  | 0, _ => none
  | n + 1, cs =>
    match skipSpace cs with
    | 'n' :: 'u' :: 'l' :: 'l' :: rest => some (.null, rest)
    | 't' :: 'r' :: 'u' :: 'e' :: rest => some (.bool true, rest)
    | 'f' :: 'a' :: 'l' :: 's' :: 'e' :: rest => some (.bool false, rest)
    | '"' :: rest =>
      match readCodes rest with
      | none => none
      | some (codes, rest) =>
        match textOfCodes? codes with
        | some s => some (.text s, rest)
        | none => some (.unpaired, rest)
    | '[' :: rest =>
      match skipSpace rest with
      | ']' :: rest => some (.list [], rest)
      | rest => (readItems n rest).map fun (vs, rest) => (.list vs, rest)
    | '{' :: rest =>
      match skipSpace rest with
      | '}' :: rest => some (.table [], rest)
      | rest => readMembers n rest
    | cs => readNumber cs

/-- Reads the items of a list up to its closing bracket, at least one. -/
def readItems : (fuel : Nat) → List Char → Option (List Value × List Char)
  | 0, _ => none
  | n + 1, cs =>
    match readValue n cs with
    | none => none
    | some (v, rest) =>
      match skipSpace rest with
      | ',' :: rest => (readItems n rest).map fun (vs, rest) => (v :: vs, rest)
      | ']' :: rest => some ([v], rest)
      | _ => none

/-- Reads the members of a table up to its closing brace, at least one. -/
def readMembers : (fuel : Nat) → List Char → Option (Value × List Char)
  | 0, _ => none
  | n + 1, cs =>
    match skipSpace cs with
    | '"' :: rest =>
      match readCodes rest with
      | none => none
      | some (codes, rest) =>
        match skipSpace rest with
        | ':' :: rest =>
          match readValue n rest with
          | none => none
          | some (v, rest) =>
            match skipSpace rest with
            | ',' :: rest =>
              (readMembers n rest).map fun (t, rest) => (consMember (textOfCodes? codes) v t, rest)
            | '}' :: rest => some (consMember (textOfCodes? codes) v (.table []), rest)
            | _ => none
        | _ => none
    | _ => none

end

/-- Reads a text that holds one value and nothing else. -/
def parse? (s : String) : Option Value :=
  match readValue (2 * s.length + 2) s.toList with
  | some (v, rest) => if (skipSpace rest).isEmpty then some v else none
  | none => none

end RitualGate.Data.Json
