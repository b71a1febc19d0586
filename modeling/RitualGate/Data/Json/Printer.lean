import RitualGate.Data.Value
import RitualGate.Text.Numeral

/-!
# Writing JSON

`compact` writes a value on one line without spaces, `pretty` with one member or item a line and two
spaces of indentation. Both escape the quote, the backslash and the control characters below the
space, and nothing else.
-/

namespace RitualGate.Data.Json

/-- A hexadecimal digit in lower case. -/
def hexDigit (n : Nat) : Char :=
  Char.ofNat (if n < 10 then 48 + n else 87 + n)

/-- A character as it stands between quotes. -/
def escapeChar (c : Char) : List Char :=
  if c = '"' then ['\\', '"']
  else if c = '\\' then ['\\', '\\']
  else if c = '\n' then ['\\', 'n']
  else if c = '\r' then ['\\', 'r']
  else if c = '\t' then ['\\', 't']
  else if c.toNat = 8 then ['\\', 'b']
  else if c.toNat = 12 then ['\\', 'f']
  else if c.toNat < 32 then ['\\', 'u', '0', '0', hexDigit (c.toNat / 16), hexDigit (c.toNat % 16)]
  else [c]

/-- A text between quotes. -/
def quote (s : String) : List Char :=
  '"' :: (s.toList.flatMap escapeChar ++ ['"'])

/-- A whole number. -/
def intChars : Int → List Char
  | .ofNat n => Text.numeralChars n
  | .negSucc n => '-' :: Text.numeralChars (n + 1)

mutual

/-- A value on one line. -/
def compactChars : Value → List Char
  | .null => "null".toList
  | .bool true => "true".toList
  | .bool false => "false".toList
  | .int n => intChars n
  | .real t => t.toList
  | .text s => quote s
  | .plain s => quote s
  | .unpaired => "null".toList
  | .list items => '[' :: compactItems items
  | .table members => '{' :: compactMembers members

/-- The items of a list up to its closing bracket. -/
def compactItems : List Value → List Char
  | [] => [']']
  | v :: vs => compactChars v ++ compactMoreItems vs

/-- The items after the first, each behind a comma, up to the closing bracket. -/
def compactMoreItems : List Value → List Char
  | [] => [']']
  | v :: vs => ',' :: (compactChars v ++ compactMoreItems vs)

/-- The members of a table up to its closing brace. -/
def compactMembers : List (String × Value) → List Char
  | [] => ['}']
  | (k, v) :: ms => quote k ++ ':' :: (compactChars v ++ compactMoreMembers ms)

/-- The members after the first, each behind a comma, up to the closing brace. -/
def compactMoreMembers : List (String × Value) → List Char
  | [] => ['}']
  | (k, v) :: ms => ',' :: (quote k ++ ':' :: (compactChars v ++ compactMoreMembers ms))

end

/-- A value on one line. -/
def compact (v : Value) : String :=
  String.ofList (compactChars v)

/-- The start of a line at a depth. -/
def newline (depth : Nat) : List Char :=
  '\n' :: List.replicate (2 * depth) ' '

mutual

/-- A value at a depth, over several lines if it has parts. -/
def prettyChars (depth : Nat) : Value → List Char
  | .list [] => ['[', ']']
  | .table [] => ['{', '}']
  | .list (v :: vs) =>
    '[' :: (newline (depth + 1) ++ prettyChars (depth + 1) v ++ prettyItems depth vs)
  | .table ((k, v) :: ms) =>
    '{' :: (newline (depth + 1) ++ quote k ++ ':' :: ' ' ::
      (prettyChars (depth + 1) v ++ prettyMembers depth ms))
  | .null => "null".toList
  | .bool true => "true".toList
  | .bool false => "false".toList
  | .int n => intChars n
  | .real t => t.toList
  | .text s => quote s
  | .plain s => quote s
  | .unpaired => "null".toList

/-- The items after the first of a list at a depth, up to the closing bracket. -/
def prettyItems (depth : Nat) : List Value → List Char
  | [] => newline depth ++ [']']
  | v :: vs => ',' :: (newline (depth + 1) ++ prettyChars (depth + 1) v ++ prettyItems depth vs)

/-- The members after the first of a table at a depth, up to the closing brace. -/
def prettyMembers (depth : Nat) : List (String × Value) → List Char
  | [] => newline depth ++ ['}']
  | (k, v) :: ms =>
    ',' :: (newline (depth + 1) ++ quote k ++ ':' :: ' ' ::
      (prettyChars (depth + 1) v ++ prettyMembers depth ms))

end

/-- A value over several lines, indented by two spaces a level. -/
def pretty (v : Value) : String :=
  String.ofList (prettyChars 0 v)

end RitualGate.Data.Json
