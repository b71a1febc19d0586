/-!
# Structured data

`Value` is what a configuration file, a log line or a report holds before anything is known about
its meaning. A table keeps its members in the order in which they stand, repeated keys included:
whether a repetition is an error is for the reader of the table to say.
-/

namespace RitualGate.Data

/-- A piece of structured data. -/
inductive Value where
  | null
  | bool (b : Bool)
  /-- A whole number. -/
  | int (n : Int)
  /-- A number with a fraction, an exponent or a negative zero, kept as it is written. -/
  | real (text : String)
  /-- A quoted text. -/
  | text (s : String)
  /-- A word without quotes, which stands for whatever its reader takes it for. -/
  | plain (s : String)
  /-- A quoted text with an escape that stands for half a character, or a table with such a key. It
  can be passed over but not read. -/
  | unpaired
  | list (items : List Value)
  | table (members : List (String × Value))
deriving Inhabited, Repr

namespace Value

/-- A natural number. -/
def nat (n : Nat) : Value := .int n

/-- A value or null. -/
def option {α : Type} (f : α → Value) : Option α → Value
  | none => .null
  | some a => f a

/-- A list of texts. -/
def texts (ss : List String) : Value := .list (ss.map .text)

end Value

end RitualGate.Data
