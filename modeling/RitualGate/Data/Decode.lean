import RitualGate.Data.Value
import RitualGate.Text.Cut
import RitualGate.Text.Numeral
import RitualGate.Vocabulary.Error

/-!
# Making sense of structured data

A decoder reads a `Value` as something of the domain. A record is written as a table of its fields
or as the list of them in order. Its fields are looked at in the order in which they stand, so the
first one that cannot be read is the one reported; a field that is missing is reported last.
-/

namespace RitualGate.Data

/-- Why a value cannot be read. -/
inductive DecodeError where
  /-- The value is not of the expected form. -/
  | shape
  /-- The value is a word that names nothing. -/
  | word (e : VocabularyError)
deriving DecidableEq, Repr

/-- Reads a value as something of type `α`. -/
abbrev Decoder (α : Type) := Value → Except DecodeError α

namespace Decode

/-- A text, quoted or not. -/
def text : Decoder String
  | .text s => .ok s
  | .plain s => .ok s
  | _ => .error .shape

/-- A truth value. -/
def bool : Decoder Bool
  | .bool b => .ok b
  | _ => .error .shape

/-- The digits of a number in a base. -/
def digitsIn (base : Nat) (cs : List Char) : Option Nat :=
  if cs.isEmpty then none
  else cs.foldl (fun acc c => do
    let acc ← acc
    let d ← Text.hexValue? c
    if d < base then some (acc * base + d) else none) (some 0)

/-- The number that a word without quotes stands for: decimal without a leading zero, or with the
mark of base sixteen, eight or two, and with a plus sign or without. -/
def plainNat? (s : String) : Option Nat :=
  let unsigned := match s.toList with
    | '+' :: cs => cs
    | cs => cs
  match unsigned with
  | '0' :: 'x' :: cs => digitsIn 16 cs
  | '0' :: 'o' :: cs => digitsIn 8 cs
  | '0' :: 'b' :: cs => digitsIn 2 cs
  | '0' :: _ :: _ => none
  | cs => digitsIn 10 cs

/-- A natural number of at most `limit`. -/
def nat (limit : Nat) : Decoder Nat
  | .int (.ofNat n) => if n ≤ limit then .ok n else .error .shape
  | .plain s =>
    match plainNat? s with
    | some n => if n ≤ limit then .ok n else .error .shape
    | none => .error .shape
  | _ => .error .shape

/-- A whole number from `least` to `greatest`. -/
def int (least greatest : Int) : Decoder Int
  | .int n => if least ≤ n ∧ n ≤ greatest then .ok n else .error .shape
  | _ => .error .shape

/-- A machine word of thirty-two bits. -/
def word32 : Decoder UInt32 := fun v =>
  match nat 4294967295 v with
  | .ok n => .ok (UInt32.ofNat n)
  | .error e => .error e

/-- Whether a value stands for the absence of one. -/
def isNull : Value → Bool
  | .null => true
  | .plain s => s == "" || s == "~" || s == "null" || s == "Null" || s == "NULL"
  | _ => false

/-- A value that may be null. -/
def option {α : Type} (d : Decoder α) : Decoder (Option α) := fun v =>
  if isNull v then .ok none
  else
    match d v with
    | .ok a => .ok (some a)
    | .error e => .error e

/-- The items of a list; an empty word is an empty list. -/
def items : Decoder (List Value)
  | .list vs => .ok vs
  | .plain "" => .ok []
  | _ => .error .shape

/-- Every item of a list, up to the first that cannot be read. -/
def each {α : Type} (d : Decoder α) : List Value → Except DecodeError (List α)
  | [] => .ok []
  | v :: vs =>
    match d v with
    | .error e => .error e
    | .ok a =>
      match each d vs with
      | .error e => .error e
      | .ok as => .ok (a :: as)

/-- A list. -/
def list {α : Type} (d : Decoder α) : Decoder (List α) := fun v =>
  match items v with
  | .ok vs => each d vs
  | .error e => .error e

/-- The members of a table; an empty word is an empty table. -/
def members : Decoder (List (String × Value))
  | .table ms => .ok ms
  | .plain "" => .ok []
  | _ => .error .shape

/-- Every member of a table, key before value, up to the first that cannot be read. -/
def eachEntry {κ α : Type} (key : Decoder κ) (d : Decoder α) :
    List (String × Value) → Except DecodeError (List (κ × α))
  | [] => .ok []
  | (k, v) :: ms =>
    match key (.text k) with
    | .error e => .error e
    | .ok k =>
      match d v with
      | .error e => .error e
      | .ok a =>
        match eachEntry key d ms with
        | .error e => .error e
        | .ok rest => .ok ((k, a) :: rest)

/-- A table as its entries in order. -/
def entries {κ α : Type} (key : Decoder κ) (d : Decoder α) : Decoder (List (κ × α)) := fun v =>
  match members v with
  | .ok ms => eachEntry key d ms
  | .error e => .error e

/-- One of several names, written as the name or as a table with the name as its only key and null
as its value. -/
def variant {α : Type} (ofName? : String → Option α) : Decoder α := fun v =>
  let name? := match v with
    | .text s => some s
    | .plain s => some s
    | .table [(k, .null)] => some k
    | _ => none
  match name? >>= ofName? with
  | some a => .ok a
  | none => .error .shape

/-- A name that stands as the key of a table. -/
def variantKey {α : Type} (ofName? : String → Option α) : Decoder α
  | .text s =>
    match ofName? s with
    | some a => .ok a
    | none => .error .shape
  | _ => .error .shape

/-- A word of the vocabulary. -/
def word {α : Type} (ofText : String → Except VocabularyError α) : Decoder α := fun v =>
  match text v with
  | .error e => .error e
  | .ok s =>
    match ofText s with
    | .ok a => .ok a
    | .error e => .error (.word e)

end Decode

/-- The fields of a record as they stand: in a list without names, or in a table. -/
structure Members where
  entries : List (String × Value)
  /-- A list with more items than the record has fields. -/
  surplus : Bool

namespace Members

/-- The members that are fields of the record, none of them twice. -/
def ofTable (names : List String) (ms : List (String × Value)) : Except DecodeError Members :=
  let known := ms.filter fun m => names.contains m.1
  if (known.map Prod.fst).Nodup then .ok ⟨known, false⟩ else .error .shape

/-- The fields of a record with the given names. -/
def ofValue (names : List String) : Value → Except DecodeError Members
  | .table ms => ofTable names ms
  | .list vs => .ok ⟨names.zip vs, decide (names.length < vs.length)⟩
  | .plain "" => .ok ⟨[], false⟩
  | _ => .error .shape

/-- The place and the value of a field. -/
def find? (name : String) : List (String × Value) → Option (Nat × Value)
  | [] => none
  | (k, v) :: ms =>
    if k = name then some (0, v) else (find? name ms).map fun (i, v) => (i + 1, v)

end Members

/-- Reads something from the fields of a record; an error comes with the place where it lies. -/
def Fields (α : Type) := Members → Except (Nat × DecodeError) α

namespace Fields

/-- Reads nothing. -/
def pure {α : Type} (a : α) : Fields α := fun _ => .ok a

/-- Reads two parts; if both fail, the error that lies first counts. -/
def seq {α β : Type} (f : Fields (α → β)) (x : Fields α) : Fields β := fun m =>
  match f m, x m with
  | .ok f, .ok a => .ok (f a)
  | .error e, .ok _ => .error e
  | .ok _, .error e => .error e
  | .error e, .error e' => .error (if e'.1 < e.1 then e' else e)

/-- A field with a value for when it is missing. -/
def withDefault {α : Type} (name : String) (d : Decoder α) (fallback : Except DecodeError α) :
    Fields α := fun m =>
  match Members.find? name m.entries with
  | some (i, v) =>
    match d v with
    | .ok a => .ok a
    | .error e => .error (i, e)
  | none =>
    match fallback with
    | .ok a => .ok a
    | .error e => .error (m.entries.length, e)

/-- A field that must be there. -/
def required {α : Type} (name : String) (d : Decoder α) : Fields α :=
  withDefault name d (.error .shape)

/-- A field that has a default. -/
def defaulted {α : Type} (name : String) (d : Decoder α) (a : α) : Fields α :=
  withDefault name d (.ok a)

/-- A field that may be missing or null. -/
def optional {α : Type} (name : String) (d : Decoder α) : Fields (Option α) :=
  withDefault name (Decode.option d) (.ok none)

/-- Reads a record with the given field names. -/
def decode {α : Type} (names : List String) (f : Fields α) : Decoder α := fun v =>
  match Members.ofValue names v with
  | .error e => .error e
  | .ok m =>
    match f m with
    | .error (_, e) => .error e
    | .ok a => if m.surplus then .error .shape else .ok a

end Fields

end RitualGate.Data
