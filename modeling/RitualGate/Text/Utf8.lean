import RitualGate.Text.Cut

/-!
# Bytes and text

Files hold bytes. A text is written as its UTF-8 encoding, and read back only from bytes that are
the encoding of some text. To be shown, any bytes are taken for a text: in `lossy`, what is not the
encoding of a character stands as the replacement character, once for each beginning of an encoding
that is broken off and for each byte that begins none.
-/

namespace RitualGate

/-- The content of a file. -/
abbrev Bytes := List UInt8

namespace Text

/-- The UTF-8 encoding of a text. -/
def encode (s : String) : Bytes :=
  s.toUTF8.toList

/-- The text that some bytes encode, if they encode one. -/
def decode? (bytes : Bytes) : Option String :=
  String.fromUTF8? bytes.toByteArray

/-- The character whose encoding some bytes begin with, if they begin with one. -/
def firstChar? (bytes : Bytes) : Option Char :=
  bytes.toByteArray.utf8DecodeChar? 0

/-- A byte of an encoding that is not its first. -/
def isTail (b : UInt8) : Bool :=
  0x80 ≤ b && b ≤ 0xBF

/-- Whether the encodings of three or four bytes have one that begins with two bytes. -/
def beginsLong (first second : UInt8) : Bool :=
  if first = 0xE0 then 0xA0 ≤ second && second ≤ 0xBF
  else if first = 0xED then 0x80 ≤ second && second ≤ 0x9F
  else if first = 0xF0 then 0x90 ≤ second && second ≤ 0xBF
  else if first = 0xF4 then 0x80 ≤ second && second ≤ 0x8F
  else 0xE0 ≤ first && first ≤ 0xF3 && isTail second

/-- The number of bytes that one replacement stands for, where no encoding is complete. -/
def brokenLength : Bytes → Nat
  | first :: second :: rest =>
    if beginsLong first second then
      match rest with
      | [] => 2
      | third :: _ => if 0xF0 ≤ first && isTail third then 3 else 2
    else 1
  | _ => 1

/-- What stands for bytes that encode nothing. -/
def replacement : Char := Char.ofNat 0xFFFD

/-- The characters of some bytes, of which the first `skip` are passed over. -/
def lossyFrom : (skip : Nat) → Bytes → List Char
  | _, [] => []
  | skip + 1, _ :: bytes => lossyFrom skip bytes
  | 0, b :: bytes =>
    match firstChar? (b :: bytes) with
    | some c => c :: lossyFrom (c.utf8Size - 1) bytes
    | none => replacement :: lossyFrom (brokenLength (b :: bytes) - 1) bytes

/-- Bytes taken for a text. -/
def lossy (bytes : Bytes) : String :=
  String.ofList (lossyFrom 0 bytes)

/-- The lines of a file, ended as the lines of a text are. -/
def byteLines (bytes : Bytes) : List Bytes :=
  splitLines 0x0D 0x0A bytes

end Text

end RitualGate
