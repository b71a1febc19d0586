import RitualGate.Statement.Error
import RitualGate.Text.Blank

/-!
# Tokens

`Token.scan` cuts a line into words, quoted texts and punctuation. Blanks separate words and mean
nothing else. Between quotes, a backslash takes the meaning from a quote or a backslash behind it
and stands for itself elsewhere.
-/

namespace RitualGate

/-- What a token is. -/
inductive TokenKind where
  | word (cs : List Char)
  | quoted (cs : List Char)
  | openBracket
  | closeBracket
  | comma
  | pipe
deriving DecidableEq, Repr

/-- A token and the column where it starts. -/
structure Token where
  kind : TokenKind
  column : Nat
deriving DecidableEq, Repr

namespace Token

/-- The token that a punctuation character makes. -/
def punctuation? (c : Char) : Option TokenKind :=
  if c = '[' then some .openBracket
  else if c = ']' then some .closeBracket
  else if c = ',' then some .comma
  else if c = '|' then some .pipe
  else none

/-- The characters that words are made of. -/
def isWordChar (c : Char) : Bool :=
  !(Text.isBlank c || c == '"' || c == '[' || c == ']' || c == ',' || c == '|')

/-- Puts a word character in front of the tokens that follow it: it joins the word that starts
right behind it, or makes a word of its own. -/
def glue (c : Char) (column : Nat) : List Token → List Token
  | [] => [⟨.word [c], column⟩]
  | t :: ts =>
    match t.kind with
    | .word cs =>
      if t.column = column + 1 then ⟨.word (c :: cs), column⟩ :: ts
      else ⟨.word [c], column⟩ :: t :: ts
    | _ => ⟨.word [c], column⟩ :: t :: ts

mutual

/-- The tokens of a text that starts at a column. -/
def scanFrom (column : Nat) : List Char → Except SyntaxError (List Token)
  | [] => .ok []
  | c :: cs =>
    if Text.isBlank c then scanFrom (column + 1) cs
    else if c = '"' then scanQuoted column (column + 1) [] false cs
    else
      match punctuation? c with
      | some kind => (⟨kind, column⟩ :: ·) <$> scanFrom (column + 1) cs
      | none => glue c column <$> scanFrom (column + 1) cs

/-- The tokens of a text within quotes that opened at `start`. `body` is what the quotes hold so
far, in reverse, and `slash` says that a backslash stands right before the text, not in `body`
yet. -/
def scanQuoted (start column : Nat) (body : List Char) (slash : Bool) :
    List Char → Except SyntaxError (List Token)
  | [] => .error { fault := .unterminatedQuote, token := "\"", column := start }
  | c :: cs =>
    if slash then
      if c = '"' ∨ c = '\\' then scanQuoted start (column + 1) (c :: body) false cs
      else scanQuoted start (column + 1) (c :: '\\' :: body) false cs
    else if c = '"' then (⟨.quoted body.reverse, start⟩ :: ·) <$> scanFrom (column + 1) cs
    else if c = '\\' then scanQuoted start (column + 1) body true cs
    else scanQuoted start (column + 1) (c :: body) false cs

end

/-- The tokens of a line. -/
def scan (line : String) : Except SyntaxError (List Token) :=
  scanFrom 1 line.toList

/-- A token as an error report shows it. -/
def describe (t : Token) : String :=
  match t.kind with
  | .word cs => String.ofList cs
  | .quoted cs => "\"" ++ String.ofList cs ++ "\""
  | .openBracket => "["
  | .closeBracket => "]"
  | .comma => ","
  | .pipe => "|"

/-- The error that lies at a token. -/
def fail (t : Token) (fault : Fault) : SyntaxError :=
  { fault, token := t.describe, column := t.column }

end Token

end RitualGate
