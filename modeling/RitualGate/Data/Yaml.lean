import RitualGate.Data.Value
import RitualGate.Text.Cut
import RitualGate.Text.Numeral

/-!
# Reading YAML

`parse?` reads one document of the part of YAML that configuration files use: block mappings and
sequences, flow mappings and sequences, plain and quoted scalars, and comments. Quoted scalars are
texts and plain ones words, so that what a plain scalar stands for is left to its reader. A document
without content is an empty word. Anchors, tags, block scalars and several documents are refused.
-/

namespace RitualGate.Data.Yaml

/-- A space or a tab. -/
def isGap (c : Char) : Bool := c == ' ' || c == '\t'

/-- A space, a tab or the end of a line. -/
def isBreak (c : Char) : Bool := isGap c || c == '\n'

/-- The number of spaces that a line begins with. -/
def indentOf (line : List Char) : Nat := (line.takeWhile (· == ' ')).length

/-- A line, or the rest of one, that holds nothing or a comment. -/
def isRemark (line : List Char) : Bool :=
  match line.dropWhile isGap with
  | [] => true
  | c :: _ => c == '#'

/-- The lines from the first that holds something. -/
def dropRemarks (lines : List (List Char)) : List (List Char) :=
  lines.dropWhile isRemark

/-- Whether what follows a character ends a token. -/
def endsToken : List Char → Bool
  | [] => true
  | c :: _ => isBreak c

/-- The mark of an item of a block sequence. -/
def isDash : List Char → Bool
  | '-' :: rest => endsToken rest
  | _ => false

/-- The characters that punctuate flow collections. -/
def isFlowMark (c : Char) : Bool :=
  c == ',' || c == '[' || c == ']' || c == '{' || c == '}'

/-- Whether a plain scalar can begin here. -/
def startsPlain : List Char → Bool
  | [] => false
  | c :: rest =>
    if c == '-' || c == '?' || c == ':' then !endsToken rest
    else !(isBreak c || isFlowMark c || "#&*!|>'\"%@`".toList.contains c)

/-- A scalar without the blanks at its end. -/
def trimEnd (cs : List Char) : List Char :=
  (cs.reverse.dropWhile isBreak).reverse

/-! ## Quoted scalars -/

/-- Puts a character in front of what a scalar reader returned. -/
def consChar (c : Char) : Option (List Char × List Char) → Option (List Char × List Char)
  | some (cs, rest) => some (c :: cs, rest)
  | none => none

/-- Reads a scalar behind its opening apostrophe, which it writes twice to hold one. -/
def readSingle : List Char → Option (List Char × List Char)
  | [] => none
  | '\'' :: '\'' :: rest => consChar '\'' (readSingle rest)
  | '\'' :: rest => some ([], rest)
  | c :: rest => consChar (if c == '\n' then ' ' else c) (readSingle rest)

/-- The character that a one-letter escape stands for. -/
def escape? (c : Char) : Option Char :=
  match c with
  | '0' => some (Char.ofNat 0)
  | 'a' => some (Char.ofNat 7)
  | 'b' => some (Char.ofNat 8)
  | 't' => some '\t'
  | '\t' => some '\t'
  | 'n' => some '\n'
  | 'v' => some (Char.ofNat 11)
  | 'f' => some (Char.ofNat 12)
  | 'r' => some '\r'
  | 'e' => some (Char.ofNat 27)
  | ' ' => some ' '
  | '"' => some '"'
  | '/' => some '/'
  | '\\' => some '\\'
  | 'N' => some (Char.ofNat 0x85)
  | '_' => some (Char.ofNat 0xA0)
  | 'L' => some (Char.ofNat 0x2028)
  | 'P' => some (Char.ofNat 0x2029)
  | _ => none

/-- The character with a code in hexadecimal. -/
def hexChar? (digits : List Char) : Option Char := do
  let ds ← digits.mapM Text.hexValue?
  let n := ds.foldl (fun acc d => acc * 16 + d) 0
  if n.isValidChar then some (Char.ofNat n) else none

/-- Reads a scalar behind its opening quote. -/
def readDouble : List Char → Option (List Char × List Char)
  | [] => none
  | '"' :: rest => some ([], rest)
  | '\\' :: 'x' :: a :: b :: rest =>
    match hexChar? [a, b] with
    | some c => consChar c (readDouble rest)
    | none => none
  | '\\' :: 'u' :: a :: b :: c :: d :: rest =>
    match hexChar? [a, b, c, d] with
    | some c => consChar c (readDouble rest)
    | none => none
  | '\\' :: 'U' :: a :: b :: c :: d :: e :: f :: g :: h :: rest =>
    match hexChar? [a, b, c, d, e, f, g, h] with
    | some c => consChar c (readDouble rest)
    | none => none
  | '\\' :: c :: rest =>
    match escape? c with
    | some c => consChar c (readDouble rest)
    | none => none
  | c :: rest => consChar (if c == '\n' then ' ' else c) (readDouble rest)

/-- Reads a quoted scalar, if one begins here. -/
def readQuoted : List Char → Option (List Char × List Char)
  | '"' :: rest => readDouble rest
  | '\'' :: rest => readSingle rest
  | _ => none

/-! ## Flow collections -/

/-- What follows the blanks and comments in front of a token. -/
def skipFlow : List Char → List Char
  | [] => []
  | c :: rest =>
    if isBreak c then skipFlow rest
    else if c == '#' then skipComment rest
    else c :: rest
where
  /-- What follows a comment. -/
  skipComment : List Char → List Char
    | [] => []
    | c :: rest => if c == '\n' then skipFlow rest else skipComment rest

/-- The characters of a plain scalar in a flow collection, and what follows them. -/
def takePlainFlow (afterGap : Bool) : List Char → List Char × List Char
  | [] => ([], [])
  | c :: rest =>
    if isFlowMark c || (c == '#' && afterGap) then ([], c :: rest)
    else
      let colonEnds := match rest with
        | [] => true
        | d :: _ => isBreak d || isFlowMark d
      if c == ':' && colonEnds then ([], c :: rest)
      else
        let (cs, rest) := takePlainFlow (isBreak c) rest
        ((if c == '\n' then ' ' else c) :: cs, rest)

/-- Reads a plain scalar in a flow collection. -/
def readPlainFlow (cs : List Char) : Option (String × List Char) :=
  if startsPlain cs then
    let (word, rest) := takePlainFlow false cs
    some (String.ofList (trimEnd word), rest)
  else none

/-- Reads the key of a member of a flow mapping. -/
def readFlowKey (cs : List Char) : Option (String × List Char) :=
  match cs with
  | '"' :: _ => (readQuoted cs).map fun (k, rest) => (String.ofList k, rest)
  | '\'' :: _ => (readQuoted cs).map fun (k, rest) => (String.ofList k, rest)
  | _ => readPlainFlow cs

mutual

/-- Reads a value in a flow collection. Each call spends a unit of `fuel`. -/
def readFlow : (fuel : Nat) → List Char → Option (Value × List Char)
  | 0, _ => none
  | n + 1, cs =>
    match skipFlow cs with
    | '[' :: rest => (readFlowItems n rest).map fun (vs, rest) => (.list vs, rest)
    | '{' :: rest => (readFlowMembers n rest).map fun (ms, rest) => (.table ms, rest)
    | '"' :: rest => (readDouble rest).map fun (s, rest) => (.text (String.ofList s), rest)
    | '\'' :: rest => (readSingle rest).map fun (s, rest) => (.text (String.ofList s), rest)
    | cs => (readPlainFlow cs).map fun (s, rest) => (.plain s, rest)

/-- Reads the items of a flow sequence up to its closing bracket. -/
def readFlowItems : (fuel : Nat) → List Char → Option (List Value × List Char)
  | 0, _ => none
  | n + 1, cs =>
    match skipFlow cs with
    | ']' :: rest => some ([], rest)
    | cs =>
      match readFlow n cs with
      | none => none
      | some (v, rest) =>
        match skipFlow rest with
        | ',' :: rest => (readFlowItems n rest).map fun (vs, rest) => (v :: vs, rest)
        | ']' :: rest => some ([v], rest)
        | _ => none

/-- Reads the members of a flow mapping up to its closing brace. -/
def readFlowMembers : (fuel : Nat) → List Char → Option (List (String × Value) × List Char)
  | 0, _ => none
  | n + 1, cs =>
    match skipFlow cs with
    | '}' :: rest => some ([], rest)
    | cs =>
      match readFlowKey cs with
      | none => none
      | some (k, rest) =>
        match readFlowValue n (skipFlow rest) with
        | none => none
        | some (v, rest) =>
          match skipFlow rest with
          | ',' :: rest => (readFlowMembers n rest).map fun (ms, rest) => ((k, v) :: ms, rest)
          | '}' :: rest => some ([(k, v)], rest)
          | _ => none

/-- Reads what follows the key of a member: a colon and a value, either of which may be missing. -/
def readFlowValue : (fuel : Nat) → List Char → Option (Value × List Char)
  | 0, _ => none
  | n + 1, cs =>
    match cs with
    | ':' :: rest =>
      match skipFlow rest with
      | ',' :: rest => some (.plain "", ',' :: rest)
      | '}' :: rest => some (.plain "", '}' :: rest)
      | rest => readFlow n rest
    | cs => some (.plain "", cs)

end

/-! ## Block collections -/

/-- The part of a line before a comment. -/
def beforeComment (afterGap : Bool) : List Char → List Char
  | [] => []
  | c :: rest => if c == '#' && afterGap then [] else c :: beforeComment (isGap c) rest

/-- The parts of a text around the first colon that ends a token. -/
def splitColon : List Char → Option (List Char × List Char)
  | [] => none
  | c :: rest =>
    if c == ':' && endsToken rest then some ([], rest)
    else (splitColon rest).map fun (k, after) => (c :: k, after)

/-- The key that a line begins with, and what follows its colon. -/
def keyOf? (body : List Char) : Option (String × List Char) :=
  match readQuoted body with
  | some (k, rest) =>
    match rest.dropWhile isGap with
    | ':' :: after => if endsToken after then some (String.ofList k, after) else none
    | _ => none
  | none =>
    if startsPlain body then
      match splitColon (beforeComment false body) with
      | some (k, _) =>
        some (String.ofList (trimEnd k), body.drop (k.length + 1))
      | none => none
    else none

/-- A text as lines, the rest of the current line first. -/
def toLines (cs : List Char) : List (List Char) :=
  match cs.span (· != '\n') with
  | (line, []) => [line]
  | (line, _ :: rest) => line :: Text.splitLines '\r' '\n' rest

/-- Lines as a text. -/
def ofLines (line : List Char) (lines : List (List Char)) : List Char :=
  line ++ lines.flatMap ('\n' :: ·)

/-- What follows a value that ends within a line: nothing more on that line. -/
def afterInline (v : Value) (rest : List Char) : Option (Value × List (List Char)) :=
  match toLines rest with
  | [] => some (v, [])
  | line :: lines => if isRemark line then some (v, lines) else none

/-- The lines that continue a plain scalar, and the lines after them. -/
def spanContinuation (minIndent : Nat) (lines : List (List Char)) :
    List (List Char) × List (List Char) :=
  lines.span fun line => !isRemark line && decide (minIndent ≤ indentOf line)

/-- Reads a plain scalar that begins on a line. -/
def readPlain (minIndent : Nat) (body : List Char) (lines : List (List Char)) :
    Option (Value × List (List Char)) :=
  if startsPlain body then
    let (more, rest) := spanContinuation minIndent lines
    let parts := (body :: more.map (·.dropWhile isGap)).map fun l => trimEnd (beforeComment false l)
    let word := [' '].intercalate parts
    if (splitColon word).isSome then none else some (.plain (String.ofList word), rest)
  else none

/-- Reads a scalar or a flow collection that begins on a line. -/
def readInline (minIndent : Nat) (body : List Char) (lines : List (List Char)) :
    Option (Value × List (List Char)) :=
  let cs := ofLines body lines
  match body with
  | '[' :: _ => readFlow (2 * cs.length + 2) cs >>= fun (v, rest) => afterInline v rest
  | '{' :: _ => readFlow (2 * cs.length + 2) cs >>= fun (v, rest) => afterInline v rest
  | '"' :: _ => readQuoted cs >>= fun (s, rest) => afterInline (.text (String.ofList s)) rest
  | '\'' :: _ => readQuoted cs >>= fun (s, rest) => afterInline (.text (String.ofList s)) rest
  | _ => readPlain minIndent body lines

mutual

/-- Reads the node that the lines begin with, if they are indented by at least `minIndent`. -/
def readBlock : (fuel minIndent : Nat) → List (List Char) → Option (Value × List (List Char))
  | 0, _, _ => none
  | n + 1, minIndent, lines =>
    match dropRemarks lines with
    | [] => some (.plain "", [])
    | line :: rest =>
      let indent := indentOf line
      let body := line.drop indent
      if indent < minIndent then some (.plain "", line :: rest)
      else if isDash body then
        (readSequence n indent (line :: rest)).map fun (vs, rest) => (.list vs, rest)
      else if (keyOf? body).isSome then
        (readMapping n indent (line :: rest)).map fun (ms, rest) => (.table ms, rest)
      else readInline minIndent body rest

/-- Reads the items of a block sequence at an indentation. -/
def readSequence : (fuel indent : Nat) → List (List Char) →
    Option (List Value × List (List Char))
  | 0, _, _ => none
  | n + 1, indent, lines =>
    match dropRemarks lines with
    | [] => some ([], [])
    | line :: rest =>
      if indentOf line = indent && isDash (line.drop indent) then
        match readBlock n (indent + 1)
            ((List.replicate (indent + 1) ' ' ++ line.drop (indent + 1)) :: rest) with
        | none => none
        | some (v, rest) => (readSequence n indent rest).map fun (vs, rest) => (v :: vs, rest)
      else if indentOf line ≤ indent then some ([], line :: rest)
      else none

/-- Reads the members of a block mapping at an indentation. -/
def readMapping : (fuel indent : Nat) → List (List Char) →
    Option (List (String × Value) × List (List Char))
  | 0, _, _ => none
  | n + 1, indent, lines =>
    match dropRemarks lines with
    | [] => some ([], [])
    | line :: rest =>
      if indentOf line < indent then some ([], line :: rest)
      else if indent < indentOf line then none
      else
        match keyOf? (line.drop indent) with
        | none => none
        | some (k, after) =>
          match readMember n indent after rest with
          | none => none
          | some (v, rest) => (readMapping n indent rest).map fun (ms, rest) => ((k, v) :: ms, rest)

/-- Reads the value of a member: on the line of its key, or below it. -/
def readMember : (fuel indent : Nat) → List Char → List (List Char) →
    Option (Value × List (List Char))
  | 0, _, _, _ => none
  | n + 1, indent, after, lines =>
    if isRemark after then
      match dropRemarks lines with
      | [] => some (.plain "", [])
      | next :: rest =>
        if indent < indentOf next then readBlock n (indent + 1) (next :: rest)
        else if indentOf next = indent && isDash (next.drop indent) then
          (readSequence n indent (next :: rest)).map fun (vs, rest) => (.list vs, rest)
        else some (.plain "", next :: rest)
    else readInline (indent + 1) (after.dropWhile isGap) lines

end

/-! ## Documents -/

/-- The line that starts a document. -/
def isStart : List Char → Bool
  | '-' :: '-' :: '-' :: rest => endsToken rest
  | _ => false

/-- The line that ends a document. -/
def isEnd : List Char → Bool
  | '.' :: '.' :: '.' :: rest => endsToken rest
  | _ => false

/-- The lines of a document without its start. -/
def documentLines (lines : List (List Char)) : List (List Char) :=
  match dropRemarks lines with
  | [] => []
  | line :: rest =>
    if isStart line then (List.replicate 3 ' ' ++ line.drop 3) :: rest else line :: rest

/-- Reads a text that holds one document. -/
def parse? (s : String) : Option Value :=
  let lines := documentLines (Text.splitLines '\r' '\n' s.toList)
  let (body, after) := lines.span fun line => !isEnd line
  if lines.any isStart || !(dropRemarks (after.drop 1)).isEmpty then none
  else
    match readBlock (4 * s.length + 4) 0 body with
    | some (v, rest) => if (dropRemarks rest).isEmpty then some v else none
    | none => none

end RitualGate.Data.Yaml
