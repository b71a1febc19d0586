import RitualGate.Data.Json.Printer
import RitualGate.Data.Json.Reader

/-!
# Reading what was written

The reader of JSON undoes the printers: `parse?_compact` and `parse?_pretty` read a value back from
its compact form and from its form over several lines, if the value is `Writable`, that is, made of
nothing that JSON has no words for. Both forms are one text with other blanks between its parts
(`spacedChars`, `spacedChars_tight`, `spacedChars_wide`). The induction is carried by
`readValue_spacedChars`, which says the same of such a text with anything behind it that does not go
on with a number.
-/

namespace RitualGate.Data

/-- A value that JSON has words for. -/
inductive Value.Writable : Value → Prop
  | null : Writable .null
  | bool (b : Bool) : Writable (.bool b)
  | int (n : Int) : Writable (.int n)
  | text (s : String) : Writable (.text s)
  | list {items : List Value} (h : ∀ v ∈ items, Writable v) : Writable (.list items)
  | table {members : List (String × Value)} (h : ∀ m ∈ members, Writable m.2) :
    Writable (.table members)

namespace Value

@[simp] theorem writable_text (s : String) : (text s).Writable := .text s

@[simp] theorem writable_int (n : Int) : (int n).Writable := .int n

@[simp] theorem writable_nat (n : Nat) : (nat n).Writable := .int n

@[simp] theorem writable_table_nil : (table []).Writable :=
  .table (List.forall_mem_nil _)

@[simp] theorem writable_table_cons {name : String} {v : Value} {ms : List (String × Value)} :
    (table ((name, v) :: ms)).Writable ↔ v.Writable ∧ (table ms).Writable := by
  constructor
  · rintro (_ | _ | _ | _ | _ | h)
    exact ⟨h _ List.mem_cons_self, .table fun m hm => h m (List.mem_cons_of_mem _ hm)⟩
  · rintro ⟨hv, _ | _ | _ | _ | _ | h⟩
    exact .table (List.forall_mem_cons.2 ⟨hv, h⟩)

theorem writable_list_map {α : Type} {f : α → Value} (h : ∀ a, (f a).Writable) (as : List α) :
    (list (as.map f)).Writable := by
  refine .list fun v hv => ?_
  obtain ⟨a, -, rfl⟩ := List.mem_map.1 hv
  exact h a

theorem writable_table_map {α : Type} {f : α → String × Value} (h : ∀ a, (f a).2.Writable)
    (as : List α) : (table (as.map f)).Writable := by
  refine .table fun m hm => ?_
  obtain ⟨a, -, rfl⟩ := List.mem_map.1 hm
  exact h a

@[simp] theorem writable_texts (ss : List String) : (texts ss).Writable :=
  writable_list_map .text ss

theorem writable_option {α : Type} {f : α → Value} (h : ∀ a, (f a).Writable) (o : Option α) :
    (option f o).Writable := by
  cases o with
  | none => exact .null
  | some a => exact h a

end Value

namespace Json

/-! ## Blanks -/

theorem isSpace_eq_true_iff {c : Char} :
    isSpace c = true ↔ c = ' ' ∨ c = '\n' ∨ c = '\t' ∨ c = '\r' := by
  simp [isSpace, or_assoc]

theorem isSpace_number {c : Char} (h : c = '-' ∨ c.isDigit = true) : isSpace c = false := by
  rw [Bool.eq_false_iff]
  intro hc
  rcases isSpace_eq_true_iff.1 hc with rfl | rfl | rfl | rfl <;> revert h <;> decide

theorem skipSpace_cons {c : Char} (h : isSpace c = false) (cs : List Char) :
    skipSpace (c :: cs) = c :: cs := by
  simp [skipSpace, h]

/-! ## Texts -/

theorem hexValue?_hexDigit : ∀ d < 16, Text.hexValue? (hexDigit d) = some d := by
  decide

theorem hexFour?_control {n : Nat} (h : n < 32) :
    hexFour? '0' '0' (hexDigit (n / 16)) (hexDigit (n % 16)) = some n := by
  have hzero : Text.hexValue? '0' = some 0 := by decide
  have hhigh := hexValue?_hexDigit (n / 16) (by omega)
  have hlow := hexValue?_hexDigit (n % 16) (by omega)
  have hsum : ((0 * 16 + 0) * 16 + n / 16) * 16 + n % 16 = n := by omega
  simp only [hexFour?, hzero, hhigh, hlow, Option.bind_eq_bind, Option.bind_some, Option.pure_def,
    hsum]

theorem readCodes_plain {c : Char} (hquote : c ≠ '"') (hslash : c ≠ '\\') (hspace : ¬ c.toNat < 32)
    (rest : List Char) : readCodes (c :: rest) = consCode c.toNat (readCodes rest) := by
  rw [readCodes.eq_def]
  split
  · rename_i heq
    cases heq
  · rename_i heq
    cases heq
    exact absurd rfl hquote
  · rename_i heq
    cases heq
    exact absurd rfl hslash
  · rename_i heq
    cases heq
    exact absurd rfl hslash
  · rename_i heq
    cases heq
    exact if_neg hspace

/-- The reader of codes takes an escaped character for the character. -/
theorem readCodes_escapeChar (c : Char) (rest : List Char) :
    readCodes (escapeChar c ++ rest) = consCode c.toNat (readCodes rest) := by
  unfold escapeChar
  split
  · subst c
    rfl
  split
  · subst c
    rfl
  split
  · subst c
    rfl
  split
  · subst c
    rfl
  split
  · subst c
    rfl
  split
  · rename_i h
    rw [h]
    rfl
  split
  · rename_i h
    rw [h]
    rfl
  split
  · rename_i h
    simp only [List.cons_append, List.nil_append, readCodes, hexFour?_control h]
  · rename_i hquote hslash _ _ _ _ _ hspace
    exact readCodes_plain hquote hslash hspace rest

theorem readCodes_escaped (cs rest : List Char) :
    readCodes (cs.flatMap escapeChar ++ '"' :: rest) = some (cs.map Char.toNat, rest) := by
  induction cs with
  | nil => rfl
  | cons c cs ih =>
    rw [List.flatMap_cons, List.append_assoc, readCodes_escapeChar, ih]
    rfl

theorem not_half (c : Char) : isHighHalf c.toNat = false ∧ isLowHalf c.toNat = false := by
  have hvalid : c.toNat < 0xD800 ∨ 0xDFFF < c.toNat ∧ c.toNat < 0x110000 := c.valid
  simp only [isHighHalf, isLowHalf, Bool.and_eq_false_iff, decide_eq_false_iff_not]
  omega

theorem joinCodes?_cons (c : Char) (codes : List Nat) :
    joinCodes? (c.toNat :: codes) = (joinCodes? codes).map (c :: ·) := by
  obtain ⟨hhigh, hlow⟩ := not_half c
  cases codes <;> simp [joinCodes?, hhigh, hlow, Char.ofNat_toNat]

theorem textOfCodes?_toNat (s : String) : textOfCodes? (s.toList.map Char.toNat) = some s := by
  have hjoin (cs : List Char) : joinCodes? (cs.map Char.toNat) = some cs := by
    induction cs with
    | nil => rfl
    | cons c cs ih => rw [List.map_cons, joinCodes?_cons, ih, Option.map_some]
  rw [textOfCodes?, hjoin, Option.map_some, String.ofList_toList]

theorem quote_append (s : String) (rest : List Char) :
    quote s ++ rest = '"' :: (s.toList.flatMap escapeChar ++ '"' :: rest) := by
  simp [quote]

/-! ## Numbers -/

/-- What does not go on with a number. -/
def Stops (rest : List Char) : Prop :=
  ∀ c ∈ rest.head?, c.isDigit = false ∧ c ≠ '.' ∧ c ≠ 'e' ∧ c ≠ 'E'

theorem stops_cons {c : Char} (h : c.isDigit = false ∧ c ≠ '.' ∧ c ≠ 'e' ∧ c ≠ 'E')
    (cs : List Char) : Stops (c :: cs) := by
  intro d hd
  rw [List.head?_cons, Option.mem_some_iff] at hd
  exact hd ▸ h

theorem stops_nil : Stops [] := nofun

theorem numeralChars_digits (n : Nat) : ∀ c ∈ Text.numeralChars n, c.isDigit = true := fun _ hc =>
  Nat.isDigit_of_mem_toDigits (by decide) (by decide) hc

/-- A numeral begins with a zero only if it is that of zero. -/
theorem numeralChars_cases (n : Nat) : n = 0 ∨
    ∃ c cs, Text.numeralChars n = c :: cs ∧ c ≠ '0' := by
  have digit : ∀ d < 10, 0 < d → Nat.digitChar d ≠ '0' := by decide
  induction n using Nat.strongRecOn with
  | ind n ih =>
    by_cases hzero : n = 0
    · exact .inl hzero
    right
    by_cases hlt : n < 10
    · exact ⟨_, [], Nat.toDigits_of_lt_base hlt, digit n hlt (by omega)⟩
    · obtain h | ⟨c, cs, hcs, hc⟩ := ih (n / 10) (by omega)
      · omega
      · refine ⟨c, cs ++ [(n % 10).digitChar], ?_, hc⟩
        rw [Text.numeralChars, Nat.toDigits_of_base_le (by decide) (by omega)]
        rw [Text.numeralChars] at hcs
        rw [hcs, List.cons_append]

theorem readDigits_append {ds rest : List Char} (hne : ds ≠ []) (hds : ∀ c ∈ ds, c.isDigit = true)
    (hrest : Stops rest) : readDigits (ds ++ rest) = some (ds, rest) := by
  have htake : rest.takeWhile Char.isDigit = [] := by
    cases rest with
    | nil => rfl
    | cons c cs => rw [List.takeWhile_cons, (hrest c rfl).1, if_neg Bool.false_ne_true]
  have hdrop : rest.dropWhile Char.isDigit = rest := by
    cases rest with
    | nil => rfl
    | cons c cs => rw [List.dropWhile_cons, (hrest c rfl).1, if_neg Bool.false_ne_true]
  simp only [readDigits]
  rw [List.takeWhile_append_of_pos hds, List.dropWhile_append_of_pos hds, htake, hdrop,
    List.append_nil, if_neg (by simpa using hne)]

theorem readWhole_numeral (n : Nat) {rest : List Char} (hrest : Stops rest) :
    readWhole (Text.numeralChars n ++ rest) = some (Text.numeralChars n, rest) := by
  obtain rfl | ⟨c, cs, hcs, hc⟩ := numeralChars_cases n
  · rfl
  · have hread : readDigits (Text.numeralChars n ++ rest) = some (Text.numeralChars n, rest) :=
      readDigits_append (by simp [hcs]) (numeralChars_digits n) hrest
    rw [hcs, List.cons_append] at hread ⊢
    rw [readWhole.eq_def]
    split
    · rename_i heq
      cases heq
      exact absurd rfl hc
    · exact hread

theorem readFraction_stops {rest : List Char} (hrest : Stops rest) :
    readFraction rest = some ([], rest) := by
  rw [readFraction.eq_def]
  split
  · exact absurd rfl (hrest _ rfl).2.1
  · rfl

theorem readExponent_stops {rest : List Char} (hrest : Stops rest) :
    readExponent rest = some ([], rest) := by
  rw [readExponent.eq_def]
  split
  · exact absurd rfl (hrest _ rfl).2.2.1
  · exact absurd rfl (hrest _ rfl).2.2.2
  · rfl

theorem readUnsigned_numeral {negative : Bool} {n : Nat} (hsign : (negative && n == 0) = false)
    {rest : List Char} (hrest : Stops rest) :
    readUnsigned negative (Text.numeralChars n ++ rest) =
      some (.int (if negative then -(n : Int) else n), rest) := by
  have hvalue : Nat.ofDigitChars 10 (Text.numeralChars n) 0 = n := Nat.ofDigitChars_ten_toDigits
  simp only [readUnsigned, readWhole_numeral n hrest, readFraction_stops hrest,
    readExponent_stops hrest, Option.bind_eq_bind, Option.bind_some, hvalue, hsign]
  rfl

theorem readNumber_digit {c : Char} (h : c.isDigit = true) (cs : List Char) :
    readNumber (c :: cs) = readUnsigned false (c :: cs) := by
  rw [readNumber.eq_def]
  split
  · rename_i heq
    cases heq
    exact absurd h (by decide)
  · rfl

theorem readNumber_intChars (n : Int) {rest : List Char} (hrest : Stops rest) :
    readNumber (intChars n ++ rest) = some (.int n, rest) := by
  cases n with
  | ofNat n =>
    have hread : readUnsigned false (Text.numeralChars n ++ rest) = some (.int n, rest) :=
      readUnsigned_numeral rfl hrest
    cases hcs : Text.numeralChars n with
    | nil => exact absurd hcs Nat.toDigits_ne_nil
    | cons c cs =>
      have hc : c.isDigit = true := numeralChars_digits n c (by simp [hcs])
      rw [intChars, hcs, List.cons_append, readNumber_digit hc]
      rw [hcs, List.cons_append] at hread
      exact hread
  | negSucc n => exact readUnsigned_numeral rfl hrest

/-! ## Values -/

theorem readValue_number {c : Char} (h : c = '-' ∨ c.isDigit = true) {cs ds : List Char}
    (hcs : skipSpace cs = c :: ds) (n : Nat) : readValue (n + 1) cs = readNumber (c :: ds) := by
  rw [readValue, hcs]
  split
  case h_7 => rfl
  all_goals
    rename_i heq
    cases heq
    exact absurd h (by decide)

theorem intChars_head (n : Int) : ∃ c cs, intChars n = c :: cs ∧ (c = '-' ∨ c.isDigit = true) := by
  cases n with
  | ofNat n =>
    cases hcs : Text.numeralChars n with
    | nil => exact absurd hcs Nat.toDigits_ne_nil
    | cons c cs => exact ⟨c, cs, hcs, .inr (numeralChars_digits n c (by simp [hcs]))⟩
  | negSucc n => exact ⟨'-', _, rfl, .inl rfl⟩

/-! ## Values with blanks between their parts -/

/-- The blanks between the parts of a value: those in front of an item, a member or a closing
bracket at a depth, and those behind a colon. -/
structure Spacing where
  gap : Nat → List Char
  colon : List Char
  gap_blank : ∀ depth, ∀ c ∈ gap depth, isSpace c = true
  colon_blank : ∀ c ∈ colon, isSpace c = true

namespace Spacing

/-- No blanks at all. -/
def tight : Spacing := ⟨fun _ => [], [], fun _ => List.forall_mem_nil _, List.forall_mem_nil _⟩

theorem newline_blank (depth : Nat) : ∀ c ∈ newline depth, isSpace c = true := by
  intro c hc
  rcases List.mem_cons.1 hc with rfl | hc
  · rfl
  · rw [List.eq_of_mem_replicate hc]
    rfl

/-- A line for each part. -/
def wide : Spacing :=
  ⟨newline, [' '], newline_blank, fun _ hc => List.mem_singleton.1 hc ▸ rfl⟩

end Spacing

variable (sp : Spacing)

mutual

/-- A value at a depth, with blanks between its parts. -/
def spacedChars (depth : Nat) : Value → List Char
  | .list [] => ['[', ']']
  | .table [] => ['{', '}']
  | .list (v :: vs) =>
    '[' :: (sp.gap (depth + 1) ++ (spacedChars (depth + 1) v ++ spacedItems depth vs))
  | .table ((k, v) :: ms) =>
    '{' :: (sp.gap (depth + 1) ++ (quote k ++
      ':' :: (sp.colon ++ (spacedChars (depth + 1) v ++ spacedMembers depth ms))))
  | v => compactChars v

/-- The items after the first of a list, up to the closing bracket. -/
def spacedItems (depth : Nat) : List Value → List Char
  | [] => sp.gap depth ++ [']']
  | v :: vs => ',' :: (sp.gap (depth + 1) ++ (spacedChars (depth + 1) v ++ spacedItems depth vs))

/-- The members after the first of a table, up to the closing brace. -/
def spacedMembers (depth : Nat) : List (String × Value) → List Char
  | [] => sp.gap depth ++ ['}']
  | (k, v) :: ms =>
    ',' :: (sp.gap (depth + 1) ++ (quote k ++
      ':' :: (sp.colon ++ (spacedChars (depth + 1) v ++ spacedMembers depth ms))))

end

section Equations

-- each by computation: the equations that the mutual recursion would give are slow to come by
variable (depth : Nat) (k : String) (v : Value) (vs : List Value) (ms : List (String × Value))

theorem spacedChars_int (n : Int) : spacedChars sp depth (.int n) = intChars n := rfl

theorem spacedChars_text (s : String) : spacedChars sp depth (.text s) = quote s := rfl

theorem spacedChars_list : spacedChars sp depth (.list (v :: vs)) =
    '[' :: (sp.gap (depth + 1) ++ (spacedChars sp (depth + 1) v ++ spacedItems sp depth vs)) := rfl

theorem spacedChars_table : spacedChars sp depth (.table ((k, v) :: ms)) =
    '{' :: (sp.gap (depth + 1) ++ (quote k ++
      ':' :: (sp.colon ++ (spacedChars sp (depth + 1) v ++ spacedMembers sp depth ms)))) := rfl

theorem spacedItems_nil : spacedItems sp depth [] = sp.gap depth ++ [']'] := rfl

theorem spacedItems_cons : spacedItems sp depth (v :: vs) =
    ',' :: (sp.gap (depth + 1) ++ (spacedChars sp (depth + 1) v ++ spacedItems sp depth vs)) := rfl

theorem spacedMembers_nil : spacedMembers sp depth [] = sp.gap depth ++ ['}'] := rfl

theorem spacedMembers_cons : spacedMembers sp depth ((k, v) :: ms) =
    ',' :: (sp.gap (depth + 1) ++ (quote k ++
      ':' :: (sp.colon ++ (spacedChars sp (depth + 1) v ++ spacedMembers sp depth ms)))) := rfl

end Equations

mutual

theorem spacedChars_tight (depth : Nat) : ∀ v, spacedChars .tight depth v = compactChars v
  | .list [] => rfl
  | .table [] => rfl
  | .list (v :: vs) => by
    rw [spacedChars_list, spacedChars_tight (depth + 1) v, spacedItems_tight depth vs]
    rfl
  | .table ((k, v) :: ms) => by
    rw [spacedChars_table, spacedChars_tight (depth + 1) v, spacedMembers_tight depth ms]
    rfl
  | .null => rfl
  | .bool _ => rfl
  | .int _ => rfl
  | .real _ => rfl
  | .text _ => rfl
  | .plain _ => rfl
  | .unpaired => rfl

theorem spacedItems_tight (depth : Nat) : ∀ vs, spacedItems .tight depth vs = compactMoreItems vs
  | [] => rfl
  | v :: vs => by
    rw [spacedItems_cons, spacedChars_tight (depth + 1) v, spacedItems_tight depth vs]
    rfl

theorem spacedMembers_tight (depth : Nat) :
    ∀ ms, spacedMembers .tight depth ms = compactMoreMembers ms
  | [] => rfl
  | (k, v) :: ms => by
    rw [spacedMembers_cons, spacedChars_tight (depth + 1) v, spacedMembers_tight depth ms]
    rfl

end

mutual

theorem spacedChars_wide (depth : Nat) : ∀ v, spacedChars .wide depth v = prettyChars depth v
  | .list [] => rfl
  | .table [] => rfl
  | .list (v :: vs) => by
    rw [spacedChars_list, spacedChars_wide (depth + 1) v, spacedItems_wide depth vs]
    exact congrArg ('[' :: ·) (List.append_assoc _ _ _).symm
  | .table ((k, v) :: ms) => by
    rw [spacedChars_table, spacedChars_wide (depth + 1) v, spacedMembers_wide depth ms]
    exact congrArg ('{' :: ·) (List.append_assoc _ _ _).symm
  | .null => rfl
  | .bool true => rfl
  | .bool false => rfl
  | .int _ => rfl
  | .real _ => rfl
  | .text _ => rfl
  | .plain _ => rfl
  | .unpaired => rfl

theorem spacedItems_wide (depth : Nat) : ∀ vs, spacedItems .wide depth vs = prettyItems depth vs
  | [] => rfl
  | v :: vs => by
    rw [spacedItems_cons, spacedChars_wide (depth + 1) v, spacedItems_wide depth vs]
    exact congrArg (',' :: ·) (List.append_assoc _ _ _).symm

theorem spacedMembers_wide (depth : Nat) :
    ∀ ms, spacedMembers .wide depth ms = prettyMembers depth ms
  | [] => rfl
  | (k, v) :: ms => by
    rw [spacedMembers_cons, spacedChars_wide (depth + 1) v, spacedMembers_wide depth ms]
    exact congrArg (',' :: ·) (List.append_assoc _ _ _).symm

end

/-! ## Reading past blanks -/

theorem skipSpace_blanks_append {bs : List Char} (h : ∀ b ∈ bs, isSpace b = true)
    (cs : List Char) : skipSpace (bs ++ cs) = skipSpace cs :=
  List.dropWhile_append_of_pos h

theorem stops_blanks_append {bs : List Char} (h : ∀ b ∈ bs, isSpace b = true) {rest : List Char}
    (hrest : Stops rest) : Stops (bs ++ rest) := by
  cases bs with
  | nil => exact hrest
  | cons b bs =>
    refine stops_cons ?_ _
    rcases isSpace_eq_true_iff.1 (h b List.mem_cons_self) with rfl | rfl | rfl | rfl <;> decide

theorem readValue_blanks_append {bs : List Char} (h : ∀ b ∈ bs, isSpace b = true) (n : Nat)
    (cs : List Char) : readValue n (bs ++ cs) = readValue n cs := by
  cases n with
  | zero => rfl
  | succ n => simp only [readValue, skipSpace_blanks_append h]

theorem readItems_blanks_append {bs : List Char} (h : ∀ b ∈ bs, isSpace b = true) (n : Nat)
    (cs : List Char) : readItems n (bs ++ cs) = readItems n cs := by
  cases n with
  | zero => rfl
  | succ n => simp only [readItems, readValue_blanks_append h]

theorem readMembers_blanks_append {bs : List Char} (h : ∀ b ∈ bs, isSpace b = true) (n : Nat)
    (cs : List Char) : readMembers n (bs ++ cs) = readMembers n cs := by
  cases n with
  | zero => rfl
  | succ n => simp only [readMembers, skipSpace_blanks_append h]

/-! ## Reading what was written -/

/-- The text of a value begins with neither a blank nor a closing bracket. -/
theorem spacedChars_head {v : Value} (h : v.Writable) (depth : Nat) :
    ∃ c cs, spacedChars sp depth v = c :: cs ∧ isSpace c = false ∧ c ≠ ']' := by
  cases h with
  | null => exact ⟨'n', _, rfl, by decide⟩
  | bool b => cases b <;> exact ⟨_, _, rfl, by decide⟩
  | int n =>
    obtain ⟨c, cs, hcs, hc⟩ := intChars_head n
    refine ⟨c, cs, by rw [spacedChars_int, hcs], isSpace_number hc, ?_⟩
    rintro rfl
    revert hc
    decide
  | text s => exact ⟨'"', _, rfl, by decide⟩
  | @list items _ => cases items <;> exact ⟨'[', _, rfl, by decide⟩
  | @table members _ => cases members <;> exact ⟨'{', _, rfl, by decide⟩

theorem exists_fuel {v : Value} (h : v.Writable) {depth n : Nat}
    (hn : (spacedChars sp depth v).length ≤ n) : ∃ m, n = m + 1 := by
  obtain ⟨c, cs, hcs, -⟩ := spacedChars_head sp h depth
  rw [hcs, List.length_cons] at hn
  exact ⟨n - 1, by omega⟩

/-- A value is read from its text, whatever follows. -/
def Reads (v : Value) : Prop :=
  ∀ (depth : Nat) {n : Nat} {rest : List Char}, (spacedChars sp depth v).length ≤ n → Stops rest →
    readValue n (spacedChars sp depth v ++ rest) = some (v, rest)

theorem stops_spacedItems (depth : Nat) (items : List Value) (rest : List Char) :
    Stops (spacedItems sp depth items ++ rest) := by
  cases items with
  | nil =>
    rw [spacedItems_nil, List.append_assoc]
    exact stops_blanks_append (sp.gap_blank depth) (stops_cons (by decide) _)
  | cons v vs => exact stops_cons (by decide) _

theorem stops_spacedMembers (depth : Nat) (members : List (String × Value)) (rest : List Char) :
    Stops (spacedMembers sp depth members ++ rest) := by
  rcases members with _ | ⟨⟨k, v⟩, ms⟩
  · rw [spacedMembers_nil, List.append_assoc]
    exact stops_blanks_append (sp.gap_blank depth) (stops_cons (by decide) _)
  · exact stops_cons (by decide) _

variable {sp}

theorem readItems_spaced {v : Value} {vs : List Value} (h : ∀ u ∈ v :: vs, Reads sp u)
    (depth : Nat) {n : Nat}
    (hn : (spacedChars sp (depth + 1) v ++ spacedItems sp depth vs).length ≤ n)
    (rest : List Char) :
    readItems n (spacedChars sp (depth + 1) v ++ (spacedItems sp depth vs ++ rest)) =
      some (v :: vs, rest) := by
  induction vs generalizing v n with
  | nil =>
    rw [List.length_append] at hn
    simp only [spacedItems_nil, List.length_append, List.length_singleton] at hn
    obtain ⟨m, rfl⟩ : ∃ m, n = m + 1 := ⟨n - 1, by omega⟩
    have hread : Reads sp v := h v (by simp)
    rw [readItems, hread (depth + 1) (by omega) (stops_spacedItems sp depth [] rest)]
    simp only [spacedItems_nil, List.append_assoc, skipSpace_blanks_append (sp.gap_blank depth)]
    rfl
  | cons u us ih =>
    rw [List.length_append] at hn
    simp only [spacedItems_cons, List.length_cons, List.length_append] at hn
    obtain ⟨m, rfl⟩ : ∃ m, n = m + 1 := ⟨n - 1, by omega⟩
    have hread : Reads sp v := h v (by simp)
    have hlength : (spacedChars sp (depth + 1) u ++ spacedItems sp depth us).length ≤ m := by
      rw [List.length_append]
      omega
    have hus := ih (fun x hx => h x (List.mem_cons_of_mem _ hx)) hlength
    rw [readItems, hread (depth + 1) (by omega) (stops_spacedItems sp depth (u :: us) rest)]
    simp only [spacedItems_cons, List.cons_append, List.append_assoc,
      skipSpace_cons (show isSpace ',' = false from rfl),
      readItems_blanks_append (sp.gap_blank (depth + 1)), hus, Option.map_some]

theorem readMembers_spaced {k : String} {v : Value} {ms : List (String × Value)}
    (h : ∀ m ∈ (k, v) :: ms, Reads sp m.2) (depth : Nat) {n : Nat}
    (hn : (quote k ++ ':' :: (sp.colon ++ (spacedChars sp (depth + 1) v ++
      spacedMembers sp depth ms))).length ≤ n) (rest : List Char) :
    readMembers n (quote k ++ ':' :: (sp.colon ++ (spacedChars sp (depth + 1) v ++
      (spacedMembers sp depth ms ++ rest)))) = some (.table ((k, v) :: ms), rest) := by
  induction ms generalizing k v n with
  | nil =>
    simp only [List.length_append, List.length_cons] at hn
    obtain ⟨m, rfl⟩ : ∃ m, n = m + 1 := ⟨n - 1, by omega⟩
    have hread : Reads sp v := h (k, v) (by simp)
    have hv := hread (depth + 1) (n := m) (by omega) (stops_spacedMembers sp depth [] rest)
    rw [readMembers, quote_append, skipSpace_cons rfl]
    simp only [readCodes_escaped, textOfCodes?_toNat, hv,
      skipSpace_cons (show isSpace ':' = false from rfl), readValue_blanks_append sp.colon_blank]
    simp only [spacedMembers_nil, List.append_assoc, skipSpace_blanks_append (sp.gap_blank depth)]
    rfl
  | cons m ms ih =>
    obtain ⟨l, u⟩ := m
    simp only [List.length_append, List.length_cons, spacedMembers_cons] at hn
    obtain ⟨m, rfl⟩ : ∃ m, n = m + 1 := ⟨n - 1, by omega⟩
    have hread : Reads sp v := h (k, v) (by simp)
    have hv := hread (depth + 1) (n := m) (by omega)
      (stops_spacedMembers sp depth ((l, u) :: ms) rest)
    have hlength : (quote l ++ ':' :: (sp.colon ++ (spacedChars sp (depth + 1) u ++
        spacedMembers sp depth ms))).length ≤ m := by
      simp only [List.length_append, List.length_cons]
      omega
    have hms := ih (fun x hx => h x (List.mem_cons_of_mem _ hx)) hlength
    rw [readMembers, quote_append, skipSpace_cons rfl]
    simp only [readCodes_escaped, textOfCodes?_toNat, hv,
      skipSpace_cons (show isSpace ':' = false from rfl), readValue_blanks_append sp.colon_blank]
    simp only [spacedMembers_cons, List.cons_append, List.append_assoc,
      skipSpace_cons (show isSpace ',' = false from rfl),
      readMembers_blanks_append (sp.gap_blank (depth + 1)), hms, Option.map_some, consMember]

/-- The reader undoes the printer. -/
theorem readValue_spacedChars {v : Value} (h : v.Writable) : Reads sp v := by
  induction h with
  | null =>
    intro depth n rest hn _
    obtain ⟨m, rfl⟩ := exists_fuel sp .null hn
    rfl
  | bool b =>
    intro depth n rest hn _
    obtain ⟨m, rfl⟩ := exists_fuel sp (.bool b) hn
    cases b <;> rfl
  | int i =>
    intro depth n rest hn hrest
    obtain ⟨m, rfl⟩ := exists_fuel sp (.int i) hn
    obtain ⟨c, cs, hcs, hc⟩ := intChars_head i
    have hread := readNumber_intChars i hrest
    rw [spacedChars_int]
    rw [hcs, List.cons_append] at hread ⊢
    rw [readValue_number hc (skipSpace_cons (isSpace_number hc) _), hread]
  | text s =>
    intro depth n rest hn _
    obtain ⟨m, rfl⟩ := exists_fuel sp (.text s) hn
    rw [spacedChars_text, quote_append, readValue, skipSpace_cons rfl]
    simp only [readCodes_escaped, textOfCodes?_toNat]
  | @list items h ih =>
    intro depth n rest hn _
    obtain ⟨m, rfl⟩ := exists_fuel sp (.list h) hn
    cases items with
    | nil => rfl
    | cons v vs =>
      rw [spacedChars_list, List.length_cons, List.length_append] at hn
      have hitems := readItems_spaced ih depth (n := m) (by omega) rest
      obtain ⟨c, cs, hcs, hspace, hc⟩ := spacedChars_head sp (h v (by simp)) (depth + 1)
      rw [spacedChars_list, List.cons_append, List.append_assoc, List.append_assoc, readValue,
        skipSpace_cons rfl]
      rw [hcs, List.cons_append] at hitems ⊢
      simp only [skipSpace_blanks_append (sp.gap_blank (depth + 1)), skipSpace_cons hspace]
      split
      · rename_i heq
        cases heq
        exact absurd rfl hc
      · rw [hitems]
        rfl
  | @table members h ih =>
    intro depth n rest hn _
    obtain ⟨m, rfl⟩ := exists_fuel sp (.table h) hn
    rcases members with _ | ⟨⟨k, v⟩, ms⟩
    · rfl
    · rw [spacedChars_table, List.length_cons, List.length_append] at hn
      have hmembers := readMembers_spaced ih depth (n := m) (by omega) rest
      rw [spacedChars_table, List.cons_append, List.append_assoc, readValue, skipSpace_cons rfl]
      simp only [List.append_assoc, List.cons_append, quote_append] at hmembers ⊢
      simp only [skipSpace_blanks_append (sp.gap_blank (depth + 1)),
        skipSpace_cons (show isSpace '"' = false from rfl)]
      exact hmembers

theorem readValue_compactChars {v : Value} (h : v.Writable) {n : Nat} {rest : List Char}
    (hn : (compactChars v).length ≤ n) (hrest : Stops rest) :
    readValue n (compactChars v ++ rest) = some (v, rest) := by
  rw [← spacedChars_tight 0] at hn ⊢
  exact readValue_spacedChars h 0 hn hrest

theorem parse?_of_reads {v : Value} {cs : List Char}
    (h : ∀ n, cs.length ≤ n → readValue n (cs ++ []) = some (v, [])) :
    parse? (String.ofList cs) = some v := by
  have hread := h (2 * (String.ofList cs).length + 2) (by rw [String.length_ofList]; omega)
  rw [List.append_nil] at hread
  rw [parse?, String.toList_ofList, hread]
  rfl

theorem parse?_compact {v : Value} (h : v.Writable) : parse? (compact v) = some v :=
  parse?_of_reads fun _ hn => readValue_compactChars h hn stops_nil

theorem parse?_pretty {v : Value} (h : v.Writable) : parse? (pretty v) = some v := by
  refine parse?_of_reads fun n hn => ?_
  rw [← spacedChars_wide] at hn ⊢
  exact readValue_spacedChars h 0 hn stops_nil

/-! ## A compact form is one line -/

/-- A character that is no control character, and so ends no line. -/
def Prints (c : Char) : Prop := 32 ≤ c.toNat

instance (c : Char) : Decidable (Prints c) := inferInstanceAs (Decidable (32 ≤ c.toNat))

theorem prints_escapeChar (c : Char) : ∀ d ∈ escapeChar c, Prints d := by
  have digit : ∀ n < 16, 32 ≤ (hexDigit n).toNat := by decide
  unfold escapeChar Prints
  split
  · simp
  split
  · simp
  split
  · simp
  split
  · simp
  split
  · simp
  split
  · simp
  split
  · simp
  split
  · have hhigh := digit (c.toNat / 16) (by omega)
    have hlow := digit (c.toNat % 16) (by omega)
    simp [hhigh, hlow]
  · intro d hd
    obtain rfl := List.mem_singleton.1 hd
    omega

theorem prints_quote (s : String) : ∀ c ∈ quote s, Prints c := by
  have hquote : Prints '"' := by decide
  simp only [quote, List.forall_mem_cons, List.forall_mem_append, List.mem_flatMap]
  refine ⟨hquote, ?_, hquote, List.forall_mem_nil _⟩
  rintro c ⟨d, -, hc⟩
  exact prints_escapeChar d c hc

theorem prints_numeralChars (n : Nat) : ∀ c ∈ Text.numeralChars n, Prints c := by
  intro c hc
  have hdigit := numeralChars_digits n c hc
  simp only [Char.isDigit, Bool.and_eq_true, decide_eq_true_eq, UInt32.le_iff_toNat_le] at hdigit
  exact Nat.le_trans (by decide) hdigit.1

theorem prints_moreItems {vs : List Value} (h : ∀ v ∈ vs, ∀ c ∈ compactChars v, Prints c) :
    ∀ c ∈ compactMoreItems vs, Prints c := by
  have hclose : Prints ']' := by decide
  have hcomma : Prints ',' := by decide
  induction vs with
  | nil => simpa [compactMoreItems] using hclose
  | cons v vs ih =>
    obtain ⟨hv, hvs⟩ := List.forall_mem_cons.1 h
    simp only [compactMoreItems, List.forall_mem_cons, List.forall_mem_append]
    exact ⟨hcomma, hv, ih hvs⟩

theorem prints_moreMembers {ms : List (String × Value)}
    (h : ∀ m ∈ ms, ∀ c ∈ compactChars m.2, Prints c) :
    ∀ c ∈ compactMoreMembers ms, Prints c := by
  have hclose : Prints '}' := by decide
  have hcomma : Prints ',' := by decide
  have hcolon : Prints ':' := by decide
  induction ms with
  | nil => simpa [compactMoreMembers] using hclose
  | cons m ms ih =>
    obtain ⟨hv, hms⟩ := List.forall_mem_cons.1 h
    simp only [compactMoreMembers, List.forall_mem_cons, List.forall_mem_append]
    exact ⟨hcomma, prints_quote m.1, hcolon, hv, ih hms⟩

theorem prints_compactChars {v : Value} (h : v.Writable) : ∀ c ∈ compactChars v, Prints c := by
  induction h with
  | null => simp [compactChars, Prints]
  | bool b => cases b <;> simp [compactChars, Prints]
  | int n =>
    cases n with
    | ofNat n => exact prints_numeralChars n
    | negSucc n =>
      have hminus : Prints '-' := by decide
      exact List.forall_mem_cons.2 ⟨hminus, prints_numeralChars (n + 1)⟩
  | text s => exact prints_quote s
  | @list items h ih =>
    have hopen : Prints '[' := by decide
    rw [compactChars, List.forall_mem_cons]
    refine ⟨hopen, ?_⟩
    cases items with
    | nil => exact prints_moreItems ih
    | cons v vs =>
      obtain ⟨hv, hvs⟩ := List.forall_mem_cons.1 ih
      rw [compactItems, List.forall_mem_append]
      exact ⟨hv, prints_moreItems hvs⟩
  | @table members h ih =>
    have hopen : Prints '{' := by decide
    have hcolon : Prints ':' := by decide
    rw [compactChars, List.forall_mem_cons]
    refine ⟨hopen, ?_⟩
    cases members with
    | nil => exact prints_moreMembers ih
    | cons m ms =>
      obtain ⟨hv, hms⟩ := List.forall_mem_cons.1 ih
      rw [compactMembers, List.forall_mem_append, List.forall_mem_cons, List.forall_mem_append]
      exact ⟨prints_quote m.1, hcolon, hv, prints_moreMembers hms⟩

end Json

end RitualGate.Data
