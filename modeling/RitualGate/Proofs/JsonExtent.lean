import Mathlib.Data.List.TakeWhile
import RitualGate.Proofs.Json
import RitualGate.Text.Blank

/-!
# Where a value ends

A text, a list, a table or a word of JSON says itself where it ends, and a number ends where
something follows that is no part of it. So a value that was read is read again from a longer text,
and what follows it is longer by as much (`extends_readValue`). It follows that nothing but blanks
may stand behind a list or a table (`parse?_append_eq_none`), and that blanks in front of a value do
not matter (`parse?_blanks_append`).
-/

namespace RitualGate.Data

/-- Whether a value is a number, which does not say itself where it ends. -/
def Value.isNumber : Value → Bool
  | .int _ => true
  | .real _ => true
  | _ => false

namespace Json

/-! ## Blanks and texts -/

theorem skipSpace_append {cs ds : List Char} {d : Char} (h : skipSpace cs = d :: ds)
    (more : List Char) : skipSpace (cs ++ more) = d :: (ds ++ more) := by
  induction cs with
  | nil => cases h
  | cons c cs ih =>
    by_cases hc : isSpace c = true
    · rw [skipSpace, List.dropWhile_cons_of_pos hc] at h
      rw [List.cons_append, skipSpace, List.dropWhile_cons_of_pos hc]
      exact ih h
    · rw [Bool.not_eq_true] at hc
      rw [skipSpace_cons hc] at h
      cases h
      rw [List.cons_append, skipSpace_cons hc]

theorem skipSpace_eq_nil_iff {cs : List Char} :
    skipSpace cs = [] ↔ ∀ c ∈ cs, isSpace c = true :=
  List.dropWhile_eq_nil_iff

theorem consCode_eq_some {code : Nat} {x : Option (List Nat × List Char)} {codes : List Nat}
    {rest : List Char} (h : consCode code x = some (codes, rest)) :
    ∃ tail, x = some (tail, rest) ∧ codes = code :: tail := by
  rcases x with _ | ⟨tail, r⟩
  · cases h
  · cases h
    exact ⟨tail, rfl, rfl⟩

theorem readCodes_escape {c c' : Char} (hc : unescape? c = some c') (rest : List Char) :
    readCodes ('\\' :: c :: rest) = consCode c'.toNat (readCodes rest) := by
  have hnotU : c ≠ 'u' := by
    rintro rfl
    cases hc
  rw [readCodes.eq_def]
  split
  · rename_i heq
    cases heq
  · rename_i heq
    cases heq
  · rename_i heq
    cases heq
    exact absurd rfl hnotU
  · rename_i heq
    cases heq
    simp only [hc]
  · rename_i hescape heq
    cases heq
    exact (hescape c rest rfl rfl).elim

theorem readCodes_append {cs rest : List Char} {codes : List Nat}
    (h : readCodes cs = some (codes, rest)) (more : List Char) :
    readCodes (cs ++ more) = some (codes, rest ++ more) := by
  fun_induction readCodes cs generalizing codes with
  | case1 => cases h
  | case2 rest' =>
    cases h
    rfl
  | case3 a b c d rest' code hcode ih =>
    obtain ⟨tail, htail, rfl⟩ := consCode_eq_some h
    simp only [List.cons_append, readCodes, hcode, ih htail, consCode]
  | case4 => cases h
  | case5 c rest' hu c' hc' ih =>
    obtain ⟨tail, htail, rfl⟩ := consCode_eq_some h
    rw [List.cons_append, List.cons_append, readCodes_escape hc', ih htail, consCode]
  | case6 => cases h
  | case7 => cases h
  | case8 c rest' hquote hu hslash hspace ih =>
    obtain ⟨tail, htail, rfl⟩ := consCode_eq_some h
    have hc : c ≠ '\\' := by
      rintro rfl
      cases rest' with
      | nil => cases htail
      | cons d ds => exact hslash d ds rfl rfl
    rw [List.cons_append, readCodes_plain (fun hc => hquote hc) hc hspace, ih htail, consCode]

/-! ## Numbers -/

/-- A reader that goes on with what it read when more text follows, if it left some. -/
def Extends {α : Type} (read : List Char → Option (α × List Char)) : Prop :=
  ∀ ⦃cs rest : List Char⦄ ⦃a : α⦄, read cs = some (a, rest) → rest ≠ [] →
    cs ≠ [] ∧ ∀ more, read (cs ++ more) = some (a, rest ++ more)

theorem Extends.map {α β : Type} {read : List Char → Option (α × List Char)} (h : Extends read)
    (f : α → β) : Extends fun cs => (read cs).map fun (a, rest) => (f a, rest) := by
  intro cs rest b hread hrest
  obtain ⟨⟨a, r⟩, ha, hr⟩ := Option.map_eq_some_iff.1 hread
  cases hr
  obtain ⟨hcs, hmore⟩ := h ha hrest
  exact ⟨hcs, fun more => by simp only [hmore more, Option.map_some]⟩

theorem extends_readDigits : Extends readDigits := by
  intro cs rest ds h hrest
  simp only [readDigits] at h
  split at h
  · cases h
  rename_i hne
  cases h
  obtain ⟨c, r, hdrop⟩ := List.exists_cons_of_ne_nil hrest
  have hc : c.isDigit = false := by
    have hhead := List.head?_dropWhile_not Char.isDigit cs
    rw [hdrop] at hhead
    simpa using hhead
  have hcs : cs = cs.takeWhile Char.isDigit ++ c :: r := by
    rw [← hdrop, List.takeWhile_append_dropWhile]
  have hall : ∀ d ∈ cs.takeWhile Char.isDigit, d.isDigit = true :=
    List.all_eq_true.1 List.all_takeWhile
  have hcs_ne : cs ≠ [] := by
    rintro rfl
    cases hdrop
  refine ⟨hcs_ne, fun more => ?_⟩
  have htake : (cs ++ more).takeWhile Char.isDigit = cs.takeWhile Char.isDigit := by
    conv => lhs; rw [hcs, List.append_assoc, List.takeWhile_append_of_pos hall]
    simp [hc]
  have hdrop' : (cs ++ more).dropWhile Char.isDigit = cs.dropWhile Char.isDigit ++ more := by
    rw [hdrop]
    conv => lhs; rw [hcs, List.append_assoc, List.dropWhile_append_of_pos hall]
    simp [hc]
  simp only [readDigits, htake, hdrop', if_neg hne]

theorem extends_readWhole : Extends readWhole := by
  intro cs rest ds h hrest
  unfold readWhole at h
  split at h
  · cases h
    exact ⟨List.cons_ne_nil _ _, fun more => rfl⟩
  · rename_i hzero
    obtain ⟨hcs, hmore⟩ := extends_readDigits h hrest
    obtain ⟨c, cs, rfl⟩ := List.exists_cons_of_ne_nil hcs
    refine ⟨hcs, fun more => ?_⟩
    unfold readWhole
    split
    · rename_i heq
      cases heq
      exact absurd rfl (hzero cs)
    · exact hmore more

theorem extends_readFraction : Extends readFraction := by
  intro cs rest ds h hrest
  unfold readFraction at h
  split at h
  · obtain ⟨-, hmore⟩ := extends_readDigits.map ('.' :: ·) h hrest
    exact ⟨List.cons_ne_nil _ _, hmore⟩
  · rename_i hpoint
    cases h
    obtain ⟨c, cs, rfl⟩ := List.exists_cons_of_ne_nil hrest
    refine ⟨hrest, fun more => ?_⟩
    unfold readFraction
    split
    · rename_i heq
      cases heq
      exact absurd rfl (hpoint cs)
    · rfl

theorem extends_readSigned (e : Char) : Extends (readSigned e) := by
  intro cs rest ds h hrest
  unfold readSigned at h
  split at h
  · obtain ⟨-, hmore⟩ := extends_readDigits.map (fun ds => e :: '+' :: ds) h hrest
    exact ⟨List.cons_ne_nil _ _, hmore⟩
  · obtain ⟨-, hmore⟩ := extends_readDigits.map (fun ds => e :: '-' :: ds) h hrest
    exact ⟨List.cons_ne_nil _ _, hmore⟩
  · rename_i hplus hminus
    obtain ⟨hcs, hmore⟩ := extends_readDigits.map (e :: ·) h hrest
    obtain ⟨c, cs, rfl⟩ := List.exists_cons_of_ne_nil hcs
    refine ⟨hcs, fun more => ?_⟩
    unfold readSigned
    split
    · rename_i heq
      cases heq
      exact absurd rfl (hplus cs)
    · rename_i heq
      cases heq
      exact absurd rfl (hminus cs)
    · exact hmore more

theorem extends_readExponent : Extends readExponent := by
  intro cs rest ds h hrest
  unfold readExponent at h
  split at h
  · exact ⟨List.cons_ne_nil _ _, (extends_readSigned 'e' h hrest).2⟩
  · exact ⟨List.cons_ne_nil _ _, (extends_readSigned 'E' h hrest).2⟩
  · rename_i hsmall hlarge
    cases h
    obtain ⟨c, cs, rfl⟩ := List.exists_cons_of_ne_nil hrest
    refine ⟨hrest, fun more => ?_⟩
    unfold readExponent
    split
    · rename_i heq
      cases heq
      exact absurd rfl (hsmall cs)
    · rename_i heq
      cases heq
      exact absurd rfl (hlarge cs)
    · rfl

/-- What a number without its sign is made of. -/
theorem readUnsigned_eq_some {negative : Bool} {cs rest : List Char} {v : Value}
    (h : readUnsigned negative cs = some (v, rest)) :
    ∃ whole fraction exponent cs₁ cs₂, readWhole cs = some (whole, cs₁) ∧
      readFraction cs₁ = some (fraction, cs₂) ∧ readExponent cs₂ = some (exponent, rest) ∧
      v.isNumber = true := by
  simp only [readUnsigned, Option.bind_eq_bind, Option.bind_eq_some_iff, Prod.exists] at h
  obtain ⟨whole, cs₁, hwhole, fraction, cs₂, hfraction, exponent, cs₃, hexponent, hv⟩ := h
  split at hv <;> cases hv <;>
    exact ⟨whole, fraction, exponent, cs₁, cs₂, hwhole, hfraction, hexponent, rfl⟩

theorem extends_readUnsigned (negative : Bool) : Extends (readUnsigned negative) := by
  intro cs rest v h hrest
  obtain ⟨whole, fraction, exponent, cs₁, cs₂, hwhole, hfraction, hexponent, -⟩ :=
    readUnsigned_eq_some h
  obtain ⟨hcs₂, hexponent'⟩ := extends_readExponent hexponent hrest
  obtain ⟨hcs₁, hfraction'⟩ := extends_readFraction hfraction hcs₂
  obtain ⟨hcs, hwhole'⟩ := extends_readWhole hwhole hcs₁
  refine ⟨hcs, fun more => ?_⟩
  simp only [readUnsigned, hwhole, hfraction, hexponent, Option.bind_eq_bind,
    Option.bind_some] at h
  simp only [readUnsigned, hwhole', hfraction', hexponent', Option.bind_eq_bind, Option.bind_some]
  split at h <;> rename_i hwhole <;> cases h
  · rw [if_pos hwhole]
    rfl
  · rw [if_neg hwhole]
    rfl

theorem extends_readNumber : Extends readNumber := by
  intro cs rest v h hrest
  unfold readNumber at h
  split at h
  · exact ⟨List.cons_ne_nil _ _, (extends_readUnsigned true h hrest).2⟩
  · rename_i hminus
    obtain ⟨hcs, hmore⟩ := extends_readUnsigned false h hrest
    obtain ⟨c, cs, rfl⟩ := List.exists_cons_of_ne_nil hcs
    refine ⟨hcs, fun more => ?_⟩
    unfold readNumber
    split
    · rename_i heq
      cases heq
      exact absurd rfl (hminus cs)
    · exact hmore more

theorem isNumber_of_readNumber {cs rest : List Char} {v : Value}
    (h : readNumber cs = some (v, rest)) : v.isNumber = true := by
  unfold readNumber at h
  split at h
  · obtain ⟨_, _, _, _, _, -, -, -, hv⟩ := readUnsigned_eq_some h
    exact hv
  · obtain ⟨_, _, _, _, _, -, -, -, hv⟩ := readUnsigned_eq_some h
    exact hv

theorem digit_of_readDigits {cs ds rest : List Char} (h : readDigits cs = some (ds, rest)) :
    ∃ c cs', cs = c :: cs' ∧ c.isDigit = true := by
  cases cs with
  | nil => cases h
  | cons c cs =>
    refine ⟨c, cs, rfl, ?_⟩
    cases hc : c.isDigit with
    | true => rfl
    | false => simp [readDigits, hc] at h

/-- A number begins with a minus sign or a digit. -/
theorem head_of_readNumber {cs rest : List Char} {v : Value} (h : readNumber cs = some (v, rest)) :
    ∃ c cs', cs = c :: cs' ∧ (c = '-' ∨ c.isDigit = true) := by
  unfold readNumber at h
  split at h
  · exact ⟨'-', _, rfl, .inl rfl⟩
  · obtain ⟨whole, _, _, cs₁, _, hwhole, -, -, -⟩ := readUnsigned_eq_some h
    unfold readWhole at hwhole
    split at hwhole
    · exact ⟨'0', _, rfl, .inr (by decide)⟩
    · obtain ⟨c, cs', hcs, hc⟩ := digit_of_readDigits hwhole
      exact ⟨c, cs', hcs, .inr hc⟩

/-! ## Values -/

/-- What a reader takes from a text with some fuel it takes from a longer text with as much fuel or
more, if it can be sure where that ends. -/
def ExtendsAt {α : Type} (read : Nat → List Char → Option (α × List Char))
    (sure : α → List Char → Prop) (n : Nat) : Prop :=
  ∀ ⦃cs rest : List Char⦄ ⦃a : α⦄, read n cs = some (a, rest) → sure a rest →
    ∀ {m : Nat}, n ≤ m → ∀ more, read m (cs ++ more) = some (a, rest ++ more)

/-- The end of a value is certain if the value is no number or if something follows. -/
def Sure (v : Value) (rest : List Char) : Prop := v.isNumber = false ∨ rest ≠ []

theorem sure_of_skipSpace {rest ds : List Char} {d : Char} (h : skipSpace rest = d :: ds)
    (v : Value) : Sure v rest := by
  right
  rintro rfl
  cases h

theorem readValue_nil (n : Nat) : readValue n [] = none := by
  cases n <;> rfl

theorem readItems_nil (n : Nat) : readItems n [] = none := by
  cases n with
  | zero => rfl
  | succ n => rw [readItems, readValue_nil]

theorem readMembers_nil (n : Nat) : readMembers n [] = none := by
  cases n <;> rfl

theorem extends_readItems {n : Nat} (hvalue : ExtendsAt readValue Sure n)
    (hitems : ExtendsAt readItems (fun _ _ => True) n) :
    ExtendsAt readItems (fun _ _ => True) (n + 1) := by
  intro cs rest vs h _ m hm more
  obtain ⟨m, rfl⟩ : ∃ k, m = k + 1 := ⟨m - 1, by omega⟩
  have hle : n ≤ m := by omega
  rw [readItems] at h
  split at h
  · cases h
  rename_i v rest' hv
  split at h
  · rename_i ds hskip
    obtain ⟨⟨us, r⟩, hus, hr⟩ := Option.map_eq_some_iff.1 h
    cases hr
    simp only [readItems, hvalue hv (sure_of_skipSpace hskip v) hle more,
      skipSpace_append hskip more, hitems hus trivial hle more, Option.map_some]
  · rename_i ds hskip
    cases h
    simp only [readItems, hvalue hv (sure_of_skipSpace hskip v) hle more,
      skipSpace_append hskip more]
  · cases h

theorem extends_readMembers {n : Nat} (hvalue : ExtendsAt readValue Sure n)
    (hmembers : ExtendsAt readMembers (fun _ _ => True) n) :
    ExtendsAt readMembers (fun _ _ => True) (n + 1) := by
  intro cs rest t h _ m hm more
  obtain ⟨m, rfl⟩ : ∃ k, m = k + 1 := ⟨m - 1, by omega⟩
  have hle : n ≤ m := by omega
  rw [readMembers] at h
  split at h
  · rename_i ds hquote
    split at h
    · cases h
    rename_i codes rest' hcodes
    split at h
    · rename_i ds' hcolon
      split at h
      · cases h
      rename_i v rest'' hv
      split at h
      · rename_i ds'' hskip
        obtain ⟨⟨u, r⟩, hu, hr⟩ := Option.map_eq_some_iff.1 h
        cases hr
        simp only [readMembers, skipSpace_append hquote more, readCodes_append hcodes more,
          skipSpace_append hcolon more, hvalue hv (sure_of_skipSpace hskip v) hle more,
          skipSpace_append hskip more, hmembers hu trivial hle more, Option.map_some]
      · rename_i ds'' hskip
        cases h
        simp only [readMembers, skipSpace_append hquote more, readCodes_append hcodes more,
          skipSpace_append hcolon more, hvalue hv (sure_of_skipSpace hskip v) hle more,
          skipSpace_append hskip more]
      · cases h
    · cases h
  · cases h

theorem extends_readValue_succ {n : Nat} (hitems : ExtendsAt readItems (fun _ _ => True) n)
    (hmembers : ExtendsAt readMembers (fun _ _ => True) n) :
    ExtendsAt readValue Sure (n + 1) := by
  intro cs rest v h hsure m hm more
  obtain ⟨m, rfl⟩ : ∃ k, m = k + 1 := ⟨m - 1, by omega⟩
  have hle : n ≤ m := by omega
  rw [readValue] at h
  split at h
  · rename_i hskip
    cases h
    rw [readValue, skipSpace_append hskip more]
    rfl
  · rename_i hskip
    cases h
    rw [readValue, skipSpace_append hskip more]
    rfl
  · rename_i hskip
    cases h
    rw [readValue, skipSpace_append hskip more]
    rfl
  · rename_i ds hskip
    split at h
    · cases h
    rename_i codes rest' hcodes
    rw [readValue, skipSpace_append hskip more]
    simp only [readCodes_append hcodes more]
    cases htext : textOfCodes? codes with
    | none =>
      rw [htext] at h
      cases h
      rfl
    | some s =>
      rw [htext] at h
      cases h
      rfl
  · rename_i ds hskip
    rw [readValue, skipSpace_append hskip more]
    split at h
    · rename_i hclose
      cases h
      simp only [skipSpace_append hclose more]
    · rename_i hclose
      obtain ⟨⟨vs, r⟩, hvs, hr⟩ := Option.map_eq_some_iff.1 h
      cases hr
      -- the text goes on behind the bracket, since there are no items in nothing
      cases hds : skipSpace ds with
      | nil => rw [hds, readItems_nil] at hvs; cases hvs
      | cons d ds' =>
        have hvs' := hitems hvs trivial hle more
        rw [hds] at hvs' hclose
        simp only [skipSpace_append hds more]
        split
        · rename_i heq
          cases heq
          exact absurd rfl (hclose ds')
        · rw [← List.cons_append, hvs']
          rfl
  · rename_i ds hskip
    rw [readValue, skipSpace_append hskip more]
    split at h
    · rename_i hclose
      cases h
      simp only [skipSpace_append hclose more]
    · rename_i hclose
      cases hds : skipSpace ds with
      | nil => rw [hds, readMembers_nil] at h; cases h
      | cons d ds' =>
        have hms := hmembers h trivial hle more
        rw [hds] at hms hclose
        simp only [skipSpace_append hds more]
        split
        · rename_i heq
          cases heq
          exact absurd rfl (hclose ds')
        · exact hms
  · have hrest : rest ≠ [] := hsure.resolve_left (by simp [isNumber_of_readNumber h])
    obtain ⟨c, ds, hskip, hc⟩ := head_of_readNumber h
    rw [readValue_number hc (skipSpace_append hskip more), ← List.cons_append, ← hskip]
    exact (extends_readNumber h hrest).2 more

theorem extends_readValue (n : Nat) : ExtendsAt readValue Sure n ∧
    ExtendsAt readItems (fun _ _ => True) n ∧ ExtendsAt readMembers (fun _ _ => True) n := by
  induction n with
  | zero => exact ⟨nofun, nofun, nofun⟩
  | succ n ih =>
    obtain ⟨hvalue, hitems, hmembers⟩ := ih
    exact ⟨extends_readValue_succ hitems hmembers, extends_readItems hvalue hitems,
      extends_readMembers hvalue hmembers⟩

/-! ## What stands around a value -/

theorem parse?_eq_some {s : String} {v : Value} (h : parse? s = some v) :
    ∃ rest, readValue (2 * s.length + 2) s.toList = some (v, rest) ∧ skipSpace rest = [] := by
  unfold parse? at h
  split at h
  · rename_i u rest hread
    split at h
    · rename_i hempty
      cases h
      exact ⟨rest, hread, List.isEmpty_iff.1 hempty⟩
    · cases h
  · cases h

/-- A value that says itself where it ends is the only thing in its text. -/
theorem parse?_append_eq_none {s t : String} {v : Value} (h : parse? s = some v)
    (hv : v.isNumber = false) (ht : skipSpace t.toList ≠ []) : parse? (s ++ t) = none := by
  obtain ⟨rest, hread, hrest⟩ := parse?_eq_some h
  have hlength : 2 * s.length + 2 ≤ 2 * (s ++ t).length + 2 := by
    rw [String.length_append]
    omega
  have hread' := (extends_readValue _).1 hread (.inl hv) hlength t.toList
  have hblank : ∀ c ∈ rest, isSpace c = true := skipSpace_eq_nil_iff.1 hrest
  simp only [parse?, String.toList_append, hread', skipSpace_blanks_append hblank]
  exact if_neg (by simpa using ht)

theorem parse?_blanks_append {b s : String} {v : Value} (hb : ∀ c ∈ b.toList, isSpace c = true)
    (h : parse? s = some v) (hv : v.isNumber = false) : parse? (b ++ s) = some v := by
  obtain ⟨rest, hread, hrest⟩ := parse?_eq_some h
  have hlength : 2 * s.length + 2 ≤ 2 * (b ++ s).length + 2 := by
    rw [String.length_append]
    omega
  have hread' := (extends_readValue _).1 hread (.inl hv) hlength []
  rw [List.append_nil, List.append_nil] at hread'
  simp only [parse?, String.toList_append, readValue_blanks_append hb, hread', hrest]
  rfl

/-- A value is read from its compact form also if blanks follow it. -/
theorem parse?_compact_append {v : Value} (h : v.Writable) {b : String}
    (hb : ∀ c ∈ b.toList, isSpace c = true) : parse? (compact v ++ b) = some v := by
  have hstops : Stops b.toList := by
    rw [← List.append_nil b.toList]
    exact stops_blanks_append hb stops_nil
  have hlength : (compactChars v).length ≤ 2 * (compact v ++ b).length + 2 := by
    rw [String.length_append, compact, String.length_ofList]
    omega
  have hread := readValue_compactChars h hlength hstops
  rw [parse?, String.toList_append, compact, String.toList_ofList]
  rw [compact] at hread
  simp only [hread, skipSpace_eq_nil_iff.2 hb, List.isEmpty_nil, if_true]

theorem not_isBlank_of_isDigit {c : Char} (h : c.isDigit = true) : Text.isBlank c = false := by
  simp only [Char.isDigit, Bool.and_eq_true, decide_eq_true_eq, UInt32.le_iff_toNat_le] at h
  have hlow : 48 ≤ c.toNat := h.1
  have hhigh : c.toNat ≤ 57 := h.2
  rw [Text.isBlank, Text.inRanges, List.any_eq_false]
  intro r hr
  simp only [Text.blankRanges, List.mem_cons, List.not_mem_nil, or_false] at hr
  rcases hr with rfl | rfl | rfl | rfl | rfl | rfl | rfl | rfl | rfl | rfl <;>
    simp only [Bool.and_eq_true, decide_eq_true_eq] <;> omega

/-- A blank that JSON does not know is no part of a value. -/
theorem parse?_eq_none_of_blank {s : String} {c : Char} {ds : List Char}
    (hs : skipSpace s.toList = c :: ds) (hc : Text.isBlank c = true) : parse? s = none := by
  have hread (n : Nat) : readValue (n + 1) s.toList = none := by
    rw [readValue, hs]
    split
    case h_7 =>
      cases hnumber : readNumber (c :: ds) with
      | none => rfl
      | some r =>
        obtain ⟨d, ds', heq, hd⟩ := head_of_readNumber hnumber
        cases heq
        obtain rfl | hdigit := hd
        · exact absurd hc (by decide)
        · exact absurd hc (by rw [not_isBlank_of_isDigit hdigit]; decide)
    all_goals
      rename_i heq
      cases heq
      exact absurd hc (by decide)
  simp only [parse?, hread]

end Json

end RitualGate.Data
