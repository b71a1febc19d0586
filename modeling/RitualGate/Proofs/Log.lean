import RitualGate.Audit.Log
import RitualGate.Proofs.Bytes
import RitualGate.Proofs.JsonExtent

/-!
# Records on lines

A record is read back from its row (`parseRecord?_row`), and a log from what was written to it
(`parse_encode`). Records may be added to a log that can be read as long as nothing but blanks of
JSON stands behind its last line feed (`parse_append_encode`). Anything else there and the first of
the new records make one line that is no record (`parse_append_encode_malformed`).
-/

namespace RitualGate

open Data (Value)

/-! ## Reading fields back -/

namespace Data

theorem Decode.variant_text {α : Type} {ofName? : String → Option α} {s : String} {a : α}
    (h : ofName? s = some a) : Decode.variant ofName? (.text s) = .ok a := by
  simp [Decode.variant, h]

theorem Decode.option_text {α : Type} {d : Decoder α} {s : String} {a : α}
    (h : d (.text s) = .ok a) : Decode.option d (.text s) = .ok (some a) := by
  simp [Decode.option, Decode.isNull, h]

namespace Fields

variable {α β : Type} {m : Members}

theorem seq_eq_ok {f : Fields (α → β)} {x : Fields α} {g : α → β} {a : α} (hf : f m = .ok g)
    (hx : x m = .ok a) : f.seq x m = .ok (g a) := by
  simp only [seq, hf, hx]

theorem withDefault_eq_ok {name : String} {d : Decoder α} {fallback : Except DecodeError α}
    {i : Nat} {v : Value} {a : α} (hfind : Members.find? name m.entries = some (i, v))
    (hd : d v = .ok a) : withDefault name d fallback m = .ok a := by
  simp only [withDefault, hfind, hd]

theorem decode_eq_ok {names : List String} {f : Fields α} {v : Value} {a : α}
    (hm : Members.ofValue names v = .ok m) (hsurplus : m.surplus = false) (hf : f m = .ok a) :
    decode names f v = .ok a := by
  simp only [decode, hm, hf, hsurplus]
  rfl

end Fields

end Data

theorem ErrorKind.ofName?_name (k : ErrorKind) : ErrorKind.ofName? k.name = some k := by
  cases k <;> decide

theorem Outcome.ofName?_name (o : Outcome) : Outcome.ofName? o.name = some o := by
  cases o <;> decide

open Data.Fields in
theorem OutcomeDetail.ofValue_toValue (d : OutcomeDetail) : ofValue d.toValue = .ok d := by
  obtain ⟨kind, reason, handle, substituted⟩ := d
  rcases kind with _ | kind
  · cases reason <;> cases handle <;> cases substituted <;> rfl
  · have hkind : Data.Decode.option (Data.Decode.variant ErrorKind.ofName?) (.text kind.name) =
        .ok (some kind) := Data.Decode.option_text (Data.Decode.variant_text kind.ofName?_name)
    cases reason <;> cases handle <;> cases substituted <;>
      exact decode_eq_ok rfl rfl
        (seq_eq_ok (seq_eq_ok (seq_eq_ok (seq_eq_ok rfl (withDefault_eq_ok rfl hkind)) rfl) rfl) rfl)

open Data.Fields in
theorem AuditRecord.ofValue_toValue {r : AuditRecord} (h : r.sequence ≤ Text.wordMax) :
    ofValue r.toValue = .ok r := by
  obtain ⟨sequence, keyword, digest, prevHash, selfHash, timestamp, outcome, detail⟩ := r
  have hsequence : Data.Decode.nat Text.wordMax (.nat sequence) = .ok sequence := if_pos h
  have houtcome : Outcome.ofValue (.text outcome.name) = .ok outcome :=
    Data.Decode.variant_text outcome.ofName?_name
  refine decode_eq_ok rfl rfl ?_
  refine seq_eq_ok ?_ (withDefault_eq_ok rfl detail.ofValue_toValue)
  refine seq_eq_ok ?_ (withDefault_eq_ok rfl houtcome)
  iterate 5 refine seq_eq_ok ?_ (withDefault_eq_ok rfl rfl)
  exact seq_eq_ok rfl (withDefault_eq_ok rfl hsequence)

/-! ## Lines -/

theorem OutcomeDetail.writable_toValue (d : OutcomeDetail) : d.toValue.Writable := by
  refine .table fun m hm => ?_
  simp only [List.mem_append, List.mem_map] at hm
  obtain ((⟨k, -, rfl⟩ | ⟨s, -, rfl⟩) | ⟨s, -, rfl⟩) | hm := hm
  · exact .text _
  · exact .text _
  · exact .text _
  · split at hm
    · obtain rfl := List.mem_singleton.1 hm
      exact .bool true
    · cases hm

theorem AuditRecord.writable_toValue (r : AuditRecord) : r.toValue.Writable := by
  simp [toValue, OutcomeDetail.writable_toValue]

namespace AuditRecord

/-- The line of a record without its line feed. -/
def row (r : AuditRecord) : String := Data.Json.compact r.toValue

theorem encode_line (r : AuditRecord) : Text.encode r.line = Text.encode r.row ++ [0x0A] := by
  have hfeed : Text.encode "\n" = [0x0A] := by
    rw [Text.encode_eq]
    rfl
  rw [line, Text.encode_append, hfeed, row]

theorem toList_row (r : AuditRecord) : ∃ cs, r.row.toList = '{' :: cs := by
  refine ⟨r.row.toList.tail, ?_⟩
  rw [row, Data.Json.compact, String.toList_ofList, toValue, Data.Json.compactChars, List.tail_cons]

/-- The bytes of a row end no line. -/
theorem le_of_mem_row {r : AuditRecord} {b : UInt8} (h : b ∈ Text.encode r.row) :
    32 ≤ b.toNat := by
  by_cases hb : b.toNat < 128
  · obtain ⟨c, hc, hcb⟩ := Text.toNat_of_mem_encode h hb
    rw [row, Data.Json.compact, String.toList_ofList] at hc
    have hprints : 32 ≤ c.toNat := Data.Json.prints_compactChars r.writable_toValue c hc
    omega
  · omega

theorem brace_mem_row (r : AuditRecord) : 0x7B ∈ Text.encode r.row := by
  obtain ⟨cs, hcs⟩ := r.toList_row
  have hbrace : String.utf8EncodeChar '{' = [0x7B] := rfl
  rw [Text.encode_eq, hcs, List.flatMap_cons, hbrace]
  exact List.mem_cons_self

theorem lf_notMem_row (r : AuditRecord) : 0x0A ∉ Text.encode r.row :=
  fun h => absurd (le_of_mem_row h) (by decide)

theorem encode_row_ne_nil (r : AuditRecord) : Text.encode r.row ≠ [] :=
  List.ne_nil_of_mem r.brace_mem_row

end AuditRecord

namespace Log

/-- What precedes a row makes one line with it. -/
theorem byteLines_row {u : Bytes} (hu : 0x0A ∉ u) (r : AuditRecord) (rest : Bytes) :
    Text.byteLines (u ++ Text.encode r.line ++ rest) =
      (u ++ Text.encode r.row) :: Text.byteLines rest := by
  have hlf : 0x0A ∉ u ++ Text.encode r.row := by
    rw [List.mem_append, not_or]
    exact ⟨hu, r.lf_notMem_row⟩
  have hcr : (u ++ Text.encode r.row).getLast? ≠ some 0x0D := by
    rw [List.getLast?_append, List.getLast?_eq_some_getLast r.encode_row_ne_nil, Option.some_or]
    intro h
    have hmem := List.getLast_mem r.encode_row_ne_nil
    rw [Option.some.inj h] at hmem
    exact absurd (AuditRecord.le_of_mem_row hmem) (by decide)
  have hsplit := Text.splitLines_line hlf hcr rest
  rw [Text.byteLines, Text.byteLines, ← hsplit, AuditRecord.encode_line]
  simp only [List.append_assoc, List.cons_append, List.nil_append]

theorem encode_cons (r : AuditRecord) (rs : List AuditRecord) :
    encode (r :: rs) = Text.encode r.line ++ encode rs := rfl

theorem encode_append (rs ss : List AuditRecord) : encode (rs ++ ss) = encode rs ++ encode ss :=
  List.flatMap_append

/-! ## Rows -/

theorem parseRecord?_row {r : AuditRecord} (h : r.sequence ≤ Text.wordMax) :
    parseRecord? r.row = some r := by
  rw [parseRecord?, AuditRecord.row, Data.Json.parse?_compact r.writable_toValue]
  simp only [AuditRecord.ofValue_toValue h]
  rfl

theorem isBlankText_append_row (s : String) (r : AuditRecord) :
    Text.isBlankText (s ++ r.row) = false := by
  obtain ⟨cs, hcs⟩ := r.toList_row
  rw [Text.isBlankText, String.toList_append, hcs, List.all_append, List.all_cons]
  have hbrace : Text.isBlank '{' = false := by decide
  rw [hbrace, Bool.false_and, Bool.and_false]

theorem parseRecord?_blanks_row {s : String} (hs : ∀ c ∈ s.toList, Data.Json.isSpace c = true)
    {r : AuditRecord} (h : r.sequence ≤ Text.wordMax) : parseRecord? (s ++ r.row) = some r := by
  have hparse := Data.Json.parse?_compact r.writable_toValue
  rw [parseRecord?, AuditRecord.row, Data.Json.parse?_blanks_append hs hparse rfl]
  simp only [AuditRecord.ofValue_toValue h]
  rfl

theorem parse?_of_parseRecord? {s : String} {r : AuditRecord} (h : parseRecord? s = some r) :
    ∃ v, Data.Json.parse? s = some v ∧ v.isNumber = false := by
  unfold parseRecord? at h
  split at h
  · cases h
  · rename_i v hv
    refine ⟨v, hv, ?_⟩
    cases v with
    | int n => cases h
    | real t => cases h
    | _ => rfl

/-- A record and a row on one line are no record. -/
theorem parseRecord?_record_row {s : String} {r' : AuditRecord} (hs : parseRecord? s = some r')
    (r : AuditRecord) : parseRecord? (s ++ r.row) = none := by
  obtain ⟨v, hv, hnumber⟩ := parse?_of_parseRecord? hs
  obtain ⟨cs, hcs⟩ := r.toList_row
  have hrow : Data.Json.skipSpace r.row.toList ≠ [] := by
    rw [hcs, Data.Json.skipSpace_cons rfl]
    exact List.cons_ne_nil _ _
  rw [parseRecord?, Data.Json.parse?_append_eq_none hv hnumber hrow]

/-- Neither are a row and blanks before it that are none of JSON. -/
theorem parseRecord?_foreign_row {s : String} (hblank : Text.isBlankText s = true)
    (hs : ¬ ∀ c ∈ s.toList, Data.Json.isSpace c = true) (r : AuditRecord) :
    parseRecord? (s ++ r.row) = none := by
  rw [← Data.Json.skipSpace_eq_nil_iff] at hs
  obtain ⟨c, ds, hskip⟩ := List.exists_cons_of_ne_nil hs
  have hc : Text.isBlank c = true := by
    have hmem : c ∈ s.toList := (List.dropWhile_suffix Data.Json.isSpace).subset (by
      rw [← Data.Json.skipSpace, hskip]
      exact List.mem_cons_self)
    exact List.all_eq_true.1 hblank c hmem
  have hskip' := Data.Json.skipSpace_append hskip r.row.toList
  rw [← String.toList_append] at hskip'
  rw [parseRecord?, Data.Json.parse?_eq_none_of_blank hskip' hc]

/-! ## Ends of logs -/

/-- Whether a byte is a blank of JSON that ends no line. -/
def isSpaceByte (b : UInt8) : Bool :=
  b == 0x20 || b == 0x09 || b == 0x0D

/-- Nothing but blanks of JSON stands behind the last line feed of a log, or in all of it if it has
none. -/
def EndsBlank (content : Bytes) : Prop :=
  ∀ b ∈ Text.unended content, isSpaceByte b = true

instance (content : Bytes) : Decidable (EndsBlank content) :=
  inferInstanceAs (Decidable (∀ b ∈ Text.unended content, isSpaceByte b = true))

theorem isSpaceByte_eq_true_iff {b : UInt8} :
    isSpaceByte b = true ↔ b = 0x20 ∨ b = 0x09 ∨ b = 0x0D := by
  simp [isSpaceByte, or_assoc]

theorem forall_isSpaceByte_encode_iff {s : String} (hs : 0x0A ∉ Text.encode s) :
    (∀ b ∈ Text.encode s, isSpaceByte b = true) ↔
      ∀ c ∈ s.toList, Data.Json.isSpace c = true := by
  rw [Text.encode_eq] at hs ⊢
  constructor
  · intro h c hc
    obtain ⟨b, bs, hbs⟩ := List.exists_cons_of_ne_nil (String.utf8EncodeChar_ne_nil (c := c))
    have hmem : b ∈ String.utf8EncodeChar c := by simp [hbs]
    have hb := h b (List.mem_flatMap.2 ⟨c, hc, hmem⟩)
    rw [Data.Json.isSpace_eq_true_iff]
    rcases isSpaceByte_eq_true_iff.1 hb with rfl | rfl | rfl
    · exact .inl (Char.toNat_inj.1 (Text.toNat_of_mem_utf8EncodeChar hmem (by decide)))
    · exact .inr (.inr (.inl
        (Char.toNat_inj.1 (Text.toNat_of_mem_utf8EncodeChar hmem (by decide)))))
    · exact .inr (.inr (.inr
        (Char.toNat_inj.1 (Text.toNat_of_mem_utf8EncodeChar hmem (by decide)))))
  · intro h b hb
    obtain ⟨c, hc, hbc⟩ := List.mem_flatMap.1 hb
    rcases Data.Json.isSpace_eq_true_iff.1 (h c hc) with rfl | rfl | rfl | rfl <;>
      obtain rfl := List.mem_singleton.1 hbc
    · rfl
    · exact absurd hb hs
    · rfl
    · rfl

theorem isBlankText_of_isSpace {s : String} (h : ∀ c ∈ s.toList, Data.Json.isSpace c = true) :
    Text.isBlankText s = true := by
  rw [Text.isBlankText, List.all_eq_true]
  intro c hc
  rcases Data.Json.isSpace_eq_true_iff.1 (h c hc) with rfl | rfl | rfl | rfl <;> decide

/-! ## Logs -/

/-- A line can be read and holds some records: none if it is blank, and else one. -/
def Holds (l : Bytes) (rs : List AuditRecord) : Prop :=
  ∃ s, Text.decode? l = some s ∧
    (Text.isBlankText s = true ∧ rs = [] ∨
      Text.isBlankText s = false ∧ ∃ r, parseRecord? s = some r ∧ rs = [r])

theorem parseLines_cons_iff {n : Nat} {l : Bytes} {ls : List Bytes} {rs : List AuditRecord} :
    parseLines n (l :: ls) = .ok rs ↔
      ∃ as bs, Holds l as ∧ parseLines (n + 1) ls = .ok bs ∧ rs = as ++ bs := by
  rw [parseLines]
  constructor
  · intro h
    split at h
    · cases h
    rename_i s hs
    split at h
    · rename_i hblank
      exact ⟨[], rs, ⟨s, hs, .inl ⟨hblank, rfl⟩⟩, h, rfl⟩
    rename_i hblank
    split at h
    · cases h
    rename_i r hr
    split at h
    · rename_i bs hbs
      cases h
      exact ⟨[r], bs, ⟨s, hs, .inr ⟨by simpa using hblank, r, hr, rfl⟩⟩, hbs, rfl⟩
    · cases h
  · rintro ⟨as, bs, ⟨s, hs, ⟨hblank, rfl⟩ | ⟨hblank, r, hr, rfl⟩⟩, hbs, rfl⟩
    · simp only [hs, hblank, if_true, hbs]
    · simp only [hs, hblank, Bool.false_eq_true, if_false, hr, hbs, List.cons_append,
        List.nil_append]

theorem parseLines_cons_error {n : Nat} {l : Bytes} {ls : List Bytes} {as : List AuditRecord}
    {e : LogFault} (hl : Holds l as) (hls : parseLines (n + 1) ls = .error e) :
    parseLines n (l :: ls) = .error e := by
  obtain ⟨s, hs, ⟨hblank, rfl⟩ | ⟨hblank, r, hr, rfl⟩⟩ := hl
  · simp only [parseLines, hs, hblank, if_true, hls]
  · simp only [parseLines, hs, hblank, Bool.false_eq_true, if_false, hr, hls]

theorem parseLines_append_iff {n : Nat} {ls ms : List Bytes} {rs : List AuditRecord} :
    parseLines n (ls ++ ms) = .ok rs ↔ ∃ as bs, parseLines n ls = .ok as ∧
      parseLines (n + ls.length) ms = .ok bs ∧ rs = as ++ bs := by
  induction ls generalizing n rs with
  | nil => simp [parseLines]
  | cons l ls ih =>
    have hnumber : n + (l :: ls).length = n + 1 + ls.length := by
      rw [List.length_cons]
      omega
    rw [List.cons_append, parseLines_cons_iff, hnumber]
    constructor
    · rintro ⟨as, ds, hl, hds, rfl⟩
      obtain ⟨bs, cs, hbs, hcs, rfl⟩ := ih.1 hds
      exact ⟨as ++ bs, cs, parseLines_cons_iff.2 ⟨as, bs, hl, hbs, rfl⟩, hcs,
        (List.append_assoc ..).symm⟩
    · rintro ⟨as, cs, has, hcs, rfl⟩
      obtain ⟨as, bs, hl, hbs, rfl⟩ := parseLines_cons_iff.1 has
      exact ⟨as, bs ++ cs, hl, ih.2 ⟨bs, cs, hbs, hcs, rfl⟩, List.append_assoc ..⟩

theorem parseLines_append_error {n : Nat} {ls ms : List Bytes} {rs : List AuditRecord}
    {e : LogFault} (h : parseLines n ls = .ok rs)
    (hms : parseLines (n + ls.length) ms = .error e) : parseLines n (ls ++ ms) = .error e := by
  induction ls generalizing n rs with
  | nil => exact hms
  | cons l ls ih =>
    obtain ⟨as, bs, hl, hls, rfl⟩ := parseLines_cons_iff.1 h
    refine parseLines_cons_error hl (ih hls ?_)
    rwa [List.length_cons, Nat.add_comm ls.length, ← Nat.add_assoc] at hms

/-- What stands behind the last line feed can be read like a line, also if that is nothing. -/
theorem parseLines_unended_iff {n : Nat} {u : Bytes} (hu : 0x0A ∉ u) {rs : List AuditRecord} :
    parseLines n (Text.byteLines u) = .ok rs ↔ Holds u rs := by
  by_cases hne : u = []
  · subst hne
    have hempty : Text.decode? [] = some "" := by
      have hencode : Text.encode "" = [] := by
        rw [Text.encode_eq]
        rfl
      rw [← hencode, Text.decode?_encode]
    have hblank : Text.isBlankText "" = true := by decide
    constructor
    · intro h
      cases h
      exact ⟨"", hempty, .inl ⟨hblank, rfl⟩⟩
    · rintro ⟨s, hs, ⟨-, rfl⟩ | ⟨hs', -⟩⟩
      · rfl
      · rw [hempty] at hs
        cases hs
        rw [hblank] at hs'
        cases hs'
  · rw [Text.byteLines, Text.splitLines_unended hu hne, parseLines_cons_iff]
    simp [parseLines]

theorem holds_row {r : AuditRecord} (h : r.sequence ≤ Text.wordMax) :
    Holds (Text.encode r.row) [r] := by
  have hblank : Text.isBlankText ("" ++ r.row) = false := isBlankText_append_row "" r
  rw [String.empty_append] at hblank
  exact ⟨r.row, Text.decode?_encode _, .inr ⟨hblank, r, parseRecord?_row h, rfl⟩⟩

/-- A log is read back from what was written to it. -/
theorem parseLines_encode {rs : List AuditRecord} (h : ∀ r ∈ rs, r.sequence ≤ Text.wordMax)
    (n : Nat) : parseLines n (Text.byteLines (encode rs)) = .ok rs := by
  induction rs generalizing n with
  | nil => rfl
  | cons r rs ih =>
    obtain ⟨hr, hrs⟩ := List.forall_mem_cons.1 h
    have hlines := byteLines_row (List.not_mem_nil) r (encode rs)
    rw [List.nil_append, List.nil_append] at hlines
    rw [encode_cons, hlines, parseLines_cons_iff]
    exact ⟨[r], rs, holds_row hr, ih hrs (n + 1), rfl⟩

theorem parse_encode {rs : List AuditRecord} (h : ∀ r ∈ rs, r.sequence ≤ Text.wordMax) :
    parse (encode rs) = .ok rs :=
  parseLines_encode h 1

/-- The lines of a log that records were added to: the first of the records stands behind what was
not ended. -/
theorem byteLines_append_encode (content : Bytes) (r : AuditRecord) (rs : List AuditRecord) :
    Text.byteLines (content ++ encode (r :: rs)) =
      Text.byteLines (Text.ended content) ++
        (Text.unended content ++ Text.encode r.row) :: Text.byteLines (encode rs) := by
  have hcontent : content ++ encode (r :: rs) =
      Text.ended content ++ (Text.unended content ++ Text.encode r.line ++ encode rs) := by
    rw [encode_cons, List.append_assoc, ← List.append_assoc (Text.ended content),
      Text.ended_append_unended]
  rw [hcontent, Text.byteLines, Text.splitLines_append (Text.getLast?_ended content)]
  rw [← Text.byteLines, ← Text.byteLines, byteLines_row (Text.lf_notMem_unended content)]

theorem parse_eq_ok {content : Bytes} {rs : List AuditRecord} (h : parse content = .ok rs) :
    ∃ as bs, parseLines 1 (Text.byteLines (Text.ended content)) = .ok as ∧
      Holds (Text.unended content) bs ∧ rs = as ++ bs := by
  have hlines : Text.byteLines content =
      Text.byteLines (Text.ended content) ++ Text.byteLines (Text.unended content) := by
    conv => lhs; rw [← Text.ended_append_unended content]
    exact Text.splitLines_append (Text.getLast?_ended content) _
  rw [parse, hlines] at h
  obtain ⟨as, bs, has, hbs, rfl⟩ := parseLines_append_iff.1 h
  exact ⟨as, bs, has, (parseLines_unended_iff (Text.lf_notMem_unended content)).1 hbs, rfl⟩

theorem decode?_append_row {u : Bytes} {s : String} (hs : Text.decode? u = some s)
    (r : AuditRecord) : Text.decode? (u ++ Text.encode r.row) = some (s ++ r.row) := by
  rw [Text.eq_encode_of_decode? hs, ← Text.encode_append, Text.decode?_encode]

/-- Records that are added to a log stand on lines of their own if blanks are all that is not
ended. -/
theorem parse_append_encode {content : Bytes} {rs₀ rs : List AuditRecord}
    (h : parse content = .ok rs₀) (hend : EndsBlank content)
    (hrs : ∀ r ∈ rs, r.sequence ≤ Text.wordMax) :
    parse (content ++ encode rs) = .ok (rs₀ ++ rs) := by
  cases rs with
  | nil => rwa [List.append_nil, show encode [] = [] from rfl, List.append_nil]
  | cons r rs =>
    obtain ⟨hr, hrs⟩ := List.forall_mem_cons.1 hrs
    obtain ⟨as, bs, has, ⟨s, hs, hbs⟩, rfl⟩ := parse_eq_ok h
    have hspace : ∀ c ∈ s.toList, Data.Json.isSpace c = true := by
      have hlf := Text.lf_notMem_unended content
      rw [EndsBlank] at hend
      rw [Text.eq_encode_of_decode? hs] at hend hlf
      exact (forall_isSpaceByte_encode_iff hlf).1 hend
    -- what was not ended is blank and holds no record
    obtain ⟨-, rfl⟩ | ⟨hblank, -⟩ := hbs
    · have hjoined : Holds (Text.unended content ++ Text.encode r.row) [r] :=
        ⟨s ++ r.row, decode?_append_row hs r,
          .inr ⟨isBlankText_append_row s r, r, parseRecord?_blanks_row hspace hr, rfl⟩⟩
      rw [parse, byteLines_append_encode, parseLines_append_iff]
      refine ⟨as, r :: rs, has, ?_, by rw [List.append_nil]⟩
      exact parseLines_cons_iff.2 ⟨[r], rs, hjoined, parseLines_encode hrs _, rfl⟩
    · rw [isBlankText_of_isSpace hspace] at hblank
      cases hblank

/-- Otherwise the first of them makes a line with what was not ended that is no record. -/
theorem parse_append_encode_malformed {content : Bytes} {rs₀ : List AuditRecord}
    (h : parse content = .ok rs₀) (hend : ¬ EndsBlank content) (r : AuditRecord)
    (rs : List AuditRecord) : parse (content ++ encode (r :: rs)) =
      .error (.malformed (1 + (Text.byteLines (Text.ended content)).length)) := by
  obtain ⟨as, bs, has, ⟨s, hs, hbs⟩, rfl⟩ := parse_eq_ok h
  have hnone : parseRecord? (s ++ r.row) = none := by
    obtain ⟨hblank, -⟩ | ⟨-, r', hr', -⟩ := hbs
    · refine parseRecord?_foreign_row hblank (fun hspace => hend ?_) r
      have hlf := Text.lf_notMem_unended content
      rw [EndsBlank]
      rw [Text.eq_encode_of_decode? hs] at hlf ⊢
      exact (forall_isSpaceByte_encode_iff hlf).2 hspace
    · exact parseRecord?_record_row hr' r
  rw [parse, byteLines_append_encode]
  refine parseLines_append_error has ?_
  rw [parseLines, decode?_append_row hs]
  simp only [isBlankText_append_row, Bool.false_eq_true, if_false, hnone]

end Log

end RitualGate
