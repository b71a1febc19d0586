import RitualGate.Proofs.Persistence

/-!
# The format of a log

Whatever records are written to a log, each stands on a line of its own and all are read back. Nor
does it matter if blank lines are put between them: `LogLine` is a line of a log that somebody may
have opened to do so, and `parse_bytes` says that the records on such lines are what is read.
`log_format_faithful` puts this together for a log on a disk.
-/

namespace RitualGate

/-- A line of a log: a record, or blanks. -/
inductive LogLine where
  | record (r : AuditRecord)
  | blank (s : String) (hblank : Text.isBlankText s = true) (hline : '\n' ∉ s.toList)

namespace LogLine

/-- The text of a line, with its line feed. -/
def text : LogLine → String
  | record r => r.line
  | blank s _ _ => s ++ "\n"

/-- The record on a line. -/
def record? : LogLine → Option AuditRecord
  | record r => some r
  | blank _ _ _ => none

/-- The content of a log with some lines. -/
def bytes (ls : List LogLine) : Bytes :=
  ls.flatMap fun l => Text.encode l.text

end LogLine

namespace Log

/-! ## Blank lines -/

theorem lf_notMem_encode {s : String} (h : '\n' ∉ s.toList) : 0x0A ∉ Text.encode s := by
  intro hmem
  obtain ⟨c, hc, hcode⟩ := Text.toNat_of_mem_encode hmem (by decide)
  obtain rfl : c = '\n' := Char.toNat_inj.1 hcode
  exact h hc

/-- The last byte of a text is a carriage return only if its last character is one. -/
theorem getLast?_encode_ne {cs : List Char} {c : Char} (hc : c ≠ '\r') :
    (Text.encode (String.ofList (cs ++ [c]))).getLast? ≠ some 0x0D := by
  have hne : String.utf8EncodeChar c ≠ [] := String.utf8EncodeChar_ne_nil
  rw [Text.encode_eq, String.toList_ofList, List.flatMap_append, List.flatMap_singleton,
    List.getLast?_append, List.getLast?_eq_some_getLast hne, Option.some_or]
  intro h
  have hmem := List.getLast_mem hne
  rw [Option.some.inj h] at hmem
  exact hc (Char.toNat_inj.1 (Text.toNat_of_mem_utf8EncodeChar hmem (by decide)))

/-- A blank line is read as a line that holds nothing, whether or not its end takes a carriage
return along. -/
theorem byteLines_blank {s : String} (hblank : Text.isBlankText s = true) (hline : '\n' ∉ s.toList)
    (rest : Bytes) : ∃ l, Text.byteLines (Text.encode (s ++ "\n") ++ rest) =
      l :: Text.byteLines rest ∧ Holds l [] := by
  have hfeed : Text.encode (s ++ "\n") ++ rest = Text.encode s ++ 0x0A :: rest := by
    rw [Text.encode_append, Text.encode_eq "\n", List.append_assoc]
    rfl
  have hholds {t : String} (ht : Text.isBlankText t = true) : Holds (Text.encode t) [] :=
    ⟨t, Text.decode?_encode t, .inl ⟨ht, rfl⟩⟩
  rw [hfeed, Text.byteLines]
  rcases List.eq_nil_or_concat' s.toList with hnil | ⟨cs, c, hcs⟩
  · have hs : Text.encode s = [] := by
      rw [Text.encode_eq, hnil]
      rfl
    exact ⟨Text.encode s, Text.splitLines_line (lf_notMem_encode hline) (by simp [hs]) rest,
      hholds hblank⟩
  · have hs : s = String.ofList (cs ++ [c]) := by rw [← hcs, String.ofList_toList]
    by_cases hc : c = '\r'
    · subst hc
      have hreturn : Text.encode s = Text.encode (String.ofList cs) ++ [0x0D] := by
        rw [hs, Text.encode_eq, Text.encode_eq, String.toList_ofList, String.toList_ofList,
          List.flatMap_append]
        rfl
      have hlf : 0x0A ∉ Text.encode (String.ofList cs) := by
        refine lf_notMem_encode fun hmem => hline ?_
        rw [hcs]
        rw [String.toList_ofList] at hmem
        exact List.mem_append_left _ hmem
      refine ⟨Text.encode (String.ofList cs), ?_, hholds ?_⟩
      · rw [hreturn, List.append_assoc]
        exact Text.splitLines_crlf (by decide) hlf rest
      · rw [Text.isBlankText, hcs, List.all_append, Bool.and_eq_true] at hblank
        rw [Text.isBlankText, String.toList_ofList]
        exact hblank.1
    · exact ⟨Text.encode s, Text.splitLines_line (lf_notMem_encode hline)
        (hs ▸ getLast?_encode_ne hc) rest, hholds hblank⟩

/-! ## Lines -/

theorem byteLines_encode (rs : List AuditRecord) :
    Text.byteLines (encode rs) = rs.map fun r => Text.encode r.row := by
  induction rs with
  | nil => rfl
  | cons r rs ih =>
    have hrow := byteLines_row List.not_mem_nil r (encode rs)
    rw [List.nil_append, List.nil_append] at hrow
    rw [encode_cons, hrow, ih, List.map_cons]

/-- Every record ends its line, and nothing else does. -/
theorem count_lf_encode (rs : List AuditRecord) : (encode rs).count 0x0A = rs.length := by
  induction rs with
  | nil => rfl
  | cons r rs ih =>
    have hrow : (Text.encode r.row).count 0x0A = 0 := List.count_eq_zero.2 r.lf_notMem_row
    rw [encode_cons, AuditRecord.encode_line, List.count_append, List.count_append, hrow, ih,
      List.length_cons, List.count_singleton_self]
    omega

theorem parseLines_bytes {ls : List LogLine}
    (h : ∀ r ∈ ls.filterMap LogLine.record?, r.sequence ≤ Text.wordMax) (n : Nat) :
    parseLines n (Text.byteLines (LogLine.bytes ls)) = .ok (ls.filterMap LogLine.record?) := by
  induction ls generalizing n with
  | nil => rfl
  | cons l ls ih =>
    rw [LogLine.bytes, List.flatMap_cons, ← LogLine.bytes]
    cases l with
    | record r =>
      obtain ⟨hr, hls⟩ := List.forall_mem_cons.1 h
      have hrow := byteLines_row List.not_mem_nil r (LogLine.bytes ls)
      rw [List.nil_append, List.nil_append] at hrow
      rw [LogLine.text, hrow, parseLines_cons_iff]
      exact ⟨[r], _, holds_row hr, ih hls (n + 1), rfl⟩
    | blank s hblank hline =>
      obtain ⟨l, hlines, hl⟩ := byteLines_blank hblank hline (LogLine.bytes ls)
      rw [LogLine.text, hlines, parseLines_cons_iff]
      exact ⟨[], _, hl, ih h (n + 1), rfl⟩

/-- The records of a log are those on its lines. -/
theorem parse_bytes {ls : List LogLine}
    (h : ∀ r ∈ ls.filterMap LogLine.record?, r.sequence ≤ Text.wordMax) :
    parse (LogLine.bytes ls) = .ok (ls.filterMap LogLine.record?) :=
  parseLines_bytes h 1

end Log

namespace LogAt

variable {w : World} {path : Path} {content : Bytes}

/-- Records that the disk takes stand behind what was in the log. -/
theorem writeRecords (h : LogAt w path content) {rs : List AuditRecord}
    (hdisk : ∀ i < rs.length, w.faults (w.appends + i) = none) :
    ∃ w', StateT.run (rs.mapM (Trail.writeRecord path) : StateM World _) w =
        (rs.map fun _ => .ok (), w') ∧ LogAt w' path (content ++ Log.encode rs) := by
  induction rs generalizing w content with
  | nil =>
    refine ⟨w, rfl, ?_⟩
    rwa [Log.encode, List.flatMap_nil, List.append_nil]
  | cons r rs ih =>
    obtain ⟨w₁, hrun₁, hlog₁, happends, hfaults⟩ := h.writeRecord (hdisk 0 (by simp)) r
    have hdisk₁ : ∀ i < rs.length, w₁.faults (w₁.appends + i) = none := by
      intro i hi
      rw [hfaults, happends, Nat.add_assoc, Nat.add_comm 1 i]
      exact hdisk (i + 1) (by simpa using hi)
    obtain ⟨w', hrun, hlog⟩ := ih hlog₁ hdisk₁
    refine ⟨w', ?_, by rwa [Log.encode_cons, ← List.append_assoc]⟩
    rw [List.mapM_cons, Session.bind_run, hrun₁]
    dsimp only
    rw [Session.bind_run, hrun]
    rfl

end LogAt

/-- Records that are written to a fresh log, on a disk that takes them, are read back whatever they
hold. They stand on one line each, and are read as well if blank lines are put between these. -/
theorem log_format_faithful {w : World} {path : Path} (hfresh : FreshLog w path)
    {rs : List AuditRecord} (hrs : ∀ r ∈ rs, r.sequence ≤ Text.wordMax)
    (hdisk : ∀ i < rs.length, w.faults (w.appends + i) = none) :
    ∃ w₀ w' content, StateT.run (Trail.openSink path : StateM World _) w = (.ok (), w₀) ∧
      StateT.run (rs.mapM (Trail.writeRecord path) : StateM World _) w₀ =
        (rs.map fun _ => .ok (), w') ∧
      (StateT.run (Trail.readLog path : StateM World _) w').1 = .ok rs ∧
      w'.tree.read w'.directory path = .ok content ∧
      Text.byteLines content = (rs.map fun r => Text.encode r.row) ∧
      content.count 0x0A = rs.length ∧
      ∀ (ls : List LogLine) (w'' : World), ls.filterMap LogLine.record? = rs →
        w''.tree.read w''.directory path = .ok (LogLine.bytes ls) →
        (StateT.run (Trail.readLog path : StateM World _) w'').1 = .ok rs := by
  obtain ⟨tree, hopen, hlog⟩ := hfresh.logAt
  obtain ⟨w', hrun, hlog'⟩ := hlog.writeRecords hdisk
  rw [List.nil_append] at hlog'
  refine ⟨_, w', Log.encode rs, hopen, hrun, ?_, hlog'.read, Log.byteLines_encode rs,
    Log.count_lf_encode rs, ?_⟩
  · rw [Trail.readLog_run hlog'.read, Log.parse_encode hrs]
    rfl
  · rintro ls w'' rfl hread
    rw [Trail.readLog_run hread, Log.parse_bytes hrs]
    rfl

/-- A record with the largest number there is and one with every detail, whose texts JSON has to
escape. Somebody opens the log and puts a blank line between them. -/
theorem log_format_faithful_control :
    let w : World := ⟨.empty, [], [], fun n => ⟨n⟩, 0, fun _ => none, 0, fun _ _ => false⟩
    let path : Path := .ofText "logs/audit.jsonl"
    let r : AuditRecord := ⟨Text.wordMax, "a\nb", "\"", "\\", "\x00", "é", .completed, .empty⟩
    let r' : AuditRecord := ⟨0, "", "\r\n", "\x7f", "\t", "\u2028", .failed,
      ⟨some .timedOut, some "line\n2", some "\x1f", true⟩⟩
    let ls : List LogLine :=
      [.record r, .blank " \r" (by decide +kernel) (by decide +kernel), .record r']
    let logs := w.tree.put (FileTree.placeOf ["logs"]) .directory
    let tree := logs.put (FileTree.placeOf ["logs", "audit.jsonl"]) (.file (LogLine.bytes ls))
    FreshLog w path ∧
      (∃ w' content, w'.tree.read w'.directory path = .ok content ∧ content.count 0x0A = 2 ∧
        (StateT.run (Trail.readLog path : StateM World _) w').1 = .ok [r, r']) ∧
      (StateT.run (Trail.readLog path : StateM World _) { w with tree }).1 = .ok [r, r'] := by
  intro w path r r' ls logs tree
  have hfresh : FreshLog w path := ⟨by decide +kernel, by decide +kernel, by decide +kernel⟩
  have hwords : ∀ r₀ ∈ [r, r'], r₀.sequence ≤ Text.wordMax := by decide +kernel
  obtain ⟨-, w', content, -, -, hread, hcontent, -, hcount, hblank⟩ :=
    log_format_faithful hfresh hwords fun _ _ => rfl
  have hopen : logs.openPlace w.directory path =
      .ok (FileTree.placeOf ["logs", "audit.jsonl"]) := by
    decide +kernel
  have hedited := (FileTree.fileAt_put hopen (LogLine.bytes ls)).read
  exact ⟨hfresh, ⟨w', content, hcontent, hcount, hread⟩, hblank ls { w with tree } rfl hedited⟩

end RitualGate
