import RitualGate.Proofs.Persistence

/-!
# Going on with a log from elsewhere

A log that a trail goes on with may have been written by something else: it may have blank lines and
spaces where a trail writes none, and its last line need not be ended. `resumed_log` says what comes
of adding records to it. If its last line is ended, or holds nothing but blanks of JSON, then the log
can be read and gone on with, and has all the records. If not, the first record that is added ends
up on the last line, which is then no record, and the log can neither be read nor gone on with.
-/

namespace RitualGate

namespace LogUse

variable {path : Path} {w : World} {content : Bytes}

/-- Records that a disk takes all stand behind what was in the log. -/
theorem run_attached {rs : List AuditRecord} (hlog : LogAt w path content)
    (hchain : Chain.verify rs = .ok ()) {es : List AuditEntry}
    (hdisk : ∀ i < es.length, w.faults (w.appends + i) = none) (opened : Nat) :
    ∃ ss w', run path ⟨some ⟨rs, some path, none⟩, opened, w⟩ (es.map .append) =
        ⟨some ⟨rs ++ ss, some path, none⟩, opened, w'⟩ ∧
      LogAt w' path (content ++ Log.encode ss) ∧ Chain.verify (rs ++ ss) = .ok () ∧
      ss.length = es.length := by
  induction es generalizing rs w content with
  | nil =>
    refine ⟨[], w, ?_, ?_, ?_, rfl⟩
    · rw [List.append_nil]
      rfl
    · rwa [Log.encode, List.flatMap_nil, List.append_nil]
    · rwa [List.append_nil]
  | cons e es ih =>
    have hfault : w.faults w.appends = none := hdisk 0 (by simp)
    obtain ⟨r, w₁, hstep, hfits, hlog₁, happends, hfaults⟩ :=
      step_attached hlog hfault rs opened e
    have hdisk₁ : ∀ i < es.length, w₁.faults (w₁.appends + i) = none := by
      intro i hi
      rw [hfaults, happends, Nat.add_assoc, Nat.add_comm 1 i]
      exact hdisk (i + 1) (by simpa using hi)
    obtain ⟨ss, w', hrest, hlog', hchain', hlength⟩ :=
      ih hlog₁ (Chain.verify_concat_iff.2 ⟨hchain, hfits⟩) hdisk₁
    rw [List.append_assoc] at hrest hlog' hchain'
    refine ⟨r :: ss, w', ?_, hlog', hchain', by rw [List.length_cons, List.length_cons, hlength]⟩
    rw [List.map_cons, run, List.foldl_cons, hstep]
    exact hrest

/-- Records may be added to a log whose last line is ended, or blank as JSON has it. Added to any
other log, the first of them spoils the line that it ends up on. -/
theorem resumed_log {w w₁ : World} {path : Path} {content : Bytes} {t : Trail}
    (hkind : w.tree.kind? w.directory path = some .file)
    (hread : w.tree.read w.directory path = .ok content)
    (hopen : StateT.run (Trail.resume path : StateM World _) w = (.ok t, w₁))
    (es : List AuditEntry) (hdisk : ∀ i < es.length, w₁.faults (w₁.appends + i) = none) :
    ∃ t' w', run path ⟨some t, w₁.appends, w₁⟩ (es.map .append) = ⟨some t', w₁.appends, w'⟩ ∧
      t'.failure = none ∧ t'.records.length = t.records.length + es.length ∧
      Chain.verify t'.records = .ok () ∧
      (es = [] ∨ Log.EndsBlank content →
        (StateT.run (Trail.readLog path : StateM World _) w').1 = .ok t'.records ∧
        (StateT.run (Trail.resume path : StateM World _) w').1 =
          .ok ⟨t'.records, some path, none⟩) ∧
      (es ≠ [] → ¬ Log.EndsBlank content →
        let line := 1 + (Text.byteLines (Text.ended content)).length
        (StateT.run (Trail.readLog path : StateM World _) w').1 = .error (.malformedLog line) ∧
        (StateT.run (Trail.resume path : StateM World _) w').1 = .error (.malformedLog line)) := by
  obtain ⟨place, hlookup⟩ := FileTree.lookup_of_kind? hkind hread
  obtain ⟨rs, hexisting, hchain, hsink, rfl⟩ := Trail.resume_eq_ok_iff.1 hopen
  have hparse : Log.parse content = .ok rs := by
    rw [Trail.existing, if_pos hkind, Trail.readLog_run hread] at hexisting
    exact Trail.readResult_eq_ok_iff.1 hexisting
  -- opening leaves the content as it is, and everything that is added stands behind it
  obtain ⟨ss, w', hrun, hlog, hchain', hlength⟩ :=
    run_attached (LogAt.of_openSink hlookup hsink) hchain hdisk w₁.appends
  have hsequence : ∀ r ∈ ss, r.sequence ≤ Text.wordMax := fun r hr =>
    Chain.sequence_le_of_verifyFrom hchain' r (List.mem_append_right _ hr)
  refine ⟨_, w', hrun, rfl, by rw [List.length_append, hlength], hchain', ?_, ?_⟩
  · rintro (rfl | hend)
    · obtain rfl := List.length_eq_zero_iff.1 hlength
      rw [Log.encode, List.flatMap_nil, List.append_nil] at hlog
      rw [List.append_nil] at hchain' ⊢
      exact hlog.readable hparse hchain'
    · exact hlog.readable (Log.parse_append_encode hparse hend hsequence) hchain'
  · intro hne hend
    have hss : ss ≠ [] := by
      rintro rfl
      exact hne (List.length_eq_zero_iff.1 hlength.symm)
    obtain ⟨r, ss, rfl⟩ := List.exists_cons_of_ne_nil hss
    exact hlog.malformed (Log.parse_append_encode_malformed hparse hend r ss)

/-- A log with an empty line and a blank that is not ended. -/
theorem resumed_log_blank :
    let path : Path := .ofText "audit.jsonl"
    let w : World :=
      ⟨FileTree.empty.put (FileTree.placeOf ["audit.jsonl"]) (.file [0x0A, 0x20]), [], [],
        fun n => ⟨n⟩, 0, fun _ => none, 0, fun _ _ => false⟩
    let u := (start w).run path [.resume, .append failedRitual, .append failedRitual]
    Log.EndsBlank [0x0A, 0x20] ∧ ∃ t, u.trail = some t ∧ t.records.length = 2 ∧
      (StateT.run (Trail.readLog path : StateM World _) u.world).1 = .ok t.records := by
  intro path w u
  have hend : Log.EndsBlank [0x0A, 0x20] := by decide +kernel
  have hlog : LogAt w path [0x0A, 0x20] :=
    ⟨⟨FileTree.placeOf ["audit.jsonl"], by decide +kernel, FileTree.entry_put_self ..⟩,
      by unfold Settled; decide +kernel⟩
  have hopen : StateT.run (Trail.resume path : StateM World _) w =
      (.ok ⟨[], some path, none⟩, w) := hlog.resume_eq_ok_iff.2 ⟨by decide +kernel, rfl⟩
  have hu : u = run path ⟨some ⟨[], some path, none⟩, w.appends, w⟩
      ([failedRitual, failedRitual].map .append) := by
    simp only [u, run, List.map_cons, List.map_nil, List.foldl_cons, step, start, hopen]
    rfl
  obtain ⟨t, w', hrun, -, hlength, -, hreads, -⟩ :=
    resumed_log hlog.kind? hlog.read hopen [failedRitual, failedRitual] fun _ _ => rfl
  rw [← hu] at hrun
  rw [hrun]
  exact ⟨hend, t, rfl, hlength, (hreads (.inr hend)).1⟩

/-- A log with one record and no line feed. A record is added to it, and its own trail can no longer
go on with it. -/
theorem unended_log_spoiled :
    let e := failedRitual
    let r := Trail.empty.next e.statement e.outcome e.detail ⟨0⟩
    let path : Path := .ofText "audit.jsonl"
    let w : World :=
      ⟨FileTree.empty.put (FileTree.placeOf ["audit.jsonl"]) (.file (Text.encode r.row)), [], [],
        fun n => ⟨n⟩, 0, fun _ => none, 0, fun _ _ => false⟩
    let u := (start w).run path [.resume, .append e]
    (StateT.run (Trail.resume path : StateM World _) w).1 = .ok ⟨[r], some path, none⟩ ∧
      (∃ t, u.trail = some t ∧ t.failure = none ∧ t.records.length = 2) ∧
      (StateT.run (Trail.readLog path : StateM World _) u.world).1 = .error (.malformedLog 1) ∧
      (StateT.run (Trail.resume path : StateM World _) u.world).1 = .error (.malformedLog 1) := by
  intro e r path w u
  have hlog : LogAt w path (Text.encode r.row) :=
    ⟨⟨FileTree.placeOf ["audit.jsonl"], by decide +kernel, FileTree.entry_put_self ..⟩,
      by unfold Settled; decide +kernel⟩
  have hparse : Log.parse (Text.encode r.row) = .ok [r] :=
    (Log.parseLines_unended_iff r.lf_notMem_row).2 (Log.holds_row (Text.word_le 0))
  have hchain : Chain.verify [r] = .ok () :=
    Chain.verify_concat_iff.2 ⟨rfl, Trail.empty.fits_next _ _ _ _⟩
  have hopen := hlog.resume_eq_ok_iff.2 ⟨hparse, hchain⟩
  obtain ⟨hunended, hended⟩ := Text.unended_of_notMem r.lf_notMem_row
  have hend : ¬ Log.EndsBlank (Text.encode r.row) := by
    intro h
    rw [Log.EndsBlank, hunended] at h
    exact absurd (h 0x7B r.brace_mem_row) (by decide)
  have hdisk : ∀ i < [e].length, w.faults (w.appends + i) = none := fun _ _ => rfl
  obtain ⟨ss, w', hrun, hlog', -, hlength⟩ := run_attached hlog hchain hdisk w.appends
  have hu : u = run path ⟨some ⟨[r], some path, none⟩, w.appends, w⟩ ([e].map .append) := by
    simp only [u, run, List.map_cons, List.map_nil, List.foldl_cons, step, start, hopen]
    rfl
  obtain ⟨r', rfl⟩ := List.length_eq_one_iff.1 hlength
  have hmalformed := Log.parse_append_encode_malformed hparse hend r' []
  rw [hended] at hmalformed
  rw [hu, hrun, hopen]
  exact ⟨rfl, ⟨_, rfl, rfl, rfl⟩, hlog'.malformed hmalformed⟩

end LogUse

end RitualGate
