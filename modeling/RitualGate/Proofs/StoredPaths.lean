import Mathlib.Data.List.DropRight
import RitualGate.Project.Settings
import RitualGate.Proofs.Bytes

/-!
# Stored paths lead back

What remains of a path behind the root of its project is stored as it is shown, and a stored text is
joined to the root again. Both go by components, of which the same can be written in many ways.

The components of a path are what it begins with and the steps of its segments (`components_eq`). A
join to a path that is not absolute goes on with the steps of that path (`components_join`). What
remains behind a base is written anew, so that it is never taken for an absolute path or for one
that begins with a dot (`parts_ofParts`), and leads back to where it was taken from
(`components_join_of_stripBase?`).

What is stored is a text, and a path is shown as itself only if it is one. Whether it is one can be
told from its components (`isText_iff_components`), so no text leads where a path that is none leads
(`isText_of_join`). A target is thus found again if and only if it is absolute or lies under the
root and what remains of it is a text (`stored_leads_back`).

A path of steps only is stored letter by letter (`stripBase?_join`). The files of a new project are
stored in this way.
-/

namespace RitualGate

namespace Path

/-! ## Segments -/

theorem segments_eq_splitOn (bs : Bytes) : segments bs = bs.splitOn slash := by
  induction bs with
  | nil => rfl
  | cons b bs ih =>
    obtain ⟨s, ss, hss⟩ := List.exists_cons_of_ne_nil (List.splitOn_ne_nil slash bs)
    by_cases hb : b = slash <;>
      simp [segments, List.splitOn_cons_eq_if_modifyHead, ih, hss, hb]

theorem segments_ne_nil (bs : Bytes) : segments bs ≠ [] := by
  rw [segments_eq_splitOn]
  exact List.splitOn_ne_nil slash bs

theorem segments_append (as bs : Bytes) :
    segments (as ++ slash :: bs) = segments as ++ segments bs := by
  simp only [segments_eq_splitOn, List.splitOn_append_cons_self]

theorem joinSegments_segments (bs : Bytes) : joinSegments (segments bs) = bs := by
  rw [segments_eq_splitOn, joinSegments, List.intercalate_splitOn]

theorem slash_notMem_segments {s bs : Bytes} (h : s ∈ segments bs) : slash ∉ s := by
  induction bs generalizing s with
  | nil =>
    obtain rfl := List.mem_singleton.1 h
    exact List.not_mem_nil
  | cons b bs ih =>
    obtain ⟨t, ts, hts⟩ := List.exists_cons_of_ne_nil (segments_ne_nil bs)
    rw [segments, hts] at h
    rw [hts] at ih
    by_cases hb : b = slash
    · rw [if_pos hb] at h
      rcases List.mem_cons.1 h with rfl | h
      · exact List.not_mem_nil
      · exact ih h
    · rw [if_neg hb] at h
      rcases List.mem_cons.1 h with rfl | h
      · simp [Ne.symm hb, ih List.mem_cons_self]
      · exact ih (List.mem_cons_of_mem t h)

theorem segments_joinSegments {ss : List Bytes} (hslash : ∀ s ∈ ss, slash ∉ s)
    (hne : ss ≠ []) : segments (joinSegments ss) = ss := by
  rw [segments_eq_splitOn, joinSegments, List.splitOn_intercalate slash hslash hne]

/-! ## Steps -/

theorem isIdle_eq_false_iff {s : Bytes} : isIdle s = false ↔ s ≠ [] ∧ s ≠ [dot] := by
  simp [isIdle]

theorem steps_append (ss ts : List Bytes) : steps (ss ++ ts) = steps ss ++ steps ts := by
  simp only [steps, List.filter_append, List.map_append]

theorem steps_cons_idle {s : Bytes} (h : isIdle s = true) (ss : List Bytes) :
    steps (s :: ss) = steps ss := by
  simp [steps, h]

theorem steps_cons_active {s : Bytes} (h : isIdle s = false) (ss : List Bytes) :
    steps (s :: ss) = stepOf s :: steps ss := by
  simp [steps, h]

theorem steps_dropWhile (ss : List Bytes) : steps (ss.dropWhile isIdle) = steps ss := by
  induction ss with
  | nil => rfl
  | cons s ss ih =>
    by_cases hs : isIdle s = true
    · rw [List.dropWhile_cons_of_pos hs, ih, steps_cons_idle hs]
    · rw [List.dropWhile_cons_of_neg hs]

theorem steps_trimTail (ss : List Bytes) : steps (trimTail ss) = steps ss := by
  have hreverse (ts : List Bytes) : steps ts.reverse = (steps ts).reverse := by
    simp only [steps, List.filter_reverse, List.map_reverse]
  rw [trimTail, hreverse, steps_dropWhile, hreverse, List.reverse_reverse]

theorem steps_dropSteps (n : Nat) (ss : List Bytes) :
    steps (dropSteps n ss) = (steps ss).drop n := by
  induction ss generalizing n with
  | nil => cases n <;> rfl
  | cons s ss ih =>
    cases n with
    | zero => rfl
    | succ n =>
      by_cases hs : isIdle s = true
      · rw [dropSteps, if_pos hs, ih, steps_cons_idle hs]
      · rw [dropSteps, if_neg hs, ih, steps_cons_active (by simpa using hs), List.drop_succ_cons]

/-- What follows the steps of some segments begins with idle ones of these segments at most. -/
theorem dropWhile_dropSteps (ss ts : List Bytes) :
    (dropSteps (steps ss).length (ss ++ ts)).dropWhile isIdle = ts.dropWhile isIdle := by
  induction ss with
  | nil => exact congrArg _ (dropSteps.eq_1 ts)
  | cons s ss ih =>
    by_cases hs : isIdle s = true
    · rw [steps_cons_idle hs, List.cons_append]
      cases hn : (steps ss).length with
      | zero =>
        rw [hn, dropSteps] at ih
        rw [dropSteps, List.dropWhile_cons_of_pos hs, ih]
      | succ n =>
        rw [dropSteps, if_pos hs, ← hn, ih]
    · rw [steps_cons_active (by simpa using hs), List.length_cons, List.cons_append, dropSteps,
        if_neg hs, ih]

/-- Writing segments down and cutting the text again keeps their steps. -/
theorem steps_segments_joinSegments {ss : List Bytes} (hslash : ∀ s ∈ ss, slash ∉ s) :
    steps (segments (joinSegments ss)) = steps ss := by
  by_cases hne : ss = []
  · subst hne
    rfl
  · rw [segments_joinSegments hslash hne]

/-! ## Components -/

/-- What the components of a path begin with, by how it begins. -/
def Start.lead : Start → List Component
  | .absolute => [.root]
  | .dotted => [.here]
  | .bare => []

theorem components_eq (p : Path) : p.components = p.parts.1.lead ++ steps p.parts.2 := by
  rw [components]
  rcases p.parts with ⟨_ | _ | _, ss⟩ <;> rfl

theorem dropComponents_eq (n : Nat) (p : Path) :
    dropComponents n p = dropSteps (n - p.parts.1.lead.length) p.parts.2 := by
  rw [dropComponents]
  rcases p.parts with ⟨_ | _ | _, ss⟩ <;> rfl

theorem steps_dropComponents {n : Nat} (hn : 0 < n) (p : Path) :
    steps (dropComponents n p) = p.components.drop n := by
  have hlead : p.parts.1.lead.length ≤ n := by
    cases p.parts.1 with
    | absolute => exact hn
    | dotted => exact hn
    | bare => exact Nat.zero_le n
  rw [dropComponents_eq, steps_dropSteps, components_eq, List.drop_append,
    List.drop_eq_nil_of_le hlead, List.nil_append]

theorem mem_segments_of_mem_parts {p : Path} {s : Bytes} (h : s ∈ p.parts.2) :
    s ∈ segments p.bytes := by
  unfold parts at h
  split at h
  · cases h
  · rename_i t ts hts
    rw [hts]
    split at h
    · exact List.mem_cons_of_mem t h
    · split at h
      · exact List.mem_cons_of_mem t h
      · exact h

/-- A path that begins neither with a slash nor with a dot begins with a step, if with anything. -/
theorem bare_cases {p : Path} (h : p.parts.1 = .bare) :
    p.bytes = [] ∧ p.parts.2 = [[]] ∨
      ∃ s ss, p.parts.2 = s :: ss ∧ isIdle s = false := by
  obtain ⟨s, ss, hss⟩ := List.exists_cons_of_ne_nil (segments_ne_nil p.bytes)
  have hbytes := joinSegments_segments p.bytes
  rw [hss] at hbytes
  simp only [parts, hss] at h ⊢
  by_cases hroot : s = [] ∧ ss ≠ []
  · rw [if_pos hroot] at h
    cases h
  by_cases hdot : s = [dot]
  · rw [if_neg hroot, if_pos hdot] at h
    cases h
  rw [if_neg hroot, if_neg hdot]
  by_cases hs : s = []
  · obtain rfl : ss = [] := by
      by_contra hne
      exact hroot ⟨hs, hne⟩
    subst hs
    exact .inl ⟨hbytes.symm, rfl⟩
  · exact .inr ⟨s, ss, rfl, isIdle_eq_false_iff.2 ⟨hs, hdot⟩⟩

theorem components_eq_nil_iff (p : Path) : p.components = [] ↔ p.bytes = [] := by
  constructor
  · intro h
    rw [components_eq, List.append_eq_nil_iff] at h
    obtain ⟨hlead, hsteps⟩ := h
    have hbare : p.parts.1 = .bare := by
      cases hstart : p.parts.1 <;> simp [hstart, Start.lead] at hlead ⊢
    obtain ⟨hbytes, -⟩ | ⟨s, ss, hss, hs⟩ := bare_cases hbare
    · exact hbytes
    · rw [hss, steps_cons_active hs] at hsteps
      cases hsteps
  · intro h
    obtain ⟨bytes⟩ := p
    subst h
    rfl

/-- Up to a slash, a path begins in the same way whatever follows the slash. -/
theorem exists_parts (as : Bytes) : ∃ start front,
    (∀ (p : Path) bs, p.bytes = as ++ slash :: bs → p.parts = (start, front ++ segments bs)) ∧
      ∀ p : Path, p.bytes = as → as ≠ [] → p.parts = (start, front) := by
  obtain ⟨s, ss, hss⟩ := List.exists_cons_of_ne_nil (segments_ne_nil as)
  have hlong {p : Path} {bs : Bytes} (hp : p.bytes = as ++ slash :: bs) :
      segments p.bytes = s :: (ss ++ segments bs) := by
    rw [hp, segments_append, hss, List.cons_append]
  have hmore (bs : Bytes) : ss ++ segments bs ≠ [] :=
    List.append_ne_nil_of_right_ne_nil ss (segments_ne_nil bs)
  by_cases hroot : s = []
  · subst hroot
    refine ⟨.absolute, ss, fun p bs hp => ?_, fun p hp has => ?_⟩
    · simp [parts, hlong hp, hmore bs]
    · have hne : ss ≠ [] := by
        rintro rfl
        have has' := joinSegments_segments as
        rw [hss] at has'
        exact has has'.symm
      simp [parts, hp, hss, hne]
  by_cases hdot : s = [dot]
  · refine ⟨.dotted, ss, fun p bs hp => ?_, fun p hp _ => ?_⟩
    · simp [parts, hlong hp, hdot]
    · simp [parts, hp, hss, hdot]
  · refine ⟨.bare, s :: ss, fun p bs hp => ?_, fun p hp _ => ?_⟩
    · simp [parts, hlong hp, hroot, hdot]
    · simp [parts, hp, hss, hroot, hdot]

/-! ## Joining -/

variable {base p : Path}

theorem join_absolute (hp : p.isAbsolute = true) : base.join p = p := by
  rw [join, if_pos hp]

theorem join_empty (hbase : base.bytes = []) : base.join p = p := by
  unfold join
  split
  · rfl
  · rw [if_pos (.inl hbase), hbase, List.nil_append]

/-- Paths are joined to a base by the same bytes in front of them, unless they are absolute. -/
theorem exists_join (base : Path) :
    ∃ front, ∀ p : Path, p.isAbsolute = false → base.join p = ⟨front ++ p.bytes⟩ := by
  by_cases hslash : base.bytes = [] ∨ base.bytes.getLast? = some slash
  · exact ⟨base.bytes, fun p hp => by rw [join, if_neg (by simp [hp]), if_pos hslash]⟩
  · refine ⟨base.bytes ++ [slash], fun p hp => ?_⟩
    rw [join, if_neg (by simp [hp]), if_neg hslash, List.append_assoc, List.singleton_append]

/-- A join goes on behind the base, but for an empty segment at its end. -/
theorem parts_join (hbase : base.bytes ≠ []) (hp : p.isAbsolute = false) :
    ∃ front, steps base.parts.2 = steps front ∧
      (base.join p).parts = (base.parts.1, front ++ segments p.bytes) := by
  rw [join, if_neg (by simp [hp])]
  by_cases hlast : base.bytes.getLast? = some slash
  · obtain ⟨as, has⟩ := List.getLast?_eq_some_iff.1 hlast
    obtain ⟨start, front, hlong, -⟩ := exists_parts as
    rw [if_pos (.inr hlast), hlong base [] has]
    refine ⟨front, ?_, hlong _ _ ?_⟩
    · rw [steps_append]
      exact List.append_nil _
    · rw [has, List.append_assoc, List.singleton_append]
  · obtain ⟨start, front, hlong, hshort⟩ := exists_parts base.bytes
    rw [if_neg (by simp [hbase, hlast]), hshort base rfl hbase]
    exact ⟨front, rfl, hlong _ _ rfl⟩

theorem components_join (hbase : base.bytes ≠ []) (hp : p.isAbsolute = false) :
    (base.join p).components = base.components ++ steps (segments p.bytes) := by
  obtain ⟨front, hfront, hparts⟩ := parts_join hbase hp
  rw [components_eq, components_eq, hparts, hfront, steps_append, List.append_assoc]

/-- What is joined to a base lies under it, unless it is absolute. -/
theorem isPrefix_join (hp : p.isAbsolute = false) :
    base.components <+: (base.join p).components := by
  by_cases hbase : base.bytes = []
  · rw [(components_eq_nil_iff base).2 hbase]
    exact List.nil_prefix
  · rw [components_join hbase hp]
    exact List.prefix_append _ _

/-! ## What remains behind a base -/

theorem trimTail_isPrefix (ss : List Bytes) : trimTail ss <+: ss :=
  List.rdropWhile_prefix isIdle ss

theorem head?_trimTail {ss : List Bytes} {s : Bytes}
    (h : (trimTail ss).head? = some s) : ss.head? = some s := by
  obtain ⟨ts, hts⟩ := trimTail_isPrefix ss
  rw [← hts, List.head?_append, h]
  rfl

theorem dropSteps_suffix (n : Nat) (ss : List Bytes) : dropSteps n ss <:+ ss := by
  induction ss generalizing n with
  | nil => cases n <;> exact List.suffix_refl _
  | cons s ss ih =>
    cases n with
    | zero => exact List.suffix_refl _
    | succ n =>
      rw [dropSteps]
      split
      · exact (ih (n + 1)).trans (List.suffix_cons s ss)
      · exact (ih n).trans (List.suffix_cons s ss)

/-- A path that is written from parts has these parts, as far as its components go. A bare path must
not begin with an idle segment, which would be read as another beginning. -/
theorem parts_ofParts {start : Start} {ss : List Bytes} (hslash : ∀ s ∈ ss, slash ∉ s)
    (hhead : start = .bare → ∀ s, ss.head? = some s → isIdle s = false) :
    (ofParts start ss).parts.1 = start ∧ steps (ofParts start ss).parts.2 = steps ss := by
  cases start with
  | absolute =>
    have hsegments : segments (ofParts .absolute ss).bytes =
        [] :: segments (joinSegments ss) := by
      rw [ofParts, segments, if_pos rfl]
    simp [parts, hsegments, segments_ne_nil, steps_segments_joinSegments hslash]
  | dotted =>
    have hsegments : segments (ofParts .dotted ss).bytes = [dot] :: ss := by
      rw [ofParts]
      refine segments_joinSegments (List.forall_mem_cons.2 ⟨by decide, hslash⟩) ?_
      exact List.cons_ne_nil _ _
    simp [parts, hsegments]
  | bare =>
    cases ss with
    | nil => exact ⟨rfl, rfl⟩
    | cons s ss =>
      obtain ⟨hnil, hdot⟩ := isIdle_eq_false_iff.1 (hhead rfl s rfl)
      have hsegments : segments (ofParts .bare (s :: ss)).bytes = s :: ss := by
        rw [ofParts]
        exact segments_joinSegments hslash (List.cons_ne_nil _ _)
      simp [parts, hsegments, hnil, hdot]

theorem components_trimEnd (p : Path) : p.trimEnd.components = p.components := by
  have hparts : (ofParts p.parts.1 (trimTail p.parts.2)).parts.1 = p.parts.1 ∧
      steps (ofParts p.parts.1 (trimTail p.parts.2)).parts.2 = steps (trimTail p.parts.2) := by
    refine parts_ofParts (fun s hs => ?_) fun hbare s hs => ?_
    · exact slash_notMem_segments (mem_segments_of_mem_parts ((trimTail_isPrefix _).subset hs))
    · obtain ⟨-, hempty⟩ | ⟨t, ts, hts, ht⟩ := bare_cases hbare
      · rw [hempty] at hs
        cases hs
      · have hhead := head?_trimTail hs
        rw [hts] at hhead
        cases hhead
        exact ht
  rw [components_eq, components_eq p, trimEnd, hparts.1, hparts.2, steps_trimTail]

/-- The segments of a path behind a number of components, without idle ones at either end. -/
def behind (n : Nat) (p : Path) : List Bytes :=
  trimTail ((dropComponents n p).dropWhile isIdle)

theorem mem_segments_of_mem_behind {n : Nat} {s : Bytes} (hs : s ∈ behind n p) :
    s ∈ segments p.bytes := by
  have hdropped := (List.dropWhile_suffix isIdle).subset ((trimTail_isPrefix _).subset hs)
  rw [dropComponents_eq] at hdropped
  exact mem_segments_of_mem_parts ((dropSteps_suffix _ _).subset hdropped)

theorem slash_notMem_behind {n : Nat} {s : Bytes} (hs : s ∈ behind n p) : slash ∉ s :=
  slash_notMem_segments (mem_segments_of_mem_behind hs)

theorem head?_behind {n : Nat} {s : Bytes} (hs : (behind n p).head? = some s) :
    isIdle s = false := by
  have hidle := List.head?_dropWhile_not isIdle (dropComponents n p)
  rw [head?_trimTail hs] at hidle
  exact hidle

theorem steps_behind {n : Nat} (hn : 0 < n) (p : Path) :
    steps (behind n p) = p.components.drop n := by
  rw [behind, steps_trimTail, steps_dropWhile, steps_dropComponents hn]

/-- What remains of a path behind a base leads to the path again. -/
theorem components_join_of_stripBase? {rest : Path} (h : p.stripBase? base = some rest) :
    (base.join rest).components = p.components := by
  unfold stripBase? at h
  split at h
  · rename_i hbase
    obtain rfl := Option.some.inj h
    rw [join_empty ((components_eq_nil_iff base).1 hbase), components_trimEnd]
  rename_i hbase
  split at h
  · rename_i hunder
    obtain rfl : ofParts .bare (behind base.components.length p) = rest := Option.some.inj h
    have hbytes : base.bytes ≠ [] := fun h => hbase ((components_eq_nil_iff base).2 h)
    have habsolute : (ofParts .bare (behind base.components.length p)).isAbsolute = false := by
      rw [isAbsolute, (parts_ofParts (fun _ => slash_notMem_behind) fun _ _ => head?_behind).1]
      rfl
    rw [components_join hbytes habsolute, ofParts,
      steps_segments_joinSegments fun _ => slash_notMem_behind,
      steps_behind (List.length_pos_iff.2 hbase)]
    have hbelow := List.isPrefixOf_iff_prefix.1 hunder
    exact List.prefix_iff_eq_append.1 hbelow
  · cases h

theorem stripBase?_eq_none_iff :
    p.stripBase? base = none ↔ ¬ base.components <+: p.components := by
  unfold stripBase?
  split
  · rename_i hbase
    simp [hbase]
  · split
    · rename_i hunder
      have hbelow := List.isPrefixOf_iff_prefix.1 hunder
      simp [hbelow]
    · rename_i hout
      have habove := mt List.isPrefixOf_iff_prefix.2 hout
      simp [habove]

/-! ## Paths without idle segments -/

/-- A path of which every segment is a step. -/
def Plain (p : Path) : Prop :=
  ∀ s ∈ segments p.bytes, isIdle s = false

instance (p : Path) : Decidable p.Plain :=
  inferInstanceAs (Decidable (∀ s ∈ segments p.bytes, isIdle s = false))

theorem Plain.exists_cons (hp : p.Plain) :
    ∃ s ss, segments p.bytes = s :: ss ∧ isIdle s = false := by
  obtain ⟨s, ss, hss⟩ := List.exists_cons_of_ne_nil (segments_ne_nil p.bytes)
  refine ⟨s, ss, hss, hp s ?_⟩
  rw [hss]
  exact List.mem_cons_self

theorem Plain.parts (hp : p.Plain) : p.parts = (.bare, segments p.bytes) := by
  obtain ⟨s, ss, hss, hs⟩ := hp.exists_cons
  obtain ⟨hnil, hdot⟩ := isIdle_eq_false_iff.1 hs
  simp [Path.parts, hss, hnil, hdot]

theorem Plain.isAbsolute (hp : p.Plain) : p.isAbsolute = false := by
  rw [Path.isAbsolute, hp.parts]
  rfl

theorem Plain.bytes_ne (hp : p.Plain) : p.bytes ≠ [] := by
  intro h
  have hidle : isIdle [] = false := hp [] (by rw [h]; exact List.mem_singleton_self _)
  cases hidle

theorem Plain.getLast?_ne (hp : p.Plain) : p.bytes.getLast? ≠ some slash := by
  intro h
  obtain ⟨as, has⟩ := List.getLast?_eq_some_iff.1 h
  have hmem : [] ∈ segments p.bytes := by
    rw [has, segments_append]
    exact List.mem_append_right _ (List.mem_singleton_self _)
  cases hp [] hmem

theorem Plain.slash {q : Path} (hp : p.Plain) (hq : q.Plain) :
    Plain ⟨p.bytes ++ Path.slash :: q.bytes⟩ := by
  intro s hs
  rw [segments_append] at hs
  exact (List.mem_append.1 hs).elim (hp s) (hq s)

theorem trimTail_of_active {ss : List Bytes} (hss : ∀ s ∈ ss, isIdle s = false) :
    trimTail ss = ss := by
  refine List.rdropWhile_eq_self_iff.2 fun hne hlast => ?_
  rw [hss _ (List.getLast_mem hne)] at hlast
  cases hlast

/-- A plain path is written from its segments, none of which are trimmed. -/
theorem Plain.ofParts (hp : p.Plain) :
    Path.ofParts .bare (trimTail (segments p.bytes)) = p := by
  rw [trimTail_of_active hp, Path.ofParts, joinSegments_segments]

/-- What remains of a join behind its base is what was joined, letter by letter. -/
theorem stripBase?_join (hp : p.Plain) : (base.join p).stripBase? base = some p := by
  by_cases hbase : base.bytes = []
  · rw [stripBase?, if_pos ((components_eq_nil_iff base).2 hbase), join_empty hbase, trimEnd,
      hp.parts, hp.ofParts]
  · have hunder : base.components.isPrefixOf (base.join p).components = true :=
      List.isPrefixOf_iff_prefix.2 (isPrefix_join hp.isAbsolute)
    obtain ⟨front, hfront, hparts⟩ := parts_join hbase hp.isAbsolute
    have hlength : base.components.length - base.parts.1.lead.length = (steps front).length := by
      rw [components_eq, List.length_append, hfront]
      omega
    have hhead : (segments p.bytes).dropWhile isIdle = segments p.bytes := by
      obtain ⟨s, ss, hss, hs⟩ := hp.exists_cons
      rw [hss, List.dropWhile_cons_of_neg (by simp [hs])]
    rw [stripBase?, if_neg (fun h => hbase ((components_eq_nil_iff base).1 h)), if_pos hunder,
      dropComponents_eq, hparts, hlength, dropWhile_dropSteps, hhead, hp.ofParts]

/-- Behind a plain path there is a slash before what is joined. -/
theorem Plain.join_behind {q : Path} (hp : p.Plain) (hq : q.Plain) (front : Bytes) :
    join ⟨front ++ p.bytes⟩ q = ⟨front ++ (p.bytes ++ Path.slash :: q.bytes)⟩ := by
  have hlast : (front ++ p.bytes).getLast? ≠ some Path.slash := by
    rw [List.getLast?_append_of_ne_nil _ hp.bytes_ne]
    exact hp.getLast?_ne
  have hne : front ++ p.bytes ≠ [] := by simp [hp.bytes_ne]
  rw [join, if_neg (by simp [hq.isAbsolute]), if_neg (not_or.2 ⟨hne, hlast⟩), List.append_assoc]

/-- Two plain paths are joined one after the other as they are joined at once. -/
theorem join_join {q : Path} (hp : p.Plain) (hq : q.Plain) :
    (base.join p).join q = base.join ⟨p.bytes ++ Path.slash :: q.bytes⟩ := by
  obtain ⟨front, hfront⟩ := exists_join base
  rw [hfront p hp.isAbsolute, hfront _ (hp.slash hq).isAbsolute, hp.join_behind hq]

/-! ## Paths that are texts -/

/-- A step whose name is a text, if it has one. -/
def Component.IsText : Component → Prop
  | .name s => Text.IsText s
  | _ => True

theorem isText_joinSegments (ss : List Bytes) :
    Text.IsText (joinSegments ss) ↔ ∀ s ∈ ss, Text.IsText s := by
  induction ss with
  | nil => exact ⟨fun _ => nofun, fun _ => Text.isText_flatMap []⟩
  | cons s ss ih =>
    cases ss with
    | nil => simp [joinSegments]
    | cons t ts =>
      have hjoin : joinSegments (s :: t :: ts) = s ++ slash :: joinSegments (t :: ts) := rfl
      rw [hjoin, Text.isText_append_cons (by decide), ih, List.forall_mem_cons (a := s)]

theorem isText_iff_segments (bytes : Bytes) :
    Text.IsText bytes ↔ ∀ s ∈ segments bytes, Text.IsText s := by
  rw [← isText_joinSegments, joinSegments_segments]

theorem isText_of_isIdle {s : Bytes} (h : isIdle s = true) : Text.IsText s := by
  have hcases : s = [] ∨ s = [dot] := by simpa [isIdle] using h
  rcases hcases with rfl | rfl
  · exact Text.isText_flatMap []
  · exact Text.isText_flatMap ['.']

theorem isText_stepOf (s : Bytes) : (stepOf s).IsText ↔ Text.IsText s := by
  unfold stepOf
  split
  · rename_i hup
    subst hup
    exact ⟨fun _ => Text.isText_flatMap ['.', '.'], fun _ => trivial⟩
  · exact Iff.rfl

theorem isText_steps (ss : List Bytes) :
    (∀ c ∈ steps ss, c.IsText) ↔ ∀ s ∈ ss, Text.IsText s := by
  induction ss with
  | nil => exact ⟨fun _ => nofun, fun _ => nofun⟩
  | cons s ss ih =>
    by_cases hs : isIdle s = true
    · simp [steps_cons_idle hs, ih, isText_of_isIdle hs]
    · rw [steps_cons_active (by simpa using hs), List.forall_mem_cons, List.forall_mem_cons, ih,
        isText_stepOf]

theorem isText_iff_parts (p : Path) :
    Text.IsText p.bytes ↔ ∀ s ∈ p.parts.2, Text.IsText s := by
  rw [isText_iff_segments]
  refine ⟨fun h s hs => h s (mem_segments_of_mem_parts hs), fun h => ?_⟩
  obtain ⟨s, ss, hss⟩ := List.exists_cons_of_ne_nil (segments_ne_nil p.bytes)
  simp only [parts, hss] at h
  rw [hss, List.forall_mem_cons]
  split at h
  · rename_i hroot
    exact ⟨isText_of_isIdle (by simp [isIdle, hroot.1]), h⟩
  · split at h
    · rename_i hdot
      exact ⟨isText_of_isIdle (by simp [isIdle, hdot]), h⟩
    · exact List.forall_mem_cons.1 h

/-- Whether a path is a text can be told from its components. -/
theorem isText_iff_components (p : Path) : Text.IsText p.bytes ↔ ∀ c ∈ p.components, c.IsText := by
  have hlead : ∀ c ∈ p.parts.1.lead, c.IsText := by
    cases p.parts.1 <;> simp [Start.lead, Component.IsText]
  rw [isText_iff_parts, ← isText_steps, components_eq, List.forall_mem_append]
  exact ⟨fun h => ⟨hlead, h⟩, And.right⟩

theorem isAbsolute_iff (p : Path) : p.isAbsolute = true ↔ p.bytes.head? = some slash := by
  obtain ⟨bytes⟩ := p
  cases bytes with
  | nil => exact ⟨nofun, nofun⟩
  | cons b bs =>
    obtain ⟨s, ss, hss⟩ := List.exists_cons_of_ne_nil (segments_ne_nil bs)
    by_cases hb : b = slash <;> simp [isAbsolute, parts, segments, hss, hb]
    split <;> nofun

theorem isAbsolute_ofText_text (p : Path) : (ofText p.text).isAbsolute = p.isAbsolute := by
  rw [Bool.eq_iff_iff, isAbsolute_iff, isAbsolute_iff]
  exact Text.head?_encode_lossy (by decide) p.bytes

/-- A path that leads from a base where a text leads is a text. -/
theorem isText_of_join {q : Path} (hq : Text.IsText q.bytes)
    (habsolute : q.isAbsolute = p.isAbsolute)
    (h : (base.join q).components = (base.join p).components) : Text.IsText p.bytes := by
  have hsame (hcomponents : q.components = p.components) : Text.IsText p.bytes := by
    rwa [isText_iff_components, ← hcomponents, ← isText_iff_components]
  by_cases hbase : base.bytes = []
  · rw [join_empty hbase, join_empty hbase] at h
    exact hsame h
  cases hp : p.isAbsolute with
  | true =>
    rw [join_absolute hp, join_absolute (habsolute.trans hp)] at h
    exact hsame h
  | false =>
    rw [components_join hbase hp, components_join hbase (habsolute.trans hp)] at h
    rw [isText_iff_segments, ← isText_steps, ← List.append_cancel_left h, isText_steps,
      ← isText_iff_segments]
    exact hq

/-- What remains of a text behind a base is a text. -/
theorem isText_of_stripBase? {rest : Path} (hp : Text.IsText p.bytes)
    (h : p.stripBase? base = some rest) : Text.IsText rest.bytes := by
  unfold stripBase? at h
  split at h
  · obtain rfl := Option.some.inj h
    rwa [isText_iff_components, components_trimEnd, ← isText_iff_components]
  split at h
  · obtain rfl : ofParts .bare (behind base.components.length p) = rest := Option.some.inj h
    refine (isText_joinSegments _).2 fun s hs => ?_
    exact (isText_iff_segments p.bytes).1 hp s (mem_segments_of_mem_behind hs)
  · cases h

end Path

namespace ProjectLayout

variable {l : ProjectLayout} {target : Path}

/-- What remains behind the root, joined to the root, is the target if that is absolute or lies
under the root. -/
theorem components_join_relative
    (h : target.isAbsolute = true ∨ l.root.components <+: target.components) :
    (l.root.join (l.relative target)).components = target.components := by
  unfold relative
  split
  · rename_i rest hrest
    exact Path.components_join_of_stripBase? hrest
  · rename_i hnone
    rw [Path.join_absolute (h.resolve_right (Path.stripBase?_eq_none_iff.1 hnone))]

/-- A path that is stored as a text is read as it was stored. -/
theorem resolve_relativeText (h : Text.IsText (l.relative target).bytes) :
    l.resolve (l.relativeText target) = l.root.join (l.relative target) := by
  rw [resolve, relativeText, Path.text, Path.ofText, Text.isText_iff.1 h]

theorem isText_relative (h : Text.IsText target.bytes) : Text.IsText (l.relative target).bytes := by
  unfold relative
  split
  · rename_i rest hrest
    exact Path.isText_of_stripBase? h hrest
  · exact h

/-- Whatever a target that is not absolute is stored as, it is read as a path under the root. -/
theorem absolute_or_under
    (h : (l.resolve (l.relativeText target)).components = target.components) :
    target.isAbsolute = true ∨ l.root.components <+: target.components := by
  by_cases hout : target.stripBase? l.root = none
  · by_cases habsolute : target.isAbsolute = true
    · exact .inl habsolute
    · right
      have hsame : l.relative target = target := by rw [relative, hout]
      rw [← h, relativeText, hsame]
      refine Path.isPrefix_join ?_
      rw [Path.isAbsolute_ofText_text]
      simpa using habsolute
  · exact .inr (by_contra fun hnot => hout (Path.stripBase?_eq_none_iff.2 hnot))

/-- A plain path under the root is stored as it is and read letter by letter, if it is a text. -/
theorem resolve_relativeText_join {p : Path} (hp : p.Plain) (htext : Text.IsText p.bytes) :
    l.resolve (l.relativeText (l.root.join p)) = l.root.join p := by
  have hrelative : l.relative (l.root.join p) = p := by rw [relative, Path.stripBase?_join hp]
  rw [resolve_relativeText (by rwa [hrelative]), hrelative]

/-- The files that a layout keeps by itself are plain paths under the root. -/
theorem resolve_metaDir_child {name : String} (hname : (Path.ofText name).Plain) :
    l.resolve (l.relativeText (l.metaDir.child name)) = l.metaDir.child name := by
  have hdirectory : (Path.ofText ".spiral").Plain := by decide +kernel
  rw [metaDir, Path.child, Path.child, Path.join_join hdirectory hname]
  refine resolve_relativeText_join (hdirectory.slash hname) ?_
  exact (Text.isText_append_cons (by decide)).2 ⟨Text.isText_encode _, Text.isText_encode _⟩

/-- A path that is stored and read again is what it was, component by component, if and only if it
is absolute or lies under the root, and what is stored of it is a text. Of a text a text is stored.
What the settings of a new project store leads to the files of its layout, byte by byte, whatever
the root. -/
theorem stored_leads_back (l : ProjectLayout) (name : String) :
    (∀ target : Path, (l.resolve (l.relativeText target)).components = target.components ↔
      (target.isAbsolute = true ∨ l.root.components <+: target.components) ∧
        Text.IsText (l.relative target).bytes) ∧
    (∀ target : Path, Text.IsText target.bytes → Text.IsText (l.relative target).bytes) ∧
    l.resolve (ProjectConfig.new name l).archive = l.archivePath ∧
    l.resolve (ProjectConfig.new name l).auditLog = l.auditLogPath := by
  refine ⟨fun target => ⟨fun h => ?_, fun ⟨hwhere, htext⟩ => ?_⟩, fun target => isText_relative,
    resolve_metaDir_child (by decide +kernel), resolve_metaDir_child (by decide +kernel)⟩
  · have hwhere := absolute_or_under h
    have hjoined : (l.root.join (.ofText (l.relative target).text)).components =
        (l.root.join (l.relative target)).components :=
      h.trans (components_join_relative hwhere).symm
    exact ⟨hwhere,
      Path.isText_of_join (Text.isText_encode _) (Path.isAbsolute_ofText_text _) hjoined⟩
  · rw [resolve_relativeText htext, components_join_relative hwhere]

/-- A byte that is no text is replaced in what is stored, and leads elsewhere from there, also under
the root. -/
theorem stored_lossy :
    let l : ProjectLayout := ⟨.ofText "/p"⟩
    let target : Path := ⟨Text.encode "/p/" ++ [0xFF]⟩
    target.isAbsolute = true ∧ l.root.components <+: target.components ∧
      l.resolve (l.relativeText target) = .ofText "/p/\uFFFD" ∧
      (l.resolve (l.relativeText target)).components ≠ target.components := by
  decide +kernel

/-- Idle segments are left out at both ends of what is stored, and kept between. -/
example :
    (ProjectLayout.mk (.ofText "a//b/")).relativeText (.ofText "a/./b/..//c/.") = "..//c" := by
  decide +kernel

/-- A relative path that is not under the root is moved under it. -/
example :
    let l : ProjectLayout := ⟨.ofText "."⟩
    l.resolve (l.relativeText (.ofText "a")) = .ofText "./a" := by
  decide +kernel

end ProjectLayout

end RitualGate
