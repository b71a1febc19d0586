import RitualGate.Proofs.AuditTrail
import RitualGate.Proofs.Routing

/-!
# Voices and containment

A dispatch to a voice asks for a persona: its own, else that of the session, else the default. The
router gives a handle for it (`Router.Routes`): the containment handle while containment holds, and
otherwise the persona itself, which then has to be in the allow-set. The handle is found before the
cost is paid and kept from then on (`evaluate_handle`), so the record of a dispatch names its voice
even if the archive or the voice fails, and no other record names one (`evaluate_handle_eq_none`).
The router and the default persona of a session are those of its configuration throughout a run
(`equipped_run`), and `voices_traced` puts this together for every moment of every run.
-/

namespace RitualGate

/-! ## The handle of a persona -/

/-- `r.Routes p contained h`: the router has the handle `h` for the persona `p`, with containment or
without. -/
structure Router.Routes (r : Router) (p : Persona) (contained : Bool) (h : VoiceHandle) : Prop where
  requested : h.requested = p
  held : contained = true → h.name = r.containmentHandle ∧ h.substituted = true
  free : contained = false → h.name = p.token ∧ p ∈ r.personas ∧ h.substituted = false

theorem Router.routes_of_resolve {r : Router} {p : Persona} {contained : Bool} {h : VoiceHandle}
    (hr : r.resolve p contained = .ok h) : r.Routes p contained h := by
  unfold resolve at hr
  cases contained with
  | true =>
    cases hr
    exact ⟨rfl, fun _ => ⟨rfl, rfl⟩, nofun⟩
  | false =>
    rw [if_neg Bool.false_ne_true] at hr
    by_cases hp : r.allows p = true
    · rw [if_pos hp] at hr
      cases hr
      exact ⟨rfl, nofun, fun _ => ⟨rfl, List.contains_iff_mem.1 hp, rfl⟩⟩
    · rw [if_neg hp] at hr
      cases hr

theorem Router.Routes.substituted_eq {r : Router} {p : Persona} {contained : Bool} {h : VoiceHandle}
    (hr : r.Routes p contained h) : h.substituted = contained := by
  cases contained with
  | true => exact (hr.held rfl).2
  | false => exact (hr.free rfl).2.2

namespace Session

/-- A dispatch outside the archive has a voice, that of its speaker. -/
theorem routes_of_voiceFor {s : Session} {st : Statement} {handle : Option VoiceHandle}
    (hf : st.family ≠ .archive) (hv : s.voiceFor st = .ok handle) :
    ∃ h, handle = some h ∧ s.router.Routes (s.speaker st) s.grants.containment h := by
  rw [voiceFor, if_neg hf] at hv
  split at hv
  · rename_i h hr
    cases hv
    exact ⟨h, rfl, Router.routes_of_resolve hr⟩
  · cases hv

/-! ## The handle of an evaluation -/

section Evaluate

variable {s : Session} {c : Collaborators} {st : Statement}

/-- What is paid for goes on to the archive and the voice. -/
theorem evaluate_eq_consult {handle : Option VoiceHandle} {g : Governor} (hp : s.Paid st handle g) :
    s.evaluate c st = { s with governor := g }.consult c st handle := by
  obtain ⟨⟨hcheck, hlevel⟩, ho, hvoice, hcharge⟩ := hp
  rw [evaluate, hcheck]
  simp only [hlevel]
  rw [perform_eq_dispatch ho, dispatch, hvoice]
  simp only [hcharge]

theorem consult_handle (s : Session) (c : Collaborators) (st : Statement)
    (handle : Option VoiceHandle) : (s.consult c st handle).handle = handle := by
  rcases hr : resolve c.archive (topicOf st) st.cards with ⟨asked, e | cards⟩
  · simp only [consult, hr]
  · cases handle with
    | none => simp only [consult, hr, speak]
    | some handle =>
      cases ha : c.responder handle st.args with
      | error e => simp only [consult, hr, speak, ha]
      | ok text => simp only [consult, hr, speak, ha]

/-- What is paid for keeps its handle, whatever the collaborators do. -/
theorem evaluate_handle {handle : Option VoiceHandle} {g : Governor} (hp : s.Paid st handle g) :
    (s.evaluate c st).handle = handle ∧ (s.evaluate c st).session.governor = g := by
  rw [evaluate_eq_consult hp]
  exact ⟨consult_handle _ c st handle, consult_governor _ c st handle⟩

/-- What is not paid for has no handle. -/
theorem evaluate_handle_eq_none (hn : ∀ handle g, ¬ s.Paid st handle g) :
    (s.evaluate c st).handle = none := by
  have course := evaluate_course s c st
  generalize s.evaluate c st = e at course
  cases course with
  | cardsFailed hp => exact absurd hp (hn _ _)
  | fetched hp => exact absurd hp (hn _ _)
  | voiceFailed hp => exact absurd hp (hn _ _)
  | answered hp => exact absurd hp (hn _ _)
  | _ => rfl

theorem respond_notMem_lookups (st : Statement) (asked : List CardRef) (h : VoiceHandle)
    (args : Args) : .respond h args ∉ lookups st asked := by
  simp [lookups]

/-- Whoever is asked to respond is the voice that was paid for. -/
theorem paid_of_respond {h : VoiceHandle} {args : Args}
    (hc : .respond h args ∈ (s.evaluate c st).calls) : ∃ g, s.Paid st (some h) g := by
  have course := evaluate_course s c st
  generalize s.evaluate c st = e at course hc
  have voice {handle : VoiceHandle} {asked : List CardRef}
      (hc : .respond h args ∈ lookups st asked ++ [.respond handle st.args]) : handle = h := by
    rcases List.mem_append.1 hc with hc | hc
    · exact absurd hc (respond_notMem_lookups st asked h args)
    · cases List.mem_singleton.1 hc
      rfl
  cases course with
  | cardsFailed => exact absurd hc (respond_notMem_lookups st _ h args)
  | fetched => exact absurd hc (respond_notMem_lookups st _ h args)
  | voiceFailed hp => exact ⟨_, voice hc ▸ hp⟩
  | answered hp => exact ⟨_, voice hc ▸ hp⟩
  | _ => cases hc

end Evaluate

/-! ## The handle on record -/

section Recorded

variable {s : Session} {k : Collaborators} {st : Statement} {now : Instant}
  {written : Except IoError Unit}

/-- The record of what was paid for has its handle. -/
theorem recorded_of_paid {handle : Option VoiceHandle} {g : Governor} (hp : s.Paid st handle g) :
    (s.recorded k st now written).1.governor = g ∧
      (s.recorded k st now written).2.record.detail.handle = handle.map VoiceHandle.name ∧
      (s.recorded k st now written).2.record.detail.substituted =
        handle.any VoiceHandle.substituted := by
  obtain ⟨rfl, rfl⟩ := evaluate_handle (s := { s with phase := .processing }) (c := k) hp
  exact ⟨rfl, rfl, rfl⟩

/-- The record of what was not paid for has none. -/
theorem recorded_of_unpaid (hn : ∀ handle g, ¬ s.Paid st handle g) :
    (s.recorded k st now written).2.record.detail.handle = none ∧
      (s.recorded k st now written).2.record.detail.substituted = false := by
  have hnone := evaluate_handle_eq_none (s := { s with phase := .processing }) (c := k) hn
  exact ⟨congrArg (Option.map VoiceHandle.name) hnone,
    congrArg (Option.any VoiceHandle.substituted) hnone⟩

theorem paid_of_recorded_respond {h : VoiceHandle} {args : Args}
    (hc : .respond h args ∈ (s.recorded k st now written).2.calls) :
    ∃ g, s.Paid st (some h) g :=
  paid_of_respond (s := { s with phase := .processing }) hc

end Recorded

/-! ## Runs -/

/-- A session has the router and the default persona of a configuration. -/
def Equipped (c : Config) (s : Session) : Prop :=
  s.router = ⟨c.personas, c.containmentHandle⟩ ∧ s.defaultPersona = c.defaultPersona

theorem equipped_step {c : Config} {s s' : Session} {op : Operation}
    {answer : Except RitualError (Option Execution)} (h : Equipped c s)
    (hstep : Step s op s' answer) : Equipped c s' := by
  cases hstep with
  | @executed _ k st =>
    have hkept := evaluate_kept { s with phase := .processing } k st
    exact ⟨hkept.router.trans h.1, hkept.defaultPersona.trans h.2⟩
  | _ => exact h

theorem equipped_run {c : Config} {t : Trail} (w : World) (ops : List Operation) :
    Equipped c ((ofConfig c t).run w ops).session :=
  run_induction (P := fun _ s => Equipped c s) ⟨rfl, rfl⟩ equipped_step w ops

/-- The handle `h` is what the configuration provides for a statement in a session: the persona of
the statement, else of the session, else the default, with containment or without. -/
def Voices (c : Config) (s : Session) (st : Statement) (h : VoiceHandle) : Prop :=
  Router.Routes ⟨c.personas, c.containmentHandle⟩ ((st.voice.or s.voice).getD c.defaultPersona)
    s.grants.containment h

/-- The keywords that call on a voice. -/
def CallsVoice (st : Statement) : Prop :=
  (st.family = .ritual ∧ st.verb = .engage) ∨ (st.family = .companion ∧ st.verb = .summon)

/-- What is known of the voice of a statement that was processed at a moment, and of what the record
says about it. -/
structure VoiceTraced (c : Config) (m : Moment) (st : Statement) (x : Execution) : Prop where
  /-- Every handle that was asked to respond is the one provided for. -/
  heard : ∀ h args, .respond h args ∈ x.calls → Voices c m.before st h
  /-- A dispatch to a voice that was paid for has its handle on record, whether anyone responded or
  not. -/
  paid : CallsVoice st → ∀ handle g, m.before.Paid st handle g → m.after.governor = g ∧
    ∃ h, Voices c m.before st h ∧ (∀ h' args, .respond h' args ∈ x.calls → h' = h) ∧
      x.record.detail.handle = some h.name ∧
      x.record.detail.substituted = m.before.grants.containment
  /-- Nothing else has a handle on record. -/
  other : ¬ (CallsVoice st ∧ ∃ handle g, m.before.Paid st handle g) →
    x.record.detail.handle = none ∧ x.record.detail.substituted = false
  /-- The record is the one that was added. -/
  record : m.after.trail.records = m.before.trail.records ++ [x.record]

theorem CallsVoice.family_ne {st : Statement} (h : CallsVoice st) : st.family ≠ .archive := by
  rcases h with ⟨hf, -⟩ | ⟨hf, -⟩ <;> simp [hf]

section Step

variable {c : Config} {s s' : Session} {st : Statement} {handle : Option VoiceHandle}
  {g : Governor}

theorem voices_of_paid (he : Equipped c s) (hf : st.family ≠ .archive) (hp : s.Paid st handle g) :
    ∃ h, handle = some h ∧ Voices c s st h := by
  obtain ⟨h, hh, hr⟩ := routes_of_voiceFor hf hp.2.2.1
  rw [he.1, speaker, he.2] at hr
  exact ⟨h, hh, hr⟩

/-- A look into the archive has no voice. -/
theorem eq_none_of_archive (hf : st.family = .archive) (hp : s.Paid st handle g) :
    handle = none := by
  have hv := hp.2.2.1
  rw [voiceFor, if_pos hf] at hv
  exact (Except.ok.inj hv).symm

/-- A dispatch of the language that calls on no voice is a look into the archive. -/
theorem archive_of_paid (hl : st.family.allows st.verb = true) (hv : ¬ CallsVoice st)
    (hp : s.Paid st handle g) : st.family = .archive := by
  have ho := hp.2.1
  rw [Statement.reachesOut_eq_isDispatch hl] at ho
  rcases Statement.isDispatch_iff.1 ho with h | h | ⟨hf, -⟩
  · exact absurd (.inl h) hv
  · exact absurd (.inr h) hv
  · exact hf

/-- A step that processes a statement of the language traces its voice. -/
theorem voiceTraced_step {op : Operation} {answer : Except RitualError (Option Execution)}
    (he : Equipped c s) (hstep : Step s op s' answer) {k : Collaborators} {x : Execution}
    (hl : st.family.allows st.verb = true)
    (hx : (⟨op, s, answer, s'⟩ : Moment).Executes k st x) :
    VoiceTraced c ⟨op, s, answer, s'⟩ st x := by
  obtain ⟨hrequest, rfl⟩ : op.request? = some (k, st) ∧ answer = .ok (some x) := hx
  have hrecord : s'.trail.records = s.trail.records ++ [x.record] := records_of_step hstep
  obtain ⟨now, written, rfl, rfl⟩ := recorded_of_step hstep hrequest rfl
  refine ⟨fun h args hc => ?_, fun hv handle g hp => ?_, fun hn => ?_, hrecord⟩
  · obtain ⟨g, hp⟩ := paid_of_recorded_respond hc
    have hf : st.family ≠ .archive := fun hf => Option.some_ne_none h (eq_none_of_archive hf hp)
    obtain ⟨h', hh, hvoices⟩ := voices_of_paid he hf hp
    exact Option.some.inj hh ▸ hvoices
  · obtain ⟨hgovernor, hhandle, hsubstituted⟩ := recorded_of_paid hp
    obtain ⟨h, rfl, hvoices⟩ := voices_of_paid he hv.family_ne hp
    refine ⟨hgovernor, h, hvoices, fun h' args hc => ?_, hhandle, ?_⟩
    · -- whoever is asked was found by the same router for the same persona
      obtain ⟨g', hp'⟩ := paid_of_recorded_respond hc
      exact Option.some.inj (Except.ok.inj (hp'.2.2.1.symm.trans hp.2.2.1))
    · rw [hsubstituted, Option.any_some, hvoices.substituted_eq]
  · by_cases hp : ∃ handle g, s.Paid st handle g
    · obtain ⟨handle, g, hp⟩ := hp
      have hv : ¬ CallsVoice st := fun hv => hn ⟨hv, handle, g, hp⟩
      obtain ⟨-, hhandle, hsubstituted⟩ := recorded_of_paid hp
      rw [eq_none_of_archive (archive_of_paid hl hv hp) hp] at hhandle hsubstituted
      exact ⟨hhandle, hsubstituted⟩
    · exact recorded_of_unpaid fun handle g h => hp ⟨handle, g, h⟩

end Step

/-- At every moment of every run, voices are those that the configuration provides for, with the
containment handle in the place of each as long as containment holds, and the record tells. -/
theorem voices_traced {c : Config} {s₀ : Session} {w₀ w : World}
    (hstart : StateT.run (start c : StateM World _) w₀ = (.ok s₀, w)) {ops : List Operation}
    (hops : ∀ op ∈ ops, op.Lawful) {m : Moment} (hm : m ∈ (s₀.run w ops).moments)
    {k : Collaborators} {st : Statement} {x : Execution} (hx : m.Executes k st x) :
    VoiceTraced c m st x := by
  obtain ⟨-, t, -, rfl⟩ := start_run hstart
  obtain ⟨past, future, hsplit⟩ := List.append_of_mem hm
  obtain ⟨earlier, -, hbefore, ⟨later, rfl⟩, hstep⟩ := run_split hsplit
  have hlawful : m.operation.Lawful := hops _ (by simp)
  exact voiceTraced_step (hbefore ▸ equipped_run w earlier) hstep (hlawful.allows hx.1) hx

/-- Under containment a companion is summoned by a persona that nobody knows, and the archive
fails. -/
theorem voices_traced_failing :
    let k : Collaborators := ⟨Script.empty.respond, fun _ _ => .error .cancelled⟩
    let contain : Statement :=
      { family := .anchor, verb := .engage, subject := "safe_containment", intent := none
        args := .empty, anchors := .ofList [⟨.containment, .explicit⟩], voice := none
        bandwidth := none, cards := [] }
    let stranger : Persona := ⟨"@stranger", by decide⟩
    let summon : Statement :=
      { family := .companion, verb := .summon, subject := "walk", intent := some .general
        args := .empty, anchors := .empty, voice := some stranger, bandwidth := none
        cards := [.latest 2] }
    let w : World := ⟨.empty, [], [], fun _ => ⟨0⟩, 0, fun _ => none, 0, fun _ _ => false⟩
    let ops : List Operation := [.process k contain, .process k summon]
    ∃ m ∈ ((ofConfig .default .empty).run w ops).moments, ∃ x, m.Executes k summon x ∧
      x.accepted = false ∧ VoiceTraced .default m summon x ∧
      x.record.detail.handle = some "safe_containment" ∧ x.record.detail.substituted = true := by
  intro k contain stranger summon w ops
  have hlawful : ∀ op ∈ ops, op.Lawful := by
    simp only [ops, List.forall_mem_cons]
    exact ⟨rfl, rfl, List.forall_mem_nil _⟩
  have hstart : StateT.run (start .default : StateM World _) w =
      (.ok (ofConfig .default .empty), w) := rfl
  obtain ⟨m, hm, hop, x, hanswer, hrest⟩ : ∃ m ∈ ((ofConfig .default .empty).run w ops).moments,
      m.operation = .process k summon ∧ ∃ x, m.answer = .ok (some x) ∧ x.accepted = false ∧
        x.record.detail.handle = some "safe_containment" ∧ x.record.detail.substituted = true := by
    simp only [ops, run]
    exact ⟨_, List.mem_cons_of_mem _ List.mem_cons_self, rfl, _, rfl, rfl, rfl, rfl⟩
  have hx : m.Executes k summon x := ⟨by rw [hop]; rfl, hanswer⟩
  exact ⟨m, hm, x, hx, hrest.1, voices_traced hstart hlawful hm hx, hrest.2⟩

end Session

end RitualGate
