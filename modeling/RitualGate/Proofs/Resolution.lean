import Mathlib.Data.List.Forall2
import RitualGate.Archive.Resolve

/-!
# What references resolve to

An archive may answer a reference with anything: it may fail, ignore the reference or report too
much. `Serves` says which cards a reference gets of such an answer, and `Denies` for which reason it
gets none. References resolve to what each of them gets, in their order, or to the first reason for
which one of them gets nothing, and then nothing behind that one is asked for
(`resolve_eq_ok_iff`, `resolve_eq_error_iff`). `resolution_exact` collects this, with the bounds on
what a reference gets and the law for references that are resolved in two parts.
-/

namespace RitualGate

/-- The cards that a reference gets: for an id the first that the archive reports, for a bounded
selector as many of the first as its bound allows, and for a topic all of them. -/
inductive Serves (archive : Archive) (topic : String) : CardRef → List Card → Prop
  | id {text : String} {c : Card} {more : List Card}
    (h : archive (.id text) topic = .ok (c :: more)) : Serves archive topic (.id text) [c]
  | latest {n : Nat} {found : List Card} (h : archive (.latest n) topic = .ok found) :
    Serves archive topic (.latest n) (found.take n)
  | topicRelevant {found : List Card} (h : archive .topicRelevant topic = .ok found) :
    Serves archive topic .topicRelevant found
  | topRelevant {k : Nat} {found : List Card} (h : archive (.topRelevant k) topic = .ok found) :
    Serves archive topic (.topRelevant k) (found.take k)

/-- Why a reference gets nothing: the archive fails, or it has no card for an id. -/
inductive Denies (archive : Archive) (topic : String) : CardRef → RitualError → Prop
  | failed {r : CardRef} {e : DispatchError} (h : archive r topic = .error e) :
    Denies archive topic r (.dispatch e)
  | missing {text : String} (h : archive (.id text) topic = .ok []) :
    Denies archive topic (.id text) (.cardNotFound text)

/-- What an archive owes a reference: an answer, and at least one card for an id. -/
def Supplies (archive : Archive) (topic : String) (r : CardRef) : Prop :=
  ∃ found, archive r topic = .ok found ∧ ∀ text, r = .id text → found ≠ []

/-- Cards with the reference that asked for them. -/
def CardRef.tag (r : CardRef) (cards : List Card) : List ResolvedCard :=
  cards.map fun c => ⟨r, c⟩

variable {archive archive' : Archive} {topic : String}

/-! ## One reference -/

theorem exists_serves_iff {r : CardRef} :
    (∃ share, Serves archive topic r share) ↔ Supplies archive topic r := by
  constructor
  · rintro ⟨share, h⟩
    cases h with
    | id h => exact ⟨_, h, fun _ _ => List.cons_ne_nil _ _⟩
    | latest h => exact ⟨_, h, nofun⟩
    | topicRelevant h => exact ⟨_, h, nofun⟩
    | topRelevant h => exact ⟨_, h, nofun⟩
  · rintro ⟨found, h, hid⟩
    cases r with
    | id text =>
      cases found with
      | nil => exact absurd rfl (hid text rfl)
      | cons c more => exact ⟨_, .id h⟩
    | latest n => exact ⟨_, .latest h⟩
    | topicRelevant => exact ⟨_, .topicRelevant h⟩
    | topRelevant k => exact ⟨_, .topRelevant h⟩

theorem resolveOne_of_serves {r : CardRef} {share : List Card} (h : Serves archive topic r share) :
    resolveOne archive topic r = .ok (r.tag share) := by
  cases h with
  | id h => simp [resolveOne, h, CardRef.id?, CardRef.cut, CardRef.limit, CardRef.tag]
  | latest h => simp [resolveOne, h, CardRef.id?, CardRef.cut, CardRef.limit, CardRef.tag]
  | topicRelevant h => simp [resolveOne, h, CardRef.id?, CardRef.cut, CardRef.limit, CardRef.tag]
  | topRelevant h => simp [resolveOne, h, CardRef.id?, CardRef.cut, CardRef.limit, CardRef.tag]

theorem resolveOne_of_denies {r : CardRef} {e : RitualError} (h : Denies archive topic r e) :
    resolveOne archive topic r = .error e := by
  cases h with
  | failed h => simp only [resolveOne, h]
  | missing h => simp only [resolveOne, h, CardRef.id?]

/-- A reference gets something or there is a reason why not. -/
theorem serves_or_denies (archive : Archive) (topic : String) (r : CardRef) :
    (∃ share, Serves archive topic r share) ∨ ∃ e, Denies archive topic r e := by
  cases h : archive r topic with
  | error e => exact .inr ⟨_, .failed h⟩
  | ok found =>
    by_cases hid : ∀ text, r = .id text → found ≠ []
    · exact .inl (exists_serves_iff.2 ⟨found, h, hid⟩)
    · push Not at hid
      obtain ⟨text, rfl, rfl⟩ := hid
      exact .inr ⟨_, .missing h⟩

theorem Serves.length_le {r : CardRef} {share : List Card} (h : Serves archive topic r share) :
    (∀ text, r = .id text → share.length = 1) ∧ ∀ n, r.limit = some n → share.length ≤ n := by
  cases h with
  | id h => exact ⟨fun _ _ => rfl, fun n hn => by cases hn; exact Nat.le_refl 1⟩
  | latest h => exact ⟨nofun, fun n hn => by cases hn; exact List.length_take_le _ _⟩
  | topicRelevant h => exact ⟨nofun, nofun⟩
  | topRelevant h => exact ⟨nofun, fun n hn => by cases hn; exact List.length_take_le _ _⟩

/-! ## All references -/

/-- References resolved behind others: not at all if those have failed. -/
def resolvedAfter (first second : List CardRef × Except RitualError (List ResolvedCard)) :
    List CardRef × Except RitualError (List ResolvedCard) :=
  match first with
  | (asked, .error e) => (asked, .error e)
  | (asked, .ok cards) => (asked ++ second.1, second.2.map (cards ++ ·))

theorem resolve_cons (archive : Archive) (topic : String) (r : CardRef) (rs : List CardRef) :
    resolve archive topic (r :: rs) =
      resolvedAfter ([r], resolveOne archive topic r) (resolve archive topic rs) := by
  rw [resolve, resolvedAfter.eq_def]
  cases resolveOne archive topic r with
  | error e => rfl
  | ok cards => rcases resolve archive topic rs with ⟨asked, e | more⟩ <;> rfl

theorem resolvedAfter_assoc (a b c : List CardRef × Except RitualError (List ResolvedCard)) :
    resolvedAfter (resolvedAfter a b) c = resolvedAfter a (resolvedAfter b c) := by
  rcases a with ⟨asked, e | cards⟩
  · rfl
  · rcases b with ⟨asked', e' | cards'⟩
    · rfl
    · rcases c with ⟨asked'', e'' | cards''⟩ <;> simp [resolvedAfter, Except.map]

/-- References in two parts are resolved one part after the other. -/
theorem resolve_append (archive : Archive) (topic : String) (before behind : List CardRef) :
    resolve archive topic (before ++ behind) =
      resolvedAfter (resolve archive topic before) (resolve archive topic behind) := by
  induction before with
  | nil =>
    rw [List.nil_append]
    rcases resolve archive topic behind with ⟨asked, e | cards⟩ <;> rfl
  | cons r rs ih => rw [List.cons_append, resolve_cons, ih, resolve_cons, resolvedAfter_assoc]

theorem resolve_of_serves {refs : List CardRef} {shares : List (List Card)}
    (h : List.Forall₂ (Serves archive topic) refs shares) :
    resolve archive topic refs = (refs, .ok (List.zipWith CardRef.tag refs shares).flatten) := by
  induction h with
  | nil => rfl
  | cons hshare _ ih =>
    rw [resolve_cons, resolveOne_of_serves hshare, ih]
    rfl

theorem exists_shares_iff {refs : List CardRef} :
    (∃ shares, List.Forall₂ (Serves archive topic) refs shares) ↔
      ∀ r ∈ refs, Supplies archive topic r := by
  constructor
  · rintro ⟨shares, h⟩
    induction h with
    | nil => nofun
    | cons hshare _ ih => exact List.forall_mem_cons.2 ⟨exists_serves_iff.1 ⟨_, hshare⟩, ih⟩
  · intro h
    induction refs with
    | nil => exact ⟨[], .nil⟩
    | cons r rs ih =>
      obtain ⟨hr, hrs⟩ := List.forall_mem_cons.1 h
      obtain ⟨share, hshare⟩ := exists_serves_iff.2 hr
      obtain ⟨shares, hshares⟩ := ih hrs
      exact ⟨share :: shares, .cons hshare hshares⟩

theorem resolve_of_denies {before : List CardRef} {r : CardRef} {e : RitualError}
    (hbefore : ∀ q ∈ before, Supplies archive topic q) (h : Denies archive topic r e)
    (after : List CardRef) :
    resolve archive topic (before ++ r :: after) = (before ++ [r], .error e) := by
  obtain ⟨shares, hshares⟩ := exists_shares_iff.2 hbefore
  rw [resolve_append, resolve_of_serves hshares, resolve_cons, resolveOne_of_denies h]
  rfl

/-- Every reference gets something, or there is a first one that does not. -/
theorem shares_or_denies (archive : Archive) (topic : String) (refs : List CardRef) :
    (∃ shares, List.Forall₂ (Serves archive topic) refs shares) ∨
      ∃ before r after e, refs = before ++ r :: after ∧
        (∀ q ∈ before, Supplies archive topic q) ∧ Denies archive topic r e := by
  induction refs with
  | nil => exact .inl ⟨[], .nil⟩
  | cons r rs ih =>
    obtain ⟨share, hshare⟩ | ⟨e, he⟩ := serves_or_denies archive topic r
    · obtain ⟨shares, hshares⟩ | ⟨before, q, after, e, rfl, hbefore, he⟩ := ih
      · exact .inl ⟨share :: shares, .cons hshare hshares⟩
      · have hr : Supplies archive topic r := exists_serves_iff.1 ⟨share, hshare⟩
        exact .inr ⟨r :: before, q, after, e, rfl, List.forall_mem_cons.2 ⟨hr, hbefore⟩, he⟩
    · exact .inr ⟨[], r, rs, e, rfl, nofun, he⟩

theorem resolve_eq_ok_iff {refs asked : List CardRef} {cards : List ResolvedCard} :
    resolve archive topic refs = (asked, .ok cards) ↔ asked = refs ∧
      ∃ shares, List.Forall₂ (Serves archive topic) refs shares ∧
        cards = (List.zipWith CardRef.tag refs shares).flatten := by
  constructor
  · intro h
    obtain ⟨shares, hshares⟩ | ⟨before, r, after, e, rfl, hbefore, he⟩ :=
      shares_or_denies archive topic refs
    · rw [resolve_of_serves hshares] at h
      cases h
      exact ⟨rfl, shares, hshares, rfl⟩
    · rw [resolve_of_denies hbefore he] at h
      cases h
  · rintro ⟨rfl, shares, hshares, rfl⟩
    exact resolve_of_serves hshares

theorem resolve_eq_error_iff {refs asked : List CardRef} {e : RitualError} :
    resolve archive topic refs = (asked, .error e) ↔ ∃ before r after,
      refs = before ++ r :: after ∧ asked = before ++ [r] ∧
        (∀ q ∈ before, Supplies archive topic q) ∧ Denies archive topic r e := by
  constructor
  · intro h
    obtain ⟨shares, hshares⟩ | ⟨before, r, after, e', rfl, hbefore, he⟩ :=
      shares_or_denies archive topic refs
    · rw [resolve_of_serves hshares] at h
      cases h
    · rw [resolve_of_denies hbefore he] at h
      cases h
      exact ⟨before, r, after, rfl, rfl, hbefore, he⟩
  · rintro ⟨before, r, after, rfl, rfl, hbefore, he⟩
    exact resolve_of_denies hbefore he after

/-- Nothing hangs on what an archive would say to references that it is not asked for. -/
theorem resolve_congr {refs : List CardRef}
    (h : ∀ r ∈ (resolve archive topic refs).1, archive' r topic = archive r topic) :
    resolve archive' topic refs = resolve archive topic refs := by
  induction refs with
  | nil => rfl
  | cons r rs ih =>
    rw [resolve_cons] at h
    have hr : resolveOne archive' topic r = resolveOne archive topic r := by
      have hsame : archive' r topic = archive r topic := h r (by
        cases resolveOne archive topic r <;> simp [resolvedAfter])
      rw [resolveOne, resolveOne, hsame]
    rw [resolve_cons, resolve_cons, hr]
    cases hone : resolveOne archive topic r with
    | error e => rfl
    | ok cards =>
      rw [hone] at h
      rw [ih fun q hq => h q (List.mem_append_right [r] hq)]

/-! ## The contract -/

/-- References resolve exactly if the archive answers each of them, with a card for every id. Then
each of them is asked for, and the cards are what each of them gets, in their order and with their
names; an id gets one card and a bounded selector no more than its bound. Otherwise the first
reference that gets nothing says why, and what stands behind it is not asked for and of no account.
References in two parts are resolved one part after the other. -/
theorem resolution_exact (archive : Archive) (topic : String) (refs : List CardRef) :
    ((∃ cards, (resolve archive topic refs).2 = .ok cards) ↔
        ∀ r ∈ refs, Supplies archive topic r) ∧
      (∀ asked cards, resolve archive topic refs = (asked, .ok cards) ↔ asked = refs ∧
        ∃ shares, List.Forall₂ (Serves archive topic) refs shares ∧
          cards = (List.zipWith CardRef.tag refs shares).flatten) ∧
      (∀ r share, Serves archive topic r share →
        (∀ text, r = .id text → share.length = 1) ∧ ∀ n, r.limit = some n → share.length ≤ n) ∧
      (∀ asked e, resolve archive topic refs = (asked, .error e) ↔ ∃ before r after,
        refs = before ++ r :: after ∧ asked = before ++ [r] ∧
          (∀ q ∈ before, Supplies archive topic q) ∧ Denies archive topic r e) ∧
      (∀ archive' : Archive,
        (∀ r ∈ (resolve archive topic refs).1, archive' r topic = archive r topic) →
          resolve archive' topic refs = resolve archive topic refs) ∧
      ∀ before behind, refs = before ++ behind → resolve archive topic refs =
        resolvedAfter (resolve archive topic before) (resolve archive topic behind) := by
  refine ⟨?_, fun _ _ => resolve_eq_ok_iff, fun _ _ h => h.length_le,
    fun _ _ => resolve_eq_error_iff, fun _ => resolve_congr, ?_⟩
  · refine Iff.trans ?_ exists_shares_iff
    constructor
    · rintro ⟨cards, h⟩
      obtain ⟨-, shares, hshares, -⟩ := resolve_eq_ok_iff.1 (Prod.ext rfl h)
      exact ⟨shares, hshares⟩
    · rintro ⟨shares, hshares⟩
      exact ⟨_, congrArg Prod.snd (resolve_of_serves hshares)⟩
  · rintro before behind rfl
    exact resolve_append archive topic before behind

end RitualGate
