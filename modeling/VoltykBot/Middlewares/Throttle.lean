import Mathlib.Algebra.Order.Field.Rat
import Mathlib.Data.List.Dedup
import VoltykBot.Lib.Dict
import VoltykBot.Lib.Mealy

/-!
This module contains the middleware that drops events of a user that come too soon after the last one that was
handled, and shows that the cleanup of its map decides nothing.
-/

namespace Throttle

def cleanupInterval : ℚ := 300

def entryTtl : ℚ := 60

abbrev UserId := Int

structure Event where
  user : Option UserId
  now : ℚ
  deriving DecidableEq, Repr

/--
No step reads `handled`, the events that were given to a handler, the newest first.
-/
structure ThrottleMiddleware where
  rateLimit : ℚ
  lastCall : Dict UserId ℚ := .empty
  lastCleanup : ℚ
  handled : List Event := []

def new (now : ℚ) (rateLimit : ℚ := 1 / 2) : ThrottleMiddleware := { rateLimit, lastCleanup := now }

namespace ThrottleMiddleware

variable (maxEntries : Nat) (m : ThrottleMiddleware)

def NeedsCleanup (now : ℚ) : Prop := cleanupInterval < now - m.lastCleanup

instance (now : ℚ) : Decidable (m.NeedsCleanup now) := inferInstanceAs (Decidable (_ < _))

def cleanup (now : ℚ) : ThrottleMiddleware :=
  if m.NeedsCleanup now then
    let cutoff := now - entryTtl
    let lastCall := m.lastCall.keep fun item => cutoff < item.2
    let size := lastCall.items.length
    let lastCall :=
      if maxEntries < size then
        let oldest := Dict.nsmallest (size - maxEntries) lastCall.items
        oldest.foldl (fun lastCall item => lastCall.delete item.1) lastCall
      else
        lastCall
    { m with lastCall, lastCleanup := now }
  else
    m

def Throttles (user : UserId) (now : ℚ) : Prop := now - (m.lastCall.get user).getD 0 < m.rateLimit

instance (user : UserId) (now : ℚ) : Decidable (m.Throttles user now) := inferInstanceAs (Decidable (_ < _))

def respond (user : UserId) (e : Event) : ThrottleMiddleware × Bool :=
  if m.Throttles user e.now then
    (m, false)
  else
    ({ m with lastCall := m.lastCall.set user e.now, handled := e :: m.handled }, true)

def call (e : Event) : ThrottleMiddleware × Bool :=
  match e.user with
  | some user => (m.cleanup maxEntries e.now).respond user e
  | none => ({ m with handled := e :: m.handled }, true)

/--
The same rule with a map that is never cleaned.
-/
def callUncleaned (e : Event) : ThrottleMiddleware × Bool :=
  match e.user with
  | some user => m.respond user e
  | none => ({ m with handled := e :: m.handled }, true)

def Recent (user : UserId) (now : ℚ) (e : Event) : Prop := e.user = some user ∧ now - e.now < m.rateLimit

structure Remembers (now : ℚ) (m : ThrottleMiddleware) : Prop where
  past : ∀ e ∈ m.handled, e.now ≤ now
  found : ∀ item ∈ m.lastCall.items, ∃ e ∈ m.handled, e.user = some item.1 ∧ e.now = item.2
  recent : ∀ e ∈ m.handled, ∀ user, m.Recent user now e → ∃ t, (user, t) ∈ m.lastCall.items ∧ e.now ≤ t

def activeUsers (now : ℚ) : List UserId :=
  ((m.handled.filter fun e => now - e.now < m.rateLimit).filterMap Event.user).dedup

/--
At a cleanup, at most `_MAX_ENTRIES` users have had an event handled within the rate limit.
-/
def FewActive (maxEntries : Nat) (m : ThrottleMiddleware) (e : Event) : Prop :=
  e.user ≠ none → m.NeedsCleanup e.now → (m.activeUsers e.now).length ≤ maxEntries

instance (e : Event) : Decidable (FewActive maxEntries m e) := inferInstanceAs (Decidable (_ → _ → _))

section Remembers

variable {maxEntries : Nat} {m : ThrottleMiddleware} {now : ℚ} {user : UserId} {e : Event}

theorem Remembers.later (h : Remembers now m) {now' : ℚ} (hle : now ≤ now') : Remembers now' m := by
  refine ⟨fun e he => (h.past e he).trans hle, h.found, ?_⟩
  intro e he user hrecent
  exact h.recent e he user ⟨hrecent.1, (sub_le_sub_right hle e.now).trans_lt hrecent.2⟩

theorem Remembers.throttles_iff (h : Remembers now m) (hnow : m.rateLimit ≤ now)
    : m.Throttles user now ↔ ∃ e ∈ m.handled, m.Recent user now e := by
  unfold Throttles
  constructor
  . intro hthrottles
    cases hget : m.lastCall.get user with
    | none =>
      rw [hget, Option.getD_none, sub_zero] at hthrottles
      exact absurd hthrottles (not_lt_of_ge hnow)
    | some t =>
      rw [hget, Option.getD_some] at hthrottles
      rcases h.found _ (Dict.get_eq_some_iff.mp hget) with ⟨e, he, huser, htime⟩
      exact ⟨e, he, huser, htime ▸ hthrottles⟩
  . rintro ⟨e, he, hrecent⟩
    rcases h.recent e he user hrecent with ⟨t, hitem, hle⟩
    rw [Dict.get_eq_some_iff.mpr hitem, Option.getD_some]
    exact (sub_le_sub_left hle now).trans_lt hrecent.2

theorem Remembers.unthrottled (h : Remembers now m) (huser : e.user = some user) (hnow : e.now = now)
    : Remembers now { m with lastCall := m.lastCall.set user e.now, handled := e :: m.handled } := by
  constructor
  . rw [List.forall_mem_cons]
    exact ⟨hnow.le, h.past⟩
  . intro item hitem
    rcases Dict.mem_set.mp hitem with rfl | ⟨_, hold⟩
    . exact ⟨e, List.mem_cons_self, huser, rfl⟩
    . rcases h.found item hold with ⟨e', he', hitem'⟩
      exact ⟨e', List.mem_cons_of_mem e he', hitem'⟩
  . intro e' he' user' hrecent
    by_cases heq : user' = user
    . refine ⟨e.now, Dict.mem_set.mpr (Or.inl (by rw [heq])), ?_⟩
      rcases List.mem_cons.mp he' with rfl | hold
      . exact le_rfl
      . exact hnow ▸ h.past e' hold
    . rcases List.mem_cons.mp he' with rfl | hold
      . exact absurd (Option.some.inj (hrecent.1.symm.trans huser)) heq
      . rcases h.recent e' hold user' hrecent with ⟨t, hitem, hle⟩
        exact ⟨t, Dict.mem_set.mpr (Or.inr ⟨heq, hitem⟩), hle⟩

@[simp]
theorem cleanup_rateLimit : (m.cleanup maxEntries now).rateLimit = m.rateLimit := by
  unfold cleanup
  split
  . rfl
  . rfl

@[simp]
theorem cleanup_handled : (m.cleanup maxEntries now).handled = m.handled := by
  unfold cleanup
  split
  . rfl
  . rfl

theorem mem_of_mem_cleanup {item : UserId × ℚ} (h : item ∈ (m.cleanup maxEntries now).lastCall.items)
    : item ∈ m.lastCall.items := by
  unfold cleanup at h
  split at h
  . dsimp only at h
    split at h
    . exact (Dict.mem_keep.mp (Dict.mem_foldl_delete.mp h).1).1
    . exact (Dict.mem_keep.mp h).1
  . exact h

theorem Remembers.countP_le (h : Remembers now m) (p : UserId × ℚ → Bool)
    : (m.lastCall.keep p).items.countP (fun item => now - item.2 < m.rateLimit) ≤ (m.activeUsers now).length := by
  rw [List.countP_eq_length_filter, ← List.length_map Prod.fst]
  apply List.Nodup.length_le_of_subset
  . exact (m.lastCall.keep p).keys_nodup.sublist (List.filter_sublist.map Prod.fst)
  . intro user huser
    rcases List.mem_map.mp huser with ⟨item, hitem, rfl⟩
    rcases List.mem_filter.mp hitem with ⟨hmem, hrecent⟩
    rcases h.found item (Dict.mem_keep.mp hmem).1 with ⟨e, he, huser, htime⟩
    rw [← htime] at hrecent
    unfold activeUsers
    rw [List.mem_dedup, List.mem_filterMap]
    exact ⟨e, List.mem_filter.mpr ⟨he, hrecent⟩, huser⟩

theorem Remembers.mem_cleanup (h : Remembers now m) (hlimit : m.rateLimit ≤ entryTtl)
    (hfew : m.NeedsCleanup now → (m.activeUsers now).length ≤ maxEntries) {item : UserId × ℚ}
    (hitem : item ∈ m.lastCall.items) (hrecent : now - item.2 < m.rateLimit)
    : item ∈ (m.cleanup maxEntries now).lastCall.items := by
  unfold cleanup
  split
  . next hneeds =>
    dsimp only
    have hkeep : item ∈ (m.lastCall.keep fun item => now - entryTtl < item.2).items := by
      rw [Dict.mem_keep, decide_eq_true_iff, sub_lt_comm]
      exact ⟨hitem, hrecent.trans_le hlimit⟩
    split
    . rw [Dict.mem_foldl_delete]
      refine ⟨hkeep, ?_⟩
      -- an entry of the same user is the same entry
      intro other hother heq
      have hmem : other ∈ (m.lastCall.keep fun item => now - entryTtl < item.2).items :=
        Dict.mem_of_mem_nsmallest hother
      have hsame : item = other := List.inj_on_of_nodup_map (Dict.keys_nodup _) hkeep hmem heq
      refine Dict.notMem_nsmallest ?_ ((h.countP_le _).trans (hfew hneeds)) (decide_eq_true hrecent) (hsame ▸ hother)
      intro a b hle ha
      exact decide_eq_true ((sub_le_sub_left hle now).trans_lt (of_decide_eq_true ha))
    . exact hkeep
  . exact hitem

theorem Remembers.cleanup (h : Remembers now m) (hlimit : m.rateLimit ≤ entryTtl)
    (hfew : m.NeedsCleanup now → (m.activeUsers now).length ≤ maxEntries)
    : Remembers now (m.cleanup maxEntries now) := by
  constructor
  . rw [cleanup_handled]
    exact h.past
  . intro item hitem
    rw [cleanup_handled]
    exact h.found item (mem_of_mem_cleanup hitem)
  . intro e he user hrecent
    unfold Recent at hrecent
    rw [cleanup_handled] at he
    rw [cleanup_rateLimit] at hrecent
    rcases h.recent e he user hrecent with ⟨t, hitem, hle⟩
    exact ⟨t, h.mem_cleanup hlimit hfew hitem ((sub_le_sub_left hle now).trans_lt hrecent.2), hle⟩

end Remembers

def Allows (m : ThrottleMiddleware) (e : Event) : Prop :=
  ∀ user, e.user = some user → ∀ e' ∈ m.handled, ¬ m.Recent user e.now e'

structure Ready (m : ThrottleMiddleware) (es : List Event) (clock : ℚ) : Prop where
  remembers : Remembers clock m
  started : m.rateLimit ≤ clock
  sorted : (clock :: es.map Event.now).Pairwise (· ≤ ·)

def cleaned (maxEntries : Nat) (m : ThrottleMiddleware) (e : Event) : ThrottleMiddleware :=
  match e.user with
  | some _ => m.cleanup maxEntries e.now
  | none => m

section Calls

variable {maxEntries : Nat} {m : ThrottleMiddleware} {clock : ℚ} {e : Event} {es : List Event}

theorem call_eq : m.call maxEntries e = (m.cleaned maxEntries e).callUncleaned e := by
  unfold call cleaned callUncleaned
  cases e.user with
  | some user => rfl
  | none => rfl

@[simp]
theorem rateLimit_callUncleaned : (m.callUncleaned e).1.rateLimit = m.rateLimit := by
  unfold callUncleaned respond
  split
  . split
    . rfl
    . rfl
  . rfl

theorem handled_callUncleaned
    : (m.callUncleaned e).1.handled = if (m.callUncleaned e).2 then e :: m.handled else m.handled := by
  unfold callUncleaned respond
  split
  . split
    . rfl
    . rfl
  . rfl

theorem Remembers.answer_iff (h : Remembers e.now m) (hstarted : m.rateLimit ≤ e.now)
    : (m.callUncleaned e).2 = true ↔ m.Allows e := by
  unfold callUncleaned Allows
  cases huser : e.user with
  | none => exact iff_of_true rfl nofun
  | some user =>
    dsimp only
    unfold respond
    have hiff : m.Throttles user e.now ↔ _ := h.throttles_iff hstarted
    by_cases hthrottles : m.Throttles user e.now
    . rw [if_pos hthrottles]
      rcases hiff.mp hthrottles with ⟨e', he', hrecent⟩
      exact iff_of_false Bool.false_ne_true fun hallows => hallows user rfl e' he' hrecent
    . rw [if_neg hthrottles]
      refine iff_of_true rfl ?_
      rintro _ ⟨⟩ e' he' hrecent
      exact hthrottles (hiff.mpr ⟨e', he', hrecent⟩)

theorem Remembers.callUncleaned (h : Remembers e.now m) : Remembers e.now (m.callUncleaned e).1 := by
  unfold ThrottleMiddleware.callUncleaned
  cases huser : e.user with
  | some user =>
    dsimp only
    unfold respond
    split
    . exact h
    . exact h.unthrottled huser rfl
  | none =>
    refine ⟨List.forall_mem_cons.mpr ⟨le_rfl, h.past⟩, ?_, ?_⟩
    . intro item hitem
      rcases h.found item hitem with ⟨e', he', hitem'⟩
      exact ⟨e', List.mem_cons_of_mem e he', hitem'⟩
    . intro e' he' user hrecent
      rcases List.mem_cons.mp he' with rfl | hold
      . exact absurd (huser.symm.trans hrecent.1) nofun
      . exact h.recent e' hold user hrecent

theorem Ready.head (h : Ready m (e :: es) clock) : Ready m es e.now := by
  rcases List.pairwise_cons.mp h.sorted with ⟨hle, hsorted⟩
  have hclock : clock ≤ e.now := hle e.now List.mem_cons_self
  exact ⟨h.remembers.later hclock, h.started.trans hclock, hsorted⟩

theorem Ready.callUncleaned (h : Ready m es e.now) : Ready (m.callUncleaned e).1 es e.now :=
  ⟨h.remembers.callUncleaned, rateLimit_callUncleaned.le.trans h.started, h.sorted⟩

theorem rateLimit_cleaned : (m.cleaned maxEntries e).rateLimit = m.rateLimit := by
  unfold cleaned
  split
  . exact cleanup_rateLimit
  . rfl

theorem handled_cleaned : (m.cleaned maxEntries e).handled = m.handled := by
  unfold cleaned
  split
  . exact cleanup_handled
  . rfl

theorem Ready.cleaned (h : Ready m es e.now) (hlimit : m.rateLimit ≤ entryTtl) (hfew : FewActive maxEntries m e)
    : Ready (m.cleaned maxEntries e) es e.now := by
  refine ⟨?_, rateLimit_cleaned.le.trans h.started, h.sorted⟩
  unfold ThrottleMiddleware.cleaned
  split
  . next user huser =>
    apply h.remembers.cleanup hlimit
    exact hfew (huser ▸ Option.some_ne_none user)
  . exact h.remembers

theorem allows_cleaned : (m.cleaned maxEntries e).Allows e ↔ m.Allows e := by
  unfold Allows Recent
  rw [handled_cleaned, rateLimit_cleaned]

structure GoesOn (maxEntries : Nat) (m : ThrottleMiddleware) (es : List Event) : Prop where
  limit : m.rateLimit ≤ entryTtl
  ready : ∃ clock, Ready m es clock
  few : Mealy.Meets (call maxEntries) (FewActive maxEntries) m es

theorem GoesOn.answer_iff (h : GoesOn maxEntries m (e :: es)) : (m.call maxEntries e).2 = true ↔ m.Allows e := by
  rcases h.ready with ⟨clock, hready⟩
  have hcleaned := hready.head.cleaned h.limit h.few.1
  rw [call_eq, hcleaned.remembers.answer_iff hcleaned.started, allows_cleaned]

theorem GoesOn.next (h : GoesOn maxEntries m (e :: es)) : GoesOn maxEntries (m.call maxEntries e).1 es := by
  rcases h.ready with ⟨clock, hready⟩
  refine ⟨?_, ⟨e.now, ?_⟩, h.few.2⟩
  . rw [call_eq, rateLimit_callUncleaned, rateLimit_cleaned]
    exact h.limit
  . rw [call_eq]
    exact (hready.head.cleaned h.limit h.few.1).callUncleaned

structure Agree (maxEntries : Nat) (m m' : ThrottleMiddleware) (es : List Event) : Prop where
  goesOn : GoesOn maxEntries m es
  ready : ∃ clock, Ready m' es clock
  rateLimit : m'.rateLimit = m.rateLimit
  handled : m'.handled = m.handled

theorem Agree.answer_eq {m' : ThrottleMiddleware} (h : Agree maxEntries m m' (e :: es))
    : (m.call maxEntries e).2 = (m'.callUncleaned e).2 := by
  rcases h.ready with ⟨clock, hready⟩
  rw [Bool.eq_iff_iff, h.goesOn.answer_iff, hready.head.remembers.answer_iff hready.head.started]
  unfold Allows Recent
  rw [h.rateLimit, h.handled]

theorem Agree.next {m' : ThrottleMiddleware} (h : Agree maxEntries m m' (e :: es))
    : Agree maxEntries (m.call maxEntries e).1 (m'.callUncleaned e).1 es := by
  rcases h.ready with ⟨clock, hready⟩
  refine ⟨h.goesOn.next, ⟨e.now, hready.head.callUncleaned⟩, ?_, ?_⟩
  . rw [call_eq, rateLimit_callUncleaned, rateLimit_callUncleaned, rateLimit_cleaned, h.rateLimit]
  . have hanswer := h.answer_eq
    rw [call_eq] at hanswer
    rw [call_eq, handled_callUncleaned, handled_callUncleaned, hanswer, handled_cleaned, h.handled]

end Calls

end ThrottleMiddleware

open ThrottleMiddleware

variable {maxEntries : Nat} {rateLimit startedAt : ℚ} {es : List Event}

theorem ready_new (hclock : (rateLimit :: es.map Event.now).Pairwise (· ≤ ·))
    : Ready (new startedAt rateLimit) es rateLimit :=
  ⟨⟨nofun, nofun, nofun⟩, le_rfl, hclock⟩

/--
The cleanup is invisible: the same events are handled as with a map that is never cleaned, which are those with no
event of their user handled less than the rate limit before.
-/
theorem call_eq_uncleaned (hlimit : rateLimit ≤ 60) (hclock : (rateLimit :: es.map Event.now).Pairwise (· ≤ ·))
    (hfew : Mealy.Meets (call maxEntries) (FewActive maxEntries) (new startedAt rateLimit) es)
    : Mealy.answers (call maxEntries) (new startedAt rateLimit) es =
          Mealy.answers callUncleaned (new startedAt rateLimit) es ∧
        Mealy.Meets (call maxEntries) (fun m e => (m.call maxEntries e).2 = true ↔ m.Allows e)
          (new startedAt rateLimit) es := by
  have hready : ∃ clock, Ready (new startedAt rateLimit) es clock := ⟨rateLimit, ready_new hclock⟩
  have hgoesOn : GoesOn maxEntries (new startedAt rateLimit) es := ⟨hlimit, hready, hfew⟩
  constructor
  . have hagree : Agree maxEntries (new startedAt rateLimit) (new startedAt rateLimit) es :=
      ⟨hgoesOn, hready, rfl, rfl⟩
    exact Mealy.answers_eq_of_simulation (R := Agree maxEntries) Agree.answer_eq Agree.next hagree
  . exact Mealy.meets_of_relation (R := GoesOn maxEntries) GoesOn.answer_iff GoesOn.next hgoesOn

def fourEvents : List Event := [
  { user := some 777, now := 1 }, { user := some 777, now := 11 / 10 }, { user := some 888, now := 400 },
  { user := some 777, now := 400 }]

theorem call_eq_uncleaned_fourEvents
    : Mealy.answers callUncleaned (new 0 (3 / 10)) fourEvents = [true, false, true, true] := by
  have hclock : ((3 / 10 : ℚ) :: fourEvents.map Event.now).Pairwise (· ≤ ·) := by decide +kernel
  have hfew : Mealy.Meets (call 2) (FewActive 2) (new 0 (3 / 10)) fourEvents := by
    refine ⟨?_, ?_, ?_, ?_, trivial⟩
    all_goals decide +kernel
  have hanswers : Mealy.answers (call 2) (new 0 (3 / 10)) fourEvents = [true, false, true, true] := by
    decide +kernel
  exact (call_eq_uncleaned (by decide +kernel) hclock hfew).1.symm.trans hanswers

end Throttle
