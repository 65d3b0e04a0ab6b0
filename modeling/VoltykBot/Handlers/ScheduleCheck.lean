import Mathlib.Algebra.Order.Floor.Semifield
import Mathlib.Data.Rat.Floor
import VoltykBot.Lib.Dict
import VoltykBot.Lib.Mealy
import VoltykBot.Lib.PyText

/-!
This module contains the cooldown of the button that checks the schedule anew, and shows that its map is bounded, that
what is taken out of it decides nothing, and that the presses that pass are the cooldown apart.
-/

namespace ScheduleCheck

def defaultCooldownS : Int := 30

def lastCheckCleanupInterval : ℚ := 300

def userLastCheckMaxSize : Nat := 10000

abbrev UserId := Int

/--
`setting` is the row `refresh_cooldown`, and `clock` what `time.monotonic` returns.
-/
structure Checks where
  clock : ℚ
  setting : Option String := none
  userLastCheck : Dict UserId ℚ := .empty
  lastCheckCleanupAt : ℚ := 0

/--
`pressed` is a press of a registered user. `failed` is the end of a call that has passed and got no data; several calls
of one user may be under way.
-/
inductive Event where
  | elapsed (dt : ℚ)
  | settingSaved (setting : String)
  | pressed (user : UserId)
  | failed (user : UserId)

inductive Reply where
  | wait (remaining : Int)
  | passed
  deriving DecidableEq, Repr

namespace Checks

variable (maxSize : Nat) (s : Checks)

def cooldownS : Int :=
  match s.setting with
  | none => defaultCooldownS
  | some text => if text = "" then defaultCooldownS else (PyText.parseInt text.toList).getD defaultCooldownS

def evictStale : Dict UserId ℚ := s.userLastCheck.keep fun item => s.clock - s.cooldownS < item.2

def cleanup : Checks :=
  if lastCheckCleanupInterval < s.clock - s.lastCheckCleanupAt then
    { s with userLastCheck := s.evictStale, lastCheckCleanupAt := s.clock }
  else
    s

def elapsed (user : UserId) : ℚ := s.clock - (s.userLastCheck.get user).getD 0

def evict : Checks :=
  if maxSize ≤ s.userLastCheck.items.length then
    let left := s.evictStale
    let left :=
      if maxSize ≤ left.items.length then
        let oldest := Dict.nsmallest (max 1 (maxSize / 10)) left.items
        oldest.foldl (fun left item => left.delete item.1) left
      else
        left
    { s with userLastCheck := left }
  else
    s

def mark (user : UserId) : Checks := { s with userLastCheck := s.userLastCheck.set user s.clock }

def reply (user : UserId) : Reply :=
  if s.elapsed user < s.cooldownS then .wait (⌊s.cooldownS - s.elapsed user⌋ + 1) else .passed

def pressed (user : UserId) : Checks × Option Reply :=
  let s := s.cleanup
  match s.reply user with
  | .wait remaining => (s, some (.wait remaining))
  | .passed => ((s.evict maxSize).mark user, some .passed)

def step (e : Event) : Checks × Option Reply :=
  match e with
  | .elapsed dt => ({ s with clock := s.clock + dt }, none)
  | .settingSaved setting => ({ s with setting := some setting }, none)
  | .pressed user => s.pressed maxSize user
  | .failed user => ({ s with userLastCheck := s.userLastCheck.delete user }, none)

/--
The same rule with a map that nothing but a failure takes an entry out of.
-/
def stepUncleaned (e : Event) : Checks × Option Reply :=
  match e with
  | .pressed user =>
    match s.reply user with
    | .wait remaining => (s, some (.wait remaining))
    | .passed => (s.mark user, some .passed)
  | .elapsed dt => s.step 0 (.elapsed dt)
  | .settingSaved setting => s.step 0 (.settingSaved setting)
  | .failed user => s.step 0 (.failed user)

section

variable {maxSize : Nat} {s : Checks}

theorem length_cleanup_le : s.cleanup.userLastCheck.items.length ≤ s.userLastCheck.items.length := by
  unfold cleanup
  split
  . exact Dict.length_keep_le _ _
  . exact le_rfl

theorem length_evict_lt (hmax : 0 < maxSize) (hsize : s.userLastCheck.items.length ≤ maxSize)
    : (s.evict maxSize).userLastCheck.items.length < maxSize := by
  unfold evict
  split
  . have hleft : s.evictStale.items.length ≤ maxSize := (Dict.length_keep_le _ _).trans hsize
    dsimp only
    split
    . next hfull =>
      refine lt_of_lt_of_le (Dict.length_foldl_delete_lt ?_ fun item => Dict.mem_of_mem_nsmallest) hleft
      unfold Dict.nsmallest
      rw [Ne, List.take_eq_nil_iff, not_or]
      refine ⟨by omega, ?_⟩
      apply List.ne_nil_of_length_pos
      rw [List.length_insertionSort]
      omega
    . next hroom => exact not_le.mp hroom
  . next hroom => exact not_le.mp hroom

theorem length_step_le (hmax : 0 < maxSize) (hsize : s.userLastCheck.items.length ≤ maxSize) (e : Event)
    : (s.step maxSize e).1.userLastCheck.items.length ≤ maxSize := by
  cases e with
  | elapsed dt => exact hsize
  | settingSaved setting => exact hsize
  | failed user => exact (Dict.length_keep_le _ _).trans hsize
  | pressed user =>
    have hcleaned := length_cleanup_le.trans hsize
    simp only [step, pressed]
    split
    . exact hcleaned
    . exact (Dict.length_set_le _ _ _).trans (length_evict_lt hmax hcleaned)

theorem length_final_le (hmax : 0 < maxSize) (hsize : s.userLastCheck.items.length ≤ maxSize) (es : List Event)
    : (Mealy.final (step maxSize) s es).userLastCheck.items.length ≤ maxSize := by
  induction es generalizing s with
  | nil => exact hsize
  | cons e es ih => exact ih (length_step_le hmax hsize e)

end

def Fresh (item : UserId × ℚ) : Prop := s.clock - s.cooldownS < item.2

instance (item : UserId × ℚ) : Decidable (s.Fresh item) := inferInstanceAs (Decidable (_ < _))

/--
The clock does not go back, the cooldown is not raised, and at a press fewer other users than the map has room for are
in their cooldown.
-/
def Calm (maxSize : Nat) (s : Checks) (e : Event) : Prop :=
  match e with
  | .elapsed dt => 0 ≤ dt
  | .settingSaved setting => ({ s with setting := some setting } : Checks).cooldownS ≤ s.cooldownS
  | .pressed user => s.userLastCheck.items.countP (fun item => s.Fresh item ∧ item.1 ≠ user) < maxSize
  | .failed _ => True

instance (e : Event) : Decidable (Calm maxSize s e) := by
  unfold Calm
  split
  all_goals infer_instance

structure Mirrors (s t : Checks) : Prop where
  clock : t.clock = s.clock
  setting : t.setting = s.setting
  started : 0 ≤ s.clock
  marked : ∀ item ∈ t.userLastCheck.items, 0 ≤ item.2
  found : ∀ item ∈ s.userLastCheck.items, item ∈ t.userLastCheck.items
  fresh : ∀ item ∈ t.userLastCheck.items, s.Fresh item → item ∈ s.userLastCheck.items

structure Thinned (s s' : Checks) : Prop where
  clock : s'.clock = s.clock
  setting : s'.setting = s.setting
  found : ∀ item ∈ s'.userLastCheck.items, item ∈ s.userLastCheck.items
  fresh : ∀ item ∈ s.userLastCheck.items, s.Fresh item → item ∈ s'.userLastCheck.items

section

variable {maxSize : Nat} {s s' t : Checks} {e : Event} {user : UserId}

theorem mem_evictStale {item : UserId × ℚ}
    : item ∈ s.evictStale.items ↔ item ∈ s.userLastCheck.items ∧ s.Fresh item := by
  unfold evictStale Fresh
  rw [Dict.mem_keep, decide_eq_true_iff]

theorem thinned_refl (s : Checks) : Thinned s s := ⟨rfl, rfl, fun _ => id, fun _ hitem _ => hitem⟩

theorem thinned_of_evictStale (hclock : s'.clock = s.clock) (hsetting : s'.setting = s.setting)
    (hitems : s'.userLastCheck = s.evictStale) : Thinned s s' := by
  refine ⟨hclock, hsetting, ?_, ?_⟩
  . intro item hitem
    rw [hitems, mem_evictStale] at hitem
    exact hitem.1
  . intro item hitem hfresh
    rw [hitems, mem_evictStale]
    exact ⟨hitem, hfresh⟩

theorem thinned_cleanup (s : Checks) : Thinned s s.cleanup := by
  unfold cleanup
  split
  . exact thinned_of_evictStale rfl rfl rfl
  . exact thinned_refl s

theorem thinned_evict (hroom : s.userLastCheck.items.countP (fun item => s.Fresh item) < maxSize)
    : Thinned s (s.evict maxSize) := by
  unfold evict
  split
  . have hleft : s.evictStale.items.length < maxSize := by
      unfold evictStale Dict.keep
      rw [← List.countP_eq_length_filter]
      exact hroom
    dsimp only
    rw [if_neg (not_le.mpr hleft)]
    exact thinned_of_evictStale rfl rfl rfl
  . exact thinned_refl s

theorem Thinned.cooldownS_eq (h : Thinned s s') : s'.cooldownS = s.cooldownS := by
  unfold cooldownS
  rw [h.setting]

theorem Thinned.fresh_iff (h : Thinned s s') {item : UserId × ℚ} : s'.Fresh item ↔ s.Fresh item := by
  unfold Fresh
  rw [h.clock, h.cooldownS_eq]

theorem ne_of_passed (h : s.reply user = .passed) {item : UserId × ℚ} (hitem : item ∈ s.userLastCheck.items)
    (hfresh : s.Fresh item) : item.1 ≠ user := by
  rintro rfl
  unfold reply elapsed at h
  rw [Dict.get_eq_some_iff.mpr hitem, Option.getD_some, if_pos (sub_lt_comm.mp hfresh)] at h
  exact absurd h nofun

theorem Thinned.countP_lt (h : Thinned s s') (hpassed : s'.reply user = .passed)
    (hcalm : Calm maxSize s (.pressed user))
    : s'.userLastCheck.items.countP (fun item => s'.Fresh item) < maxSize := by
  refine lt_of_le_of_lt ?_ hcalm
  rw [List.countP_eq_length_filter, List.countP_eq_length_filter]
  apply List.Nodup.length_le_of_subset (s'.userLastCheck.keys_nodup.of_map.filter _)
  intro item hitem
  rw [List.mem_filter, decide_eq_true_iff] at hitem ⊢
  exact ⟨h.found item hitem.1, h.fresh_iff.mp hitem.2, ne_of_passed hpassed hitem.1 hitem.2⟩

theorem Mirrors.thinned (h : Mirrors s t) (hthinned : Thinned s s') : Mirrors s' t := by
  refine ⟨h.clock.trans hthinned.clock.symm, h.setting.trans hthinned.setting.symm, ?_, h.marked, ?_, ?_⟩
  . exact hthinned.clock ▸ h.started
  . exact fun item hitem => h.found item (hthinned.found item hitem)
  . intro item hitem hfresh
    have hold := hthinned.fresh_iff.mp hfresh
    exact hthinned.fresh item (h.fresh item hitem hold) hold

theorem Mirrors.cooldownS_eq (h : Mirrors s t) : t.cooldownS = s.cooldownS := by
  unfold cooldownS
  rw [h.setting]

theorem get_eq_none (hfound : ∀ item ∈ s.userLastCheck.items, item ∈ t.userLastCheck.items)
    (hget : t.userLastCheck.get user = none) : s.userLastCheck.get user = none := by
  cases hs : s.userLastCheck.get user with
  | none => rfl
  | some mark =>
    have hmem := hfound _ (Dict.get_eq_some_iff.mp hs)
    exact absurd (hget.symm.trans (Dict.get_eq_some_iff.mpr hmem)) nofun

theorem Mirrors.reply_eq (h : Mirrors s t) (user : UserId) : s.reply user = t.reply user := by
  have hcooldown := h.cooldownS_eq
  have hpassed {v : Checks} (hle : (v.cooldownS : ℚ) ≤ v.elapsed user) : v.reply user = .passed := by
    unfold reply
    exact if_neg (not_lt.mpr hle)
  cases ht : t.userLastCheck.get user with
  | none =>
    unfold reply elapsed
    rw [get_eq_none h.found ht, ht, hcooldown, h.clock]
  | some mark =>
    have hmem := Dict.get_eq_some_iff.mp ht
    cases hs : s.userLastCheck.get user with
    | some mark' =>
      have hsame := Option.some.inj (ht.symm.trans (Dict.get_eq_some_iff.mpr (h.found _ (Dict.get_eq_some_iff.mp hs))))
      unfold reply elapsed
      rw [hs, ht, hsame, hcooldown, h.clock]
    | none =>
      -- the mark is an old one, and a user without one is not in the cooldown either
      have hstale : mark ≤ s.clock - s.cooldownS := by
        by_contra hfresh
        have hfound := Dict.get_eq_some_iff.mpr (h.fresh _ hmem (not_le.mp hfresh))
        exact absurd (hs.symm.trans hfound) nofun
      have hmark := h.marked _ hmem
      rw [hpassed, hpassed]
      . unfold elapsed
        rw [ht, hcooldown, h.clock, Option.getD_some]
        linarith
      . unfold elapsed
        rw [hs, Option.getD_none]
        linarith

theorem Mirrors.mark (h : Mirrors s t) (user : UserId) : Mirrors (s.mark user) (t.mark user) := by
  unfold Checks.mark
  refine ⟨h.clock, h.setting, h.started, ?_, ?_, ?_⟩
  . intro item hitem
    rcases Dict.mem_set.mp hitem with rfl | ⟨_, hold⟩
    . exact h.clock ▸ h.started
    . exact h.marked item hold
  . intro item hitem
    rw [Dict.mem_set] at hitem ⊢
    rw [h.clock]
    exact hitem.imp_right (And.imp_right (h.found item))
  . intro item hitem hfresh
    rw [Dict.mem_set, h.clock] at hitem
    rw [Dict.mem_set]
    exact hitem.imp_right (And.imp_right fun hold => h.fresh item hold hfresh)

theorem Mirrors.pressed (h : Mirrors s t) (hcalm : Calm maxSize s (.pressed user))
    : (s.pressed maxSize user).2 = (t.stepUncleaned (.pressed user)).2 ∧
        Mirrors (s.pressed maxSize user).1 (t.stepUncleaned (.pressed user)).1 := by
  have hcleanup := thinned_cleanup s
  have hcleaned := h.thinned hcleanup
  unfold Checks.pressed stepUncleaned
  dsimp only
  rw [← hcleaned.reply_eq user]
  cases hreply : s.cleanup.reply user with
  | wait remaining => exact ⟨rfl, hcleaned⟩
  | passed => exact ⟨rfl, (hcleaned.thinned (thinned_evict (hcleanup.countP_lt hreply hcalm))).mark user⟩

theorem Mirrors.step (h : Mirrors s t) (hcalm : Calm maxSize s e)
    : (s.step maxSize e).2 = (t.stepUncleaned e).2 ∧ Mirrors (s.step maxSize e).1 (t.stepUncleaned e).1 := by
  cases e with
  | elapsed dt =>
    have hdt : 0 ≤ dt := hcalm
    refine ⟨rfl, congrArg (· + dt) h.clock, h.setting, add_nonneg h.started hdt, h.marked, h.found, ?_⟩
    intro item hitem hfresh
    have hfresh : s.clock + dt - s.cooldownS < item.2 := hfresh
    apply h.fresh item hitem
    unfold Fresh
    linarith
  | settingSaved setting =>
    refine ⟨rfl, h.clock, rfl, h.started, h.marked, h.found, ?_⟩
    intro item hitem hfresh
    have hlower := sub_le_sub_left (Int.cast_le (R := ℚ).mpr hcalm) s.clock
    exact h.fresh item hitem (hlower.trans_lt hfresh)
  | pressed user => exact h.pressed hcalm
  | failed user =>
    refine ⟨rfl, h.clock, h.setting, h.started, ?_, ?_, ?_⟩
    . exact fun item hitem => h.marked item (Dict.mem_delete.mp hitem).1
    . intro item hitem
      exact Dict.mem_delete.mpr ((Dict.mem_delete.mp hitem).imp_left (h.found item))
    . intro item hitem hfresh
      rcases Dict.mem_delete.mp hitem with ⟨hold, hne⟩
      exact Dict.mem_delete.mpr ⟨h.fresh item hold hfresh, hne⟩

/--
What is evicted decides nothing: each press is answered as with a map that is never cleaned.
-/
theorem answers_eq_uncleaned (hstart : 0 ≤ s.clock) (hmarked : ∀ item ∈ s.userLastCheck.items, 0 ≤ item.2)
    {es : List Event} (hcalm : Mealy.Meets (step maxSize) (Calm maxSize) s es)
    : Mealy.answers (step maxSize) s es = Mealy.answers stepUncleaned s es := by
  have hmirrors : Mirrors s s := ⟨rfl, rfl, hstart, hmarked, fun _ => id, fun _ hitem _ => hitem⟩
  let R (s t : Checks) (es : List Event) := Mirrors s t ∧ Mealy.Meets (step maxSize) (Calm maxSize) s es
  refine Mealy.answers_eq_of_simulation (R := R) ?_ ?_ ⟨hmirrors, hcalm⟩
  . intro s t e es h
    exact (h.1.step h.2.1).1
  . intro s t e es h
    exact ⟨(h.1.step h.2.1).2, h.2.2⟩

/--
The user is still held by a press at `time` or by a later one, or the cooldown behind `time` is over.
-/
def Held (user : UserId) (time : ℚ) (s : Checks) : Prop :=
  (∃ mark, (user, mark) ∈ s.userLastCheck.items ∧ time ≤ mark) ∨ s.cooldownS ≤ s.clock - time

theorem Held.thinned {time : ℚ} (h : Held user time s) (hthinned : Thinned s s') : Held user time s' := by
  unfold Held
  rw [hthinned.cooldownS_eq, hthinned.clock]
  rcases h with ⟨mark, hmem, hle⟩ | hover
  . by_cases hfresh : s.Fresh (user, mark)
    . exact Or.inl ⟨mark, hthinned.fresh _ hmem hfresh, hle⟩
    . have hstale : mark ≤ s.clock - s.cooldownS := not_lt.mp hfresh
      apply Or.inr
      linarith
  . exact Or.inr hover

theorem Held.le_of_passed {time : ℚ} (h : Held user time s) (hpassed : s.reply user = .passed)
    : s.cooldownS ≤ s.clock - time := by
  rcases h with ⟨mark, hmem, hle⟩ | hover
  . unfold reply elapsed at hpassed
    rw [Dict.get_eq_some_iff.mpr hmem, Option.getD_some] at hpassed
    have hout := of_not_not fun hin => absurd ((if_pos (not_le.mp hin)).symm.trans hpassed) nofun
    linarith
  . exact hover

theorem Held.mark {time : ℚ} (h : Held user time s) (htime : time ≤ s.clock) (other : UserId)
    : Held user time (s.mark other) := by
  rcases h with ⟨mark, hmem, hle⟩ | hover
  . apply Or.inl
    by_cases heq : user = other
    . exact ⟨s.clock, Dict.mem_set.mpr (Or.inl (by rw [heq])), htime⟩
    . exact ⟨mark, Dict.mem_set.mpr (Or.inr ⟨heq, hmem⟩), hle⟩
  . exact Or.inr hover

theorem Held.step {time : ℚ} (h : Held user time s) (htime : time ≤ s.clock) (hcalm : Calm maxSize s e)
    (hfailed : e ≠ .failed user) : Held user time (s.step maxSize e).1 ∧ time ≤ (s.step maxSize e).1.clock := by
  cases e with
  | elapsed dt =>
    have hdt : 0 ≤ dt := hcalm
    have hlater : s.clock ≤ s.clock + dt := le_add_of_nonneg_right hdt
    refine ⟨?_, htime.trans hlater⟩
    exact h.imp_right fun hover => hover.trans (sub_le_sub_right hlater time)
  | settingSaved setting =>
    refine ⟨h.imp_right fun hover => ?_, htime⟩
    exact (Int.cast_le.mpr hcalm : (_ : ℚ) ≤ s.cooldownS).trans hover
  | failed other =>
    refine ⟨h.imp_left ?_, htime⟩
    rintro ⟨mark, hmem, hle⟩
    exact ⟨mark, Dict.mem_delete.mpr ⟨hmem, fun heq => hfailed (congrArg Event.failed heq.symm)⟩, hle⟩
  | pressed other =>
    have hcleanup := thinned_cleanup s
    have hcleaned := h.thinned hcleanup
    unfold Checks.step pressed
    dsimp only
    cases hreply : s.cleanup.reply other with
    | wait remaining => exact ⟨hcleaned, htime.trans hcleanup.clock.ge⟩
    | passed =>
      have hevicted := thinned_evict (hcleanup.countP_lt hreply hcalm)
      have htime' := htime.trans (hcleanup.clock.ge.trans hevicted.clock.ge)
      exact ⟨(hcleaned.thinned hevicted).mark htime' other, htime'⟩

theorem Held.final {time : ℚ} {es : List Event} (h : Held user time s) (htime : time ≤ s.clock)
    (hcalm : Mealy.Meets (Checks.step maxSize) (Calm maxSize) s es) (hfailed : .failed user ∉ es)
    : Held user time (Mealy.final (Checks.step maxSize) s es) := by
  induction es generalizing s with
  | nil => exact h
  | cons e es ih =>
    rw [List.mem_cons, not_or] at hfailed
    rcases h.step htime hcalm.1 (Ne.symm hfailed.1) with ⟨hnext, htime'⟩
    exact ih hnext htime' hcalm.2 hfailed.2

theorem reply_of_pressed (h : (s.step maxSize (.pressed user)).2 = some .passed) : s.cleanup.reply user = .passed := by
  unfold step pressed at h
  dsimp only at h
  split at h
  . exact absurd (Option.some.inj h) nofun
  . next hpassed => exact hpassed

theorem held_of_pressed (h : (s.step maxSize (.pressed user)).2 = some .passed)
    : Held user s.clock (s.step maxSize (.pressed user)).1 ∧
        s.clock ≤ (s.step maxSize (.pressed user)).1.clock := by
  have hclock : s.cleanup.clock = s.clock := (thinned_cleanup s).clock
  have hclock' : (s.cleanup.evict maxSize).clock = s.clock := by
    rw [← hclock]
    unfold evict
    split
    . rfl
    . rfl
  unfold step pressed
  dsimp only
  rw [reply_of_pressed h]
  exact ⟨Or.inl ⟨_, Dict.mem_set.mpr (Or.inl rfl), hclock'.ge⟩, hclock'.ge⟩

/--
While the cooldown is not raised and the map has room for the others, two presses of a user that pass are the cooldown
apart, if no call of the user has failed between them.
-/
theorem spaced_of_passed {es : List Event} (hfirst : (s.step maxSize (.pressed user)).2 = some .passed)
    (hcalm : Mealy.Meets (step maxSize) (Calm maxSize) (s.step maxSize (.pressed user)).1 es)
    (hfailed : .failed user ∉ es)
    (hsecond : ((Mealy.final (step maxSize) s (.pressed user :: es)).step maxSize (.pressed user)).2 = some .passed)
    : (Mealy.final (step maxSize) s (.pressed user :: es)).cooldownS ≤
        (Mealy.final (step maxSize) s (.pressed user :: es)).clock - s.clock := by
  rw [Mealy.final_cons] at hsecond ⊢
  rcases held_of_pressed hfirst with ⟨hheld, htime⟩
  generalize hfinal : Mealy.final (step maxSize) (s.step maxSize (.pressed user)).1 es = last at hsecond ⊢
  have hlast : Held user s.clock last := hfinal ▸ Held.final hheld htime hcalm hfailed
  have hcleanup := thinned_cleanup last
  rw [← hcleanup.cooldownS_eq, ← hcleanup.clock]
  exact Held.le_of_passed (Held.thinned hlast hcleanup) (reply_of_pressed hsecond)

end

def atStart : Checks := { clock := 1000 }

/--
The map has room for two users. The third press finds it full, and the first user is evicted.
-/
def threeUsers : List Event := [
  .pressed 777, .elapsed 40, .pressed 888, .elapsed 1, .pressed 999, .pressed 888, .failed 999, .pressed 999,
  .settingSaved "20", .elapsed (39 / 2), .pressed 999, .elapsed (1 / 2)]

theorem calm_threeUsers : Mealy.Meets (step 2) (Calm 2) atStart threeUsers := by
  refine ⟨?_, ?_, ?_, ?_, ?_, ?_, ?_, ?_, ?_, ?_, ?_, ?_, trivial⟩
  all_goals decide +kernel

theorem answers_eq_uncleaned_threeUsers
    : Mealy.answers stepUncleaned atStart threeUsers =
        [some .passed, none, some .passed, none, some .passed, some (.wait 30), none, some .passed, none, none,
          some (.wait 1), none] := by
  have hanswers : Mealy.answers (step 2) atStart threeUsers = Mealy.answers stepUncleaned atStart threeUsers :=
    answers_eq_uncleaned (by decide +kernel) (by decide +kernel) calm_threeUsers
  exact hanswers.symm.trans (by decide +kernel)

def betweenPresses : List Event := [.pressed 888, .elapsed 25, .failed 888, .settingSaved "20"]

theorem spaced_of_passed_betweenPresses
    : (Mealy.final (step userLastCheckMaxSize) atStart (.pressed 777 :: betweenPresses)).cooldownS ≤
        (Mealy.final (step userLastCheckMaxSize) atStart (.pressed 777 :: betweenPresses)).clock - atStart.clock := by
  have hcalm : Mealy.Meets (step userLastCheckMaxSize) (Calm userLastCheckMaxSize)
      (atStart.step userLastCheckMaxSize (.pressed 777)).1 betweenPresses := by
    refine ⟨?_, ?_, ?_, ?_, trivial⟩
    all_goals decide +kernel
  exact spaced_of_passed (by decide +kernel) hcalm (by unfold betweenPresses; simp) (by decide +kernel)

end Checks

end ScheduleCheck
