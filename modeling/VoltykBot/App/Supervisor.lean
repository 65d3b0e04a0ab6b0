import Mathlib.Algebra.Order.Field.Rat
import Mathlib.Tactic.IntervalCases
import Mathlib.Tactic.Linarith
import Mathlib.Tactic.NormNum
import VoltykBot.Lib.Dict
import VoltykBot.Lib.Run

/-!
This module contains the background loops with their restarts and heartbeats, and shows which of them the health
endpoint reports.
-/

namespace Supervisor

inductive BgLoop where
  | powerMonitor
  | dailyPing
  | scheduleChecker
  | dailyFlush
  | reminderChecker
  | autoCleanup
  deriving DecidableEq, Repr

/-! ## `heartbeat` -/

structure Heartbeat where
  beats : Dict BgLoop ℚ := .empty
  thresholds : Dict BgLoop (Option ℚ) := .empty

namespace Heartbeat

variable (h : Heartbeat)

/--
`threshold` is `none` where the argument is left out.
-/
def register (now : ℚ) (name : BgLoop) (threshold : Option (Option ℚ)) : Heartbeat where
  beats := h.beats.set name now
  thresholds :=
    match threshold with
    | some threshold => h.thresholds.set name threshold
    | none => if (h.thresholds.get name).isSome then h.thresholds else h.thresholds.set name none

def beat (now : ℚ) (name : BgLoop) : Heartbeat := { h with beats := h.beats.set name now }

def effective (thresholdS : ℚ) (name : BgLoop) : ℚ :=
  match h.thresholds.get name with
  | some (some threshold) => if threshold = 0 then thresholdS else threshold
  | _ => thresholdS

def staleTasks (now thresholdS : ℚ) : List BgLoop :=
  (h.beats.items.filter fun item => h.effective thresholdS item.1 < now - item.2).map Prod.fst

end Heartbeat

/-! ## `_restart_with_backoff` -/

def maxRetries : Nat := 5

def delay (retries : Nat) : ℚ := min (5 * 2 ^ (retries - 1)) 300

/--
`running` is in the coroutine of the loop, which sleeps until the time given. `waiting` is before it.
-/
inductive Phase where
  | waiting (until_ : ℚ)
  | running (sleepsUntil : ℚ)
  | ended
  deriving DecidableEq, Repr

structure Task where
  retries : Nat := 0
  phase : Phase
  deriving DecidableEq, Repr

structure App where
  clock : ℚ
  heartbeat : Heartbeat
  bgRestartEnabled : Bool := true
  task : BgLoop → Task

/--
`beat` is a beat of the loop, which goes to sleep behind it.
-/
inductive Action where
  | resumed
  | beat (sleep : ℚ)
  | crashed
  | returned
  | cancelled
  deriving DecidableEq, Repr

inductive Event where
  | elapsed (dt : ℚ)
  | did (loop : BgLoop) (action : Action)
  | stopped
  deriving DecidableEq, Repr

def Task.crash (clock : ℚ) (task : Task) : Task :=
  let retries := task.retries + 1
  if maxRetries < retries then
    { retries, phase := .ended }
  else
    { retries, phase := .waiting (clock + delay retries) }

namespace App

variable (s : App)

def start (loop : BgLoop) : Heartbeat :=
  match loop with
  | .autoCleanup => s.heartbeat.beat s.clock loop
  | loop => s.heartbeat.register s.clock loop none

def resume (loop : BgLoop) : Heartbeat × Task :=
  if s.bgRestartEnabled then
    (s.start loop, { s.task loop with phase := .running s.clock })
  else
    (s.heartbeat, { s.task loop with phase := .ended })

def IsDue (loop : BgLoop) : Prop :=
  match (s.task loop).phase with
  | .waiting until_ => until_ ≤ s.clock
  | _ => False

instance (loop : BgLoop) : Decidable (s.IsDue loop) := by
  unfold IsDue
  split
  all_goals infer_instance

def IsAwake (loop : BgLoop) : Prop :=
  match (s.task loop).phase with
  | .running sleepsUntil => sleepsUntil ≤ s.clock
  | _ => False

instance (loop : BgLoop) : Decidable (s.IsAwake loop) := by
  unfold IsAwake
  split
  all_goals infer_instance

def act (loop : BgLoop) (action : Action) : Option (Heartbeat × Task) :=
  let task := s.task loop
  match action with
  | .resumed => if s.IsDue loop then some (s.resume loop) else none
  | .beat sleep =>
    if s.IsAwake loop then
      some (s.heartbeat.beat s.clock loop, { task with phase := .running (s.clock + sleep) })
    else
      none
  | .crashed => if s.IsAwake loop then some (s.heartbeat, task.crash s.clock) else none
  | .returned => if s.IsAwake loop then some (s.heartbeat, { task with phase := .ended }) else none
  | .cancelled => if task.phase ≠ .ended then some (s.heartbeat, { task with phase := .ended }) else none

def step (s : App) (e : Event) : Option App :=
  match e with
  | .elapsed dt => if 0 ≤ dt then some { s with clock := s.clock + dt } else none
  | .did loop action =>
    (s.act loop action).map fun did => { s with heartbeat := did.1, task := Function.update s.task loop did.2 }
  | .stopped => some { s with bgRestartEnabled := false }

end App

/-! ## `on_startup` -/

def thresholdOf (loop : BgLoop) : Option ℚ :=
  match loop with
  | .dailyPing => some (2 * 3600 + 300)
  | .dailyFlush => some (26 * 3600)
  | _ => none

def bgLoops : List BgLoop :=
  [.powerMonitor, .scheduleChecker, .reminderChecker, .dailyPing, .dailyFlush, .autoCleanup]

def registered (now : ℚ) : Heartbeat :=
  bgLoops.foldl (fun heartbeat loop => heartbeat.register now loop (some (thresholdOf loop))) {}

def onStartup (now : ℚ) : App where
  clock := now
  heartbeat := registered now
  task _ := { phase := .waiting now }

structure View where
  lastBeat : Option ℚ
  threshold : Option (Option ℚ)
  task : Task

def App.view (s : App) (loop : BgLoop) : View where
  lastBeat := s.heartbeat.beats.get loop
  threshold := s.heartbeat.thresholds.get loop
  task := s.task loop

section

variable {s s' : App} {loop other : BgLoop} {action : Action}

theorem get_start_ne (hne : loop ≠ other)
    : (s.start other).beats.get loop = s.heartbeat.beats.get loop ∧
        (s.start other).thresholds.get loop = s.heartbeat.thresholds.get loop := by
  unfold App.start
  split
  . exact ⟨Dict.get_set_ne hne, rfl⟩
  . unfold Heartbeat.register
    refine ⟨Dict.get_set_ne hne, ?_⟩
    dsimp only
    split
    . rfl
    . exact Dict.get_set_ne hne

theorem get_start_self {threshold : Option ℚ} (h : s.heartbeat.thresholds.get loop = some threshold)
    : (s.start loop).beats.get loop = some s.clock ∧ (s.start loop).thresholds.get loop = some threshold := by
  unfold App.start
  split
  . exact ⟨Dict.get_set_self, h⟩
  . unfold Heartbeat.register
    refine ⟨Dict.get_set_self, ?_⟩
    dsimp only
    rw [if_pos (by rw [h]; rfl)]
    exact h

theorem act_other {did : Heartbeat × Task} (hdid : s.act other action = some did) (hne : loop ≠ other)
    : did.1.beats.get loop = s.heartbeat.beats.get loop ∧
        did.1.thresholds.get loop = s.heartbeat.thresholds.get loop := by
  cases action with
  | resumed =>
    rw [App.act, Option.ite_none_right_eq_some] at hdid
    rw [← Option.some.inj hdid.2]
    unfold App.resume
    split
    . exact get_start_ne hne
    . exact ⟨rfl, rfl⟩
  | beat sleep =>
    rw [App.act, Option.ite_none_right_eq_some] at hdid
    rw [← Option.some.inj hdid.2]
    exact ⟨Dict.get_set_ne hne, rfl⟩
  | crashed =>
    rw [App.act, Option.ite_none_right_eq_some] at hdid
    rw [← Option.some.inj hdid.2]
    exact ⟨rfl, rfl⟩
  | returned =>
    rw [App.act, Option.ite_none_right_eq_some] at hdid
    rw [← Option.some.inj hdid.2]
    exact ⟨rfl, rfl⟩
  | cancelled =>
    rw [App.act, Option.ite_none_right_eq_some] at hdid
    rw [← Option.some.inj hdid.2]
    exact ⟨rfl, rfl⟩

theorem threshold_act {did : Heartbeat × Task} {threshold : Option ℚ} (hdid : s.act other action = some did)
    (h : s.heartbeat.thresholds.get loop = some threshold) : did.1.thresholds.get loop = some threshold := by
  by_cases heq : loop = other
  . subst heq
    cases action with
    | resumed =>
      rw [App.act, Option.ite_none_right_eq_some] at hdid
      rw [← Option.some.inj hdid.2]
      unfold App.resume
      split
      . exact (get_start_self h).2
      . exact h
    | _ =>
      rw [App.act, Option.ite_none_right_eq_some] at hdid
      rw [← Option.some.inj hdid.2]
      exact h
  . exact (act_other hdid heq).2.trans h

theorem threshold_step {e : Event} {threshold : Option ℚ} (hstep : s.step e = some s')
    (h : s.heartbeat.thresholds.get loop = some threshold)
    : s'.heartbeat.thresholds.get loop = some threshold := by
  cases e with
  | elapsed dt =>
    rw [App.step, Option.ite_none_right_eq_some] at hstep
    rw [← Option.some.inj hstep.2]
    exact h
  | did other action =>
    rcases Option.map_eq_some_iff.mp hstep with ⟨did, hdid, rfl⟩
    exact threshold_act hdid h
  | stopped =>
    rw [← Option.some.inj hstep]
    exact h

theorem view_of_other (hstep : s.step (.did other action) = some s') (hne : loop ≠ other)
    : s'.view loop = s.view loop := by
  rcases Option.map_eq_some_iff.mp hstep with ⟨did, hdid, rfl⟩
  rcases act_other hdid hne with ⟨hbeats, hthresholds⟩
  unfold App.view
  rw [hbeats, hthresholds]
  dsimp only
  rw [Function.update_of_ne hne]

end

def App.lastBeat (s : App) (loop : BgLoop) : ℚ := (s.heartbeat.beats.get loop).getD 0

/--
A loop that runs gets to its next beat or to its end in the time `D`, and one that waits is resumed in the time `L`
behind its delay.
-/
def Timely (D L : ℚ) (loop : BgLoop) (s : App) (e : Event) : Prop :=
  match e with
  | .elapsed dt =>
    match (s.task loop).phase with
    | .running _ => s.clock + dt - s.lastBeat loop ≤ D
    | .waiting until_ => s.clock + dt ≤ until_ + L
    | .ended => True
  | _ => True

instance (D L : ℚ) (loop : BgLoop) (s : App) (e : Event) : Decidable (Timely D L loop s e) := by
  unfold Timely
  split
  . split
    all_goals infer_instance
  . infer_instance

def View.Fresh (D L clock : ℚ) (view : View) : Prop :=
  match view.task.phase with
  | .running _ => clock - view.lastBeat.getD 0 ≤ D
  | .waiting until_ => until_ - view.lastBeat.getD 0 ≤ D + 80 ∧ clock ≤ until_ + L
  | .ended => True

structure Lively (D L : ℚ) (loop : BgLoop) (clock : ℚ) (view : View) : Prop where
  beat : view.lastBeat.isSome
  threshold : view.threshold = some (thresholdOf loop)
  retries : view.task.phase ≠ .ended → view.task.retries ≤ maxRetries
  fresh : view.Fresh D L clock

section

variable {D L : ℚ} {s s' : App} {e : Event} {loop : BgLoop} {action : Action}

theorem delay_le {retries : Nat} (h : retries ≤ maxRetries) : 0 ≤ delay retries ∧ delay retries ≤ 80 := by
  unfold maxRetries at h
  unfold delay
  interval_cases retries
  all_goals norm_num

theorem beats_register (h : Heartbeat) (now : ℚ) (name : BgLoop) (threshold : Option (Option ℚ))
    : (h.register now name threshold).beats.get loop = if loop = name then some now else h.beats.get loop := by
  split
  . next heq => exact heq ▸ Dict.get_set_self
  . next hne => exact Dict.get_set_ne hne

theorem thresholds_register (h : Heartbeat) (now : ℚ) (name : BgLoop) (threshold : Option ℚ)
    : (h.register now name (some threshold)).thresholds.get loop =
        if loop = name then some threshold else h.thresholds.get loop := by
  split
  . next heq => exact heq ▸ Dict.get_set_self
  . next hne => exact Dict.get_set_ne hne

theorem get_registered (now : ℚ) (loop : BgLoop)
    : (registered now).beats.get loop = some now ∧
        (registered now).thresholds.get loop = some (thresholdOf loop) := by
  unfold registered bgLoops
  simp only [List.foldl_cons, List.foldl_nil, beats_register, thresholds_register]
  cases loop with
  | _ => exact ⟨rfl, rfl⟩

theorem lively_onStartup (hD : 0 ≤ D) (hL : 0 ≤ L) (now : ℚ) (loop : BgLoop)
    : Lively D L loop now ((onStartup now).view loop) := by
  have hview : (onStartup now).view loop = ⟨some now, some (thresholdOf loop), { phase := .waiting now }⟩ := by
    unfold App.view onStartup
    rw [(get_registered now loop).1, (get_registered now loop).2]
  rw [hview]
  refine ⟨rfl, rfl, fun _ => Nat.zero_le _, ?_, ?_⟩
  . rw [Option.getD_some]
    linarith
  . linarith

theorem Lively.of_awake (h : Lively D L loop s.clock (s.view loop)) (hawake : s.IsAwake loop)
    : s.clock - s.lastBeat loop ≤ D ∧ (s.task loop).retries ≤ maxRetries := by
  rcases h with ⟨_, _, hretries, hfresh⟩
  unfold App.IsAwake at hawake
  unfold View.Fresh at hfresh
  dsimp only [App.view] at hretries hfresh
  split at hawake
  . next sleepsUntil hphase =>
    rw [hphase] at hretries hfresh
    exact ⟨hfresh, hretries nofun⟩
  . exact hawake.elim

theorem Lively.own (h : Lively D L loop s.clock (s.view loop)) (hD : 0 ≤ D) (hL : 0 ≤ L) {did : Heartbeat × Task}
    (hdid : s.act loop action = some did)
    : Lively D L loop s.clock ⟨did.1.beats.get loop, did.1.thresholds.get loop, did.2⟩ := by
  have hbeating (heartbeat : Heartbeat) (sleepsUntil : ℚ) (hretries : (s.task loop).retries ≤ maxRetries)
      (hbeat : heartbeat.beats.get loop = some s.clock)
      (hthreshold : heartbeat.thresholds.get loop = some (thresholdOf loop))
      : Lively D L loop s.clock ⟨heartbeat.beats.get loop, heartbeat.thresholds.get loop,
          { s.task loop with phase := .running sleepsUntil }⟩ := by
    rw [hbeat, hthreshold]
    refine ⟨rfl, rfl, fun _ => hretries, ?_⟩
    unfold View.Fresh
    dsimp only
    rw [Option.getD_some, sub_self]
    exact hD
  have hended : Lively D L loop s.clock ⟨s.heartbeat.beats.get loop, s.heartbeat.thresholds.get loop,
      { s.task loop with phase := .ended }⟩ :=
    ⟨h.beat, h.threshold, fun hne => absurd rfl hne, trivial⟩
  cases action with
  | resumed =>
    rw [App.act, Option.ite_none_right_eq_some] at hdid
    rw [← Option.some.inj hdid.2]
    unfold App.resume
    split
    . rcases get_start_self h.threshold with ⟨hbeat, hthreshold⟩
      refine hbeating _ _ (h.retries ?_) hbeat hthreshold
      intro hphase
      have hdue := hdid.1
      unfold App.IsDue at hdue
      rw [show (s.task loop).phase = .ended from hphase] at hdue
      exact hdue
    . exact hended
  | beat sleep =>
    rw [App.act, Option.ite_none_right_eq_some] at hdid
    rw [← Option.some.inj hdid.2]
    exact hbeating _ _ (h.of_awake hdid.1).2 Dict.get_set_self h.threshold
  | crashed =>
    rw [App.act, Option.ite_none_right_eq_some] at hdid
    rw [← Option.some.inj hdid.2]
    have hage := (h.of_awake hdid.1).1
    unfold Task.crash
    dsimp only
    split
    . exact ⟨h.beat, h.threshold, fun hne => absurd rfl hne, trivial⟩
    . next hretries =>
      have hdelay := delay_le (not_lt.mp hretries)
      refine ⟨h.beat, h.threshold, fun _ => not_lt.mp hretries, ?_, ?_⟩
      . unfold App.lastBeat at hage
        dsimp only
        linarith
      . linarith
  | returned =>
    rw [App.act, Option.ite_none_right_eq_some] at hdid
    rw [← Option.some.inj hdid.2]
    exact hended
  | cancelled =>
    rw [App.act, Option.ite_none_right_eq_some] at hdid
    rw [← Option.some.inj hdid.2]
    exact hended

theorem Lively.step (h : Lively D L loop s.clock (s.view loop)) (hD : 0 ≤ D) (hL : 0 ≤ L)
    (htimely : Timely D L loop s e) (hstep : s.step e = some s') : Lively D L loop s'.clock (s'.view loop) := by
  cases e with
  | elapsed dt =>
    rw [App.step, Option.ite_none_right_eq_some] at hstep
    rw [← Option.some.inj hstep.2]
    refine ⟨h.beat, h.threshold, h.retries, ?_⟩
    have hfresh := h.fresh
    unfold View.Fresh at hfresh ⊢
    unfold Timely at htimely
    dsimp only [App.view] at hfresh htimely ⊢
    split
    . next sleepsUntil hphase =>
      rw [hphase] at htimely
      exact htimely
    . next until_ hphase =>
      rw [hphase] at htimely hfresh
      exact ⟨hfresh.1, htimely⟩
    . trivial
  | did other action =>
    by_cases heq : loop = other
    . subst heq
      rcases Option.map_eq_some_iff.mp hstep with ⟨did, hdid, rfl⟩
      have hown := h.own hD hL hdid
      unfold App.view
      dsimp only
      rw [Function.update_self]
      exact hown
    . have hview := view_of_other hstep heq
      rcases Option.map_eq_some_iff.mp hstep with ⟨did, hdid, rfl⟩
      rw [hview]
      exact h
  | stopped =>
    rw [← Option.some.inj hstep]
    exact h

def thresholdFor (thresholdS : ℚ) (loop : BgLoop) : ℚ := (thresholdOf loop).getD thresholdS

theorem mem_staleTasks {heartbeat : Heartbeat} {now thresholdS : ℚ}
    : loop ∈ heartbeat.staleTasks now thresholdS ↔
        ∃ ts, heartbeat.beats.get loop = some ts ∧ heartbeat.effective thresholdS loop < now - ts := by
  unfold Heartbeat.staleTasks
  rw [List.mem_map]
  constructor
  . rintro ⟨⟨name, ts⟩, hitem, rfl⟩
    rcases List.mem_filter.mp hitem with ⟨hmem, hstale⟩
    exact ⟨ts, Dict.get_eq_some_iff.mpr hmem, of_decide_eq_true hstale⟩
  . rintro ⟨ts, hget, hstale⟩
    exact ⟨(loop, ts), List.mem_filter.mpr ⟨Dict.get_eq_some_iff.mp hget, decide_eq_true hstale⟩, rfl⟩

theorem effective_eq {heartbeat : Heartbeat} (h : heartbeat.thresholds.get loop = some (thresholdOf loop))
    (thresholdS : ℚ) : heartbeat.effective thresholdS loop = thresholdFor thresholdS loop := by
  unfold Heartbeat.effective thresholdFor
  rw [h]
  cases loop with
  | dailyPing => exact if_neg (by norm_num)
  | dailyFlush => exact if_neg (by norm_num)
  | _ => rfl

theorem Lively.mem_staleTasks_iff (h : Lively D L loop s.clock (s.view loop)) (thresholdS : ℚ)
    : loop ∈ s.heartbeat.staleTasks s.clock thresholdS ↔
        thresholdFor thresholdS loop < s.clock - s.lastBeat loop := by
  rcases Option.isSome_iff_exists.mp h.beat with ⟨ts, hts⟩
  rw [mem_staleTasks, effective_eq h.threshold]
  unfold App.lastBeat
  dsimp only [App.view] at hts
  rw [hts, Option.getD_some]
  constructor
  . rintro ⟨ts', heq, hstale⟩
    exact Option.some.inj heq ▸ hstale
  . exact fun hstale => ⟨ts, rfl, hstale⟩

theorem Lively.ended_of_stale (h : Lively D L loop s.clock (s.view loop)) (hL : 0 ≤ L) {thresholdS : ℚ}
    (hbound : D + 80 + L ≤ thresholdFor thresholdS loop)
    (hstale : thresholdFor thresholdS loop < s.clock - s.lastBeat loop) : (s.task loop).phase = .ended := by
  have hfresh := h.fresh
  unfold View.Fresh App.view at hfresh
  unfold App.lastBeat at hstale
  dsimp only at hfresh
  cases hphase : (s.task loop).phase with
  | ended => rfl
  | running sleepsUntil =>
    rw [hphase] at hfresh
    dsimp only at hfresh
    linarith
  | waiting until_ =>
    rw [hphase] at hfresh
    dsimp only at hfresh
    linarith [hfresh.1, hfresh.2]

def OnlyCrashes (loop : BgLoop) (e : Event) : Prop :=
  e ≠ .stopped ∧ e ≠ .did loop .returned ∧ e ≠ .did loop .cancelled

structure Counted (loop : BgLoop) (s : App) : Prop where
  enabled : s.bgRestartEnabled = true
  ended_iff : (s.task loop).phase = .ended ↔ maxRetries < (s.task loop).retries
  retries_le : (s.task loop).retries ≤ maxRetries + 1

theorem not_ended_of_awake (h : s.IsAwake loop) : (s.task loop).phase ≠ .ended := by
  intro hphase
  unfold App.IsAwake at h
  rw [hphase] at h
  exact h

theorem not_ended_of_due (h : s.IsDue loop) : (s.task loop).phase ≠ .ended := by
  intro hphase
  unfold App.IsDue at h
  rw [hphase] at h
  exact h

theorem Counted.own (h : Counted loop s) (honly : OnlyCrashes loop (.did loop action)) {did : Heartbeat × Task}
    (hdid : s.act loop action = some did)
    : Counted loop { s with heartbeat := did.1, task := Function.update s.task loop did.2 } ∧
        did.2.retries = (s.task loop).retries + if action = .crashed then 1 else 0 := by
  have hcounted (heartbeat : Heartbeat) (task : Task) (hended : task.phase = .ended ↔ maxRetries < task.retries)
      (hretries : task.retries ≤ maxRetries + 1)
      : Counted loop { s with heartbeat, task := Function.update s.task loop task } := by
    refine ⟨h.enabled, ?_, ?_⟩
    all_goals dsimp only
    all_goals rw [Function.update_self]
    . exact hended
    . exact hretries
  have hgoesOn (sleepsUntil : ℚ) (hphase : (s.task loop).phase ≠ .ended)
      : Phase.running sleepsUntil = .ended ↔ maxRetries < (s.task loop).retries :=
    iff_of_false nofun fun hlt => hphase (h.ended_iff.mpr hlt)
  cases action with
  | resumed =>
    rw [App.act, Option.ite_none_right_eq_some] at hdid
    rw [← Option.some.inj hdid.2]
    unfold App.resume
    rw [if_pos h.enabled]
    exact ⟨hcounted _ _ (hgoesOn _ (not_ended_of_due hdid.1)) h.retries_le, rfl⟩
  | beat sleep =>
    rw [App.act, Option.ite_none_right_eq_some] at hdid
    rw [← Option.some.inj hdid.2]
    exact ⟨hcounted _ _ (hgoesOn _ (not_ended_of_awake hdid.1)) h.retries_le, rfl⟩
  | crashed =>
    rw [App.act, Option.ite_none_right_eq_some] at hdid
    rw [← Option.some.inj hdid.2]
    have hretries : ¬ maxRetries < (s.task loop).retries := fun hlt =>
      not_ended_of_awake hdid.1 (h.ended_iff.mpr hlt)
    have hnext : (s.task loop).retries + 1 ≤ maxRetries + 1 := Nat.succ_le_succ (not_lt.mp hretries)
    unfold Task.crash
    dsimp only
    split
    . next hmany => exact ⟨hcounted _ _ (iff_of_true rfl hmany) hnext, rfl⟩
    . next hfew => exact ⟨hcounted _ _ (iff_of_false nofun hfew) hnext, rfl⟩
  | returned => exact absurd rfl honly.2.1
  | cancelled => exact absurd rfl honly.2.2

theorem Counted.step (h : Counted loop s) (honly : OnlyCrashes loop e) (hstep : s.step e = some s')
    : Counted loop s' ∧
        (s'.task loop).retries = (s.task loop).retries + if e = .did loop .crashed then 1 else 0 := by
  cases e with
  | elapsed dt =>
    rw [App.step, Option.ite_none_right_eq_some] at hstep
    rw [← Option.some.inj hstep.2]
    exact ⟨⟨h.enabled, h.ended_iff, h.retries_le⟩, rfl⟩
  | stopped => exact absurd rfl honly.1
  | did other action =>
    by_cases heq : loop = other
    . subst heq
      rcases Option.map_eq_some_iff.mp hstep with ⟨did, hdid, rfl⟩
      rcases h.own honly hdid with ⟨hnext, hretries⟩
      refine ⟨hnext, ?_⟩
      dsimp only
      rw [Function.update_self, hretries]
      congr 1
      exact if_congr ⟨fun heq => congrArg _ heq, fun heq => (Event.did.inj heq).2⟩ rfl rfl
    . have hne : Event.did other action ≠ .did loop .crashed := fun hsame => heq (Event.did.inj hsame).1.symm
      rcases Option.map_eq_some_iff.mp hstep with ⟨did, hdid, rfl⟩
      have htask : Function.update s.task other did.2 loop = s.task loop := Function.update_of_ne heq _ _
      rw [if_neg hne]
      refine ⟨⟨h.enabled, ?_, ?_⟩, ?_⟩
      all_goals dsimp only
      all_goals rw [htask]
      . exact h.ended_iff
      . exact h.retries_le
      . rfl

theorem Counted.exec {t : App} {es : List Event} (h : Counted loop s) (honly : ∀ e ∈ es, OnlyCrashes loop e)
    (hrun : Run.exec App.step s es = some t)
    : Counted loop t ∧ (t.task loop).retries = (s.task loop).retries + es.count (.did loop .crashed) := by
  induction es generalizing s with
  | nil =>
    cases hrun
    exact ⟨h, rfl⟩
  | cons e es ih =>
    rw [List.forall_mem_cons] at honly
    rcases Run.exec_cons_eq_some.mp hrun with ⟨s', hstep, hrest⟩
    rcases h.step honly.1 hstep with ⟨hnext, hretries⟩
    rcases ih hnext honly.2 hrest with ⟨hlast, hcount⟩
    refine ⟨hlast, ?_⟩
    rw [hcount, hretries, List.count_cons, Nat.add_assoc]
    congr 1
    rw [Nat.add_comm]
    congr 1
    simp only [beq_iff_eq]

end

/--
Where nothing but crashes ends a loop that is timely, the endpoint reports it if and only if it has crashed six times,
however far apart, and its last beat is older than its threshold.
-/
theorem mem_staleTasks_iff_crashes {D L now thresholdS : ℚ} {loop : BgLoop} {es : List Event} {t : App}
    (hrun : Run.exec App.step (onStartup now) es = some t)
    (htimely : Run.StepsMeet App.step (Timely D L loop) (onStartup now) es) (hD : 0 ≤ D) (hL : 0 ≤ L)
    (hbound : D + 80 + L ≤ thresholdFor thresholdS loop) (honly : ∀ e ∈ es, OnlyCrashes loop e)
    : loop ∈ t.heartbeat.staleTasks t.clock thresholdS ↔
        es.count (.did loop .crashed) = maxRetries + 1 ∧
          thresholdFor thresholdS loop < t.clock - t.lastBeat loop := by
  have hlively : Lively D L loop t.clock (t.view loop) :=
    Run.invariant (I := fun s => Lively D L loop s.clock (s.view loop))
      (fun h htimely hstep => h.step hD hL htimely hstep) (lively_onStartup hD hL now loop) htimely hrun
  have hstart : Counted loop (onStartup now) := ⟨rfl, iff_of_false nofun (Nat.not_lt_zero _), Nat.zero_le _⟩
  rcases hstart.exec honly hrun with ⟨hcounted, hcount⟩
  have hended : (t.task loop).phase = .ended ↔ es.count (.did loop .crashed) = maxRetries + 1 := by
    have hzero : ((onStartup now).task loop).retries = 0 := rfl
    have hle := hcounted.retries_le
    rw [hcounted.ended_iff]
    omega
  rw [hlively.mem_staleTasks_iff, ← hended]
  exact ⟨fun hstale => ⟨hlively.ended_of_stale hL hbound hstale, hstale⟩, And.right⟩

/--
The loop of the reminders crashes at once each time it is started.
-/
def sixCrashes : List Event := [
  .did .reminderChecker .resumed, .did .reminderChecker .crashed, .elapsed 5,
  .did .reminderChecker .resumed, .did .reminderChecker .crashed, .elapsed 10,
  .did .reminderChecker .resumed, .did .reminderChecker .crashed, .elapsed 20,
  .did .reminderChecker .resumed, .did .reminderChecker .crashed, .elapsed 40,
  .did .reminderChecker .resumed, .did .reminderChecker .crashed, .elapsed 80,
  .did .reminderChecker .resumed, .did .reminderChecker .crashed, .elapsed 301]

theorem isSome_sixCrashes : (Run.exec App.step (onStartup 0) sixCrashes).isSome = true := by
  decide +kernel

theorem mem_staleTasks_iff_crashes_sixCrashes
    : .reminderChecker ∈
        ((Run.exec App.step (onStartup 0) sixCrashes).get isSome_sixCrashes).heartbeat.staleTasks 456 300 := by
  have hrun := (Option.some_get isSome_sixCrashes).symm
  have htimely : Run.StepsMeet App.step (Timely 200 20 .reminderChecker) (onStartup 0) sixCrashes := by
    decide +kernel
  have honly : ∀ e ∈ sixCrashes, OnlyCrashes .reminderChecker e := by
    unfold OnlyCrashes
    decide +kernel
  have hclock : ((Run.exec App.step (onStartup 0) sixCrashes).get isSome_sixCrashes).clock = 456 := by
    decide +kernel
  have hiff : _ ∈ Heartbeat.staleTasks _ _ 300 ↔ _ :=
    mem_staleTasks_iff_crashes hrun htimely (by norm_num) (by norm_num) (by decide +kernel) honly
  rw [hclock] at hiff
  exact hiff.mpr ⟨by decide +kernel, by decide +kernel⟩

section

variable {s s' t : App} {e : Event} {es : List Event} {loop : BgLoop} {sleepsUntil : ℚ}

theorem clock_le_of_step (hstep : s.step e = some s') : s.clock ≤ s'.clock := by
  cases e with
  | elapsed dt =>
    rw [App.step, Option.ite_none_right_eq_some] at hstep
    rw [← Option.some.inj hstep.2]
    exact le_add_of_nonneg_right hstep.1
  | did other action =>
    rcases Option.map_eq_some_iff.mp hstep with ⟨did, _, rfl⟩
    exact le_rfl
  | stopped => rw [← Option.some.inj hstep]

theorem clock_le_of_exec (hrun : Run.exec App.step s es = some t) : s.clock ≤ t.clock :=
  Run.invariant' (I := fun u => s.clock ≤ u.clock) (fun hle hstep => hle.trans (clock_le_of_step hstep)) le_rfl hrun

theorem act_asleep (hphase : (s.task loop).phase = .running sleepsUntil) (hasleep : s.clock < sleepsUntil)
    {action : Action} (hcancelled : action ≠ .cancelled) : s.act loop action = none := by
  have hawake : ¬ s.IsAwake loop := by
    unfold App.IsAwake
    rw [hphase]
    exact not_le.mpr hasleep
  have hdue : ¬ s.IsDue loop := by
    unfold App.IsDue
    rw [hphase]
    exact id
  cases action with
  | resumed => exact if_neg hdue
  | cancelled => exact absurd rfl hcancelled
  | _ => exact if_neg hawake

theorem view_asleep (hphase : (s.task loop).phase = .running sleepsUntil) (hasleep : t.clock < sleepsUntil)
    (hcancelled : .did loop .cancelled ∉ es) (hrun : Run.exec App.step s es = some t)
    : t.view loop = s.view loop := by
  induction es generalizing s with
  | nil =>
    cases hrun
    rfl
  | cons e es ih =>
    rw [List.mem_cons, not_or] at hcancelled
    have hnow : s.clock < sleepsUntil := (clock_le_of_exec hrun).trans_lt hasleep
    rcases Run.exec_cons_eq_some.mp hrun with ⟨s', hstep, hrest⟩
    have hview : s'.view loop = s.view loop := by
      cases e with
      | elapsed dt =>
        rw [App.step, Option.ite_none_right_eq_some] at hstep
        rw [← Option.some.inj hstep.2]
        rfl
      | stopped =>
        rw [← Option.some.inj hstep]
        rfl
      | did other action =>
        by_cases heq : loop = other
        . subst heq
          have hnone := act_asleep hphase hnow fun hcancel => hcancelled.1 (hcancel ▸ rfl)
          rw [App.step, hnone] at hstep
          exact absurd hstep nofun
        . exact view_of_other hstep heq
    have hphase' : (s'.task loop).phase = .running sleepsUntil := by
      rw [show s'.task loop = s.task loop from congrArg View.task hview]
      exact hphase
    rw [ih hphase' hcancelled.2 hrest, hview]

theorem threshold_of_exec {now : ℚ} (hrun : Run.exec App.step (onStartup now) es = some s) (loop : BgLoop)
    : s.heartbeat.thresholds.get loop = some (thresholdOf loop) :=
  Run.invariant' (I := fun u => u.heartbeat.thresholds.get loop = some (thresholdOf loop))
    (fun h hstep => threshold_step hstep h) (get_registered now loop).2 hrun

/--
While a loop sleeps behind its beat, the endpoint reports it from its threshold on, though it runs.
-/
theorem mem_staleTasks_iff_asleep {now sleep thresholdS : ℚ} {before : List Event}
    (hbefore : Run.exec App.step (onStartup now) before = some s)
    (hbeat : s.step (.did loop (.beat sleep)) = some s') (hcancelled : .did loop .cancelled ∉ es)
    (hrun : Run.exec App.step s' es = some t) (hasleep : t.clock - s.clock < sleep)
    : (t.task loop).phase = .running (s.clock + sleep) ∧
        (loop ∈ t.heartbeat.staleTasks t.clock thresholdS ↔ thresholdFor thresholdS loop < t.clock - s.clock) := by
  have hview : s'.view loop = ⟨some s.clock, some (thresholdOf loop),
      { s.task loop with phase := .running (s.clock + sleep) }⟩ := by
    rcases Option.map_eq_some_iff.mp hbeat with ⟨did, hdid, rfl⟩
    rw [App.act, Option.ite_none_right_eq_some] at hdid
    rw [← Option.some.inj hdid.2]
    unfold App.view Heartbeat.beat
    dsimp only
    rw [Dict.get_set_self, threshold_of_exec hbefore, Function.update_self]
  have hphase : (s'.task loop).phase = .running (s.clock + sleep) := by
    rw [show s'.task loop = _ from congrArg View.task hview]
  have hlast := view_asleep hphase (by linarith) hcancelled hrun
  rw [hview] at hlast
  constructor
  . rw [show t.task loop = _ from congrArg View.task hlast]
  . have hbeats : t.heartbeat.beats.get loop = some s.clock := congrArg View.lastBeat hlast
    rw [mem_staleTasks, effective_eq (congrArg View.threshold hlast), hbeats]
    constructor
    . rintro ⟨ts, heq, hstale⟩
      exact Option.some.inj heq ▸ hstale
    . exact fun hstale => ⟨s.clock, rfl, hstale⟩

end

/--
The schedules are checked every ten minutes, and the endpoint is asked six minutes behind a check.
-/
def tenMinutes : List Event := [.elapsed 200, .did .powerMonitor .resumed, .elapsed 160]

def beforeBeat : App := ((onStartup 0).step (.did .scheduleChecker .resumed)).getD (onStartup 0)

def afterBeat : App := (beforeBeat.step (.did .scheduleChecker (.beat 600))).getD (onStartup 0)

theorem isSome_tenMinutes : (Run.exec App.step afterBeat tenMinutes).isSome = true := by
  decide +kernel

theorem mem_staleTasks_iff_asleep_tenMinutes
    : .scheduleChecker ∈
        ((Run.exec App.step afterBeat tenMinutes).get isSome_tenMinutes).heartbeat.staleTasks 360 300 := by
  have hbefore : Run.exec App.step (onStartup 0) [.did .scheduleChecker .resumed] = some beforeBeat := rfl
  have hbeat : beforeBeat.step (.did .scheduleChecker (.beat 600)) = some afterBeat := rfl
  have hrun := (Option.some_get isSome_tenMinutes).symm
  have hclock : ((Run.exec App.step afterBeat tenMinutes).get isSome_tenMinutes).clock = 360 := by
    decide +kernel
  have hstale : _ ∧ (_ ∈ Heartbeat.staleTasks _ _ 300 ↔ _) :=
    mem_staleTasks_iff_asleep hbefore hbeat (by decide +kernel) hrun (by rw [hclock]; decide +kernel)
  rw [hclock] at hstale
  exact hstale.2.mpr (by decide +kernel)

end Supervisor
