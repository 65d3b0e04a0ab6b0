import Mathlib.Data.Int.Order.Basic
import Mathlib.Data.List.Dedup
import Mathlib.Logic.Function.Basic
import VoltykBot.Lib.Latest
import VoltykBot.Lib.Run
import VoltykBot.Reminders.Due

/-!
This module contains the two routines that send reminders, the ticks of `reminder_checker_loop` and
`catch_up_missed_reminders`, interleaved at their awaits. Both check a batch, send it message by message
and mark it in the end.
-/

namespace Scheduler.Reminders

inductive Routine where
  | checker
  | catchUp
  deriving DecidableEq, Repr

def Routine.other (r : Routine) : Routine :=
  match r with
  | .checker => .catchUp
  | .catchUp => .checker

/--
A message of Telegram. `anchor` records the event that it announces; the tables have the id only.
-/
structure Message where
  id : Nat
  anchor : IsoTime
  deriving DecidableEq, Repr

structure Tracking where
  lastReminder : Option Message := none
  lastChannelReminder : Option Message := none
  deriving DecidableEq, Repr

structure Work where
  pair : Pair
  next : NextEvent
  rest : List (List Send)
  deriving DecidableEq

/--
Where a routine stands. `forgetting` and `deleting` are the two calls of `_delete_reminder_messages`, by the
cleanup and before a send, with what they have loaded.
-/
inductive Pc where
  | idle
  | cleaning (now : Int) (todo : List (TelegramId × IsoTime))
  | forgetting (now : Int) (tid : TelegramId) (loaded : Tracking) (hasChannel : Bool)
      (todo : List (TelegramId × IsoTime))
  | pairs
  | checking (work : Work) (batch : List Send)
  | sending (work : Work) (toMark : List Key) (todo : List Send)
  | deleting (work : Work) (toMark : List Key) (send : Send) (todo : List Send) (loaded : Tracking)
      (hasChannel : Bool)
  | awaiting (work : Work) (toMark : List Key) (send : Send) (todo : List Send)
  | storing (work : Work) (toMark : List Key) (send : Send) (todo : List Send) (outcome : Outcome)
  deriving DecidableEq

/--
The tables and the two routines. `sentLog` records what was sent, `cleaned` the messages that the cleanup
has deleted with the clock of its tick.
-/
structure Routines where
  table : List SentReminder := []
  tracking : TelegramId → Option Tracking := fun _ => none
  clock : Int := 0
  pc : Routine → Pc := fun _ => .idle
  sentLog : List Key := []
  cleaned : List (Message × Int) := []

namespace Routines

inductive Action where
  | anchorsRead (now cutoff : Int)
  | anchorsFailed
  | trackingLoaded (hasChannel : Bool)
  | trackingFailed
  | committed (ok : Bool)
  | cleanupEnded
  | started
  | pairScanned (pair : Pair) (sched : Sched) (now : Int) (users : List User)
  | checked
  | answered (outcome : Outcome)
  | marked (createdAt : Key → Int) (clock : Int)
  | raised
  | ended

inductive Event where
  | acted (r : Routine) (a : Action)
  | registered (tid : TelegramId)
  | unregistered (tid : TelegramId)
  | restarted

def goto (m : Routines) (r : Routine) (pc : Pc) : Routines :=
  { m with pc := Function.update m.pc r pc }

def latestAnchor (table : List SentReminder) (tid : TelegramId) : Option IsoTime :=
  (Latest.latest SentReminder.createdAt (table.filter (·.key.telegramId = tid))).map (·.key.periodKey)

def getActiveReminderAnchors (table : List SentReminder) (cutoff : Int)
    : List (TelegramId × IsoTime) :=
  let rows := table.filter (cutoff < ·.createdAt)
  (rows.map (·.key.telegramId)).dedup.filterMap fun tid => (latestAnchor rows tid).map (tid, ·)

def eventAnchorPassed (now : Int) (anchor : IsoTime) : Bool := anchor.instant < now

def deletedMessages (loaded : Tracking) (hasChannel : Bool) : List Message :=
  loaded.lastReminder.toList ++ if hasChannel then loaded.lastChannelReminder.toList else []

/--
The columns that are written are those that held an id when they were loaded.
-/
def forget (loaded : Tracking) (hasChannel : Bool) (tracking : Tracking) : Tracking where
  lastReminder := if loaded.lastReminder.isSome then none else tracking.lastReminder
  lastChannelReminder :=
    if hasChannel && loaded.lastChannelReminder.isSome then none else tracking.lastChannelReminder

def storeIds (next : NextEvent) (send : Send) (outcome : Outcome) (tracking : Tracking) : Tracking where
  lastReminder :=
    match botMessage send.user outcome with
    | some id => some { id := id, anchor := next.time }
    | none => tracking.lastReminder
  lastChannelReminder :=
    match channelMessage next.type send outcome with
    | some id => some { id := id, anchor := next.time }
    | none => tracking.lastChannelReminder

def updateTracking (m : Routines) (tid : TelegramId) (ok : Bool) (write : Tracking → Tracking)
    : Routines :=
  if ok then
    { m with tracking := Function.update m.tracking tid ((m.tracking tid).map write) }
  else
    m

def batchesOf (r : Routine) (next : NextEvent) (users : List User) : List (List Send) :=
  match r with
  | .checker => checkerBatches next users
  | .catchUp => catchUpBatches next users

def nextBatch (work : Work) : Pc :=
  match work.rest with
  | [] => .pairs
  | batch :: rest => .checking { work with rest := rest } batch

def proceed (work : Work) (toMark : List Key) (todo : List Send) : Pc :=
  match toMark, todo with
  | [], [] => nextBatch work
  | _, _ => .sending work toMark todo

def act (m : Routines) (r : Routine) (a : Action) : Option Routines :=
  match m.pc r, a with
  | .idle, .anchorsRead now cutoff =>
    if r = .checker then
      let passed := (getActiveReminderAnchors m.table cutoff).filter (eventAnchorPassed now ·.2)
      some (m.goto r (.cleaning now passed))
    else
      none
  | .idle, .anchorsFailed => if r = .checker then some (m.goto r .pairs) else none
  | .idle, .started => if r = .catchUp then some (m.goto r .pairs) else none
  | .cleaning now ((tid, _) :: todo), .trackingLoaded hasChannel =>
    match m.tracking tid with
    | none => some (m.goto r (.cleaning now todo))
    | some loaded =>
      let cleaned := (deletedMessages loaded hasChannel).map (·, now)
      some ({ m with cleaned := cleaned ++ m.cleaned }.goto r
        (.forgetting now tid loaded hasChannel todo))
  | .cleaning now (_ :: todo), .trackingFailed => some (m.goto r (.cleaning now todo))
  | .cleaning _ [], .cleanupEnded => some (m.goto r .pairs)
  | .forgetting now tid loaded hasChannel todo, .committed ok =>
    some ((m.updateTracking tid ok (forget loaded hasChannel)).goto r (.cleaning now todo))
  | .pairs, .pairScanned pair sched now users =>
    -- a user who registers anew between two pages of the scan is among `users` twice
    match findNextEvent sched now with
    | none => some m
    | some next =>
      some (m.goto r (nextBatch { pair := pair, next := next, rest := batchesOf r next users }))
  | .pairs, .ended => some (m.goto r .idle)
  | .checking work batch, .checked =>
    some (m.goto r (proceed work [] (batch.filter fun send => !recorded m.table (send.key work.next))))
  | .sending work toMark (send :: todo), .trackingLoaded hasChannel =>
    match m.tracking send.user.telegramId with
    | none => some (m.goto r (.awaiting work toMark send todo))
    | some loaded => some (m.goto r (.deleting work toMark send todo loaded hasChannel))
  | .sending work toMark (send :: todo), .trackingFailed =>
    some (m.goto r (.awaiting work toMark send todo))
  | .deleting work toMark send todo loaded hasChannel, .committed ok =>
    some ((m.updateTracking send.user.telegramId ok (forget loaded hasChannel)).goto r
      (.awaiting work toMark send todo))
  | .awaiting work toMark send todo, .answered outcome =>
    if sent work.next.type send outcome then
      some ({ m with sentLog := send.key work.next :: m.sentLog }.goto r
        (.storing work toMark send todo outcome))
    else
      some (m.goto r (proceed work toMark todo))
  | .storing work toMark send todo outcome, .committed ok =>
    some ((m.updateTracking send.user.telegramId ok (storeIds work.next send outcome)).goto r
      (proceed work (toMark ++ [send.key work.next]) todo))
  | .sending work toMark [], .marked createdAt clock =>
    if ∀ key ∈ toMark, m.clock < createdAt key ∧ createdAt key ≤ clock then
      some ({ m with
        table := markAll m.table work.pair createdAt toMark
        clock := max m.clock clock }.goto r (nextBatch work))
    else
      none
  | .checking _ _, .raised => some (m.goto r .pairs)
  | .sending _ _ _, .raised => some (m.goto r .pairs)
  | .deleting _ _ _ _ _ _, .raised => some (m.goto r .pairs)
  | .awaiting _ _ _ _, .raised => some (m.goto r .pairs)
  | .storing _ _ _ _ _, .raised => some (m.goto r .pairs)
  | _, _ => none

def step (m : Routines) (e : Event) : Option Routines :=
  match e with
  | .acted r a => m.act r a
  | .registered tid =>
    if (m.tracking tid).isSome then
      some m
    else
      some { m with tracking := Function.update m.tracking tid (some {}) }
  | .unregistered tid => some { m with tracking := Function.update m.tracking tid none }
  | .restarted => some { m with pc := fun _ => .idle }

end Routines

def Pc.toMark (pc : Pc) : List Key :=
  match pc with
  | .sending _ toMark _ => toMark
  | .deleting _ toMark _ _ _ _ => toMark
  | .awaiting _ toMark _ _ => toMark
  | .storing work toMark send _ _ => toMark ++ [send.key work.next]
  | _ => []

def targetKeys (next : NextEvent) (sends : List Send) : List Key :=
  (sends.filter (·.targeted next.type)).map (·.key next)

def Pc.unsent (pc : Pc) : List Key :=
  match pc with
  | .sending work _ todo => targetKeys work.next todo
  | .deleting work _ send todo _ _ => targetKeys work.next (send :: todo)
  | .awaiting work _ send todo => targetKeys work.next (send :: todo)
  | .storing work _ _ todo _ => targetKeys work.next todo
  | _ => []

namespace Routines

theorem eq_or_eq_other (r q : Routine) : q = r ∨ q = r.other := by
  cases r <;> cases q <;> decide

theorem other_ne (r : Routine) : r.other ≠ r := by
  cases r <;> decide

theorem other_other (r : Routine) : r.other.other = r := by
  cases r <;> rfl

theorem pc_self {m m' : Routines} {r : Routine} {pc : Pc} (hpc : m'.pc = Function.update m.pc r pc)
    : m'.pc r = pc := by
  rw [hpc]
  exact Function.update_self _ _ _

theorem pc_other {m m' : Routines} {r : Routine} {pc : Pc} (hpc : m'.pc = Function.update m.pc r pc)
    : m'.pc r.other = m.pc r.other := by
  rw [hpc]
  exact Function.update_of_ne (other_ne r) _ _

theorem forall_routine (P : Routine → Pc → Prop) {m m' : Routines} {r : Routine} {pc : Pc}
    (hpc : m'.pc = Function.update m.pc r pc) (hself : P r pc) (hother : P r.other (m.pc r.other))
    : ∀ q, P q (m'.pc q) := by
  intro q
  rcases eq_or_eq_other r q with rfl | rfl
  . rw [pc_self hpc]
    exact hself
  . rw [pc_other hpc]
    exact hother

@[simp]
theorem toMark_nextBatch (work : Work) : (nextBatch work).toMark = [] := by
  unfold nextBatch
  split <;> rfl

@[simp]
theorem unsent_nextBatch (work : Work) : (nextBatch work).unsent = [] := by
  unfold nextBatch
  split <;> rfl

@[simp]
theorem toMark_proceed (work : Work) (toMark : List Key) (todo : List Send)
    : (proceed work toMark todo).toMark = toMark := by
  unfold proceed
  split
  . exact toMark_nextBatch work
  . rfl

@[simp]
theorem unsent_proceed (work : Work) (toMark : List Key) (todo : List Send)
    : (proceed work toMark todo).unsent = targetKeys work.next todo := by
  unfold proceed
  split
  . exact unsent_nextBatch work
  . rfl

variable (m : Routines) (tid : TelegramId) (ok : Bool) (write : Tracking → Tracking)

@[simp]
theorem table_updateTracking : (m.updateTracking tid ok write).table = m.table := by
  unfold updateTracking
  split <;> rfl

@[simp]
theorem clock_updateTracking : (m.updateTracking tid ok write).clock = m.clock := by
  unfold updateTracking
  split <;> rfl

@[simp]
theorem pc_updateTracking : (m.updateTracking tid ok write).pc = m.pc := by
  unfold updateTracking
  split <;> rfl

theorem pc_goto_updateTracking (r : Routine) (pc : Pc)
    : ((m.updateTracking tid ok write).goto r pc).pc = Function.update m.pc r pc := by
  unfold goto
  dsimp only
  rw [pc_updateTracking]

@[simp]
theorem sentLog_updateTracking : (m.updateTracking tid ok write).sentLog = m.sentLog := by
  unfold updateTracking
  split <;> rfl

@[simp]
theorem cleaned_updateTracking : (m.updateTracking tid ok write).cleaned = m.cleaned := by
  unfold updateTracking
  split <;> rfl

theorem raised_eq {m m' : Routines} {r : Routine} (h : m.act r .raised = some m')
    : m' = m.goto r .pairs := by
  unfold act at h
  split at h
  all_goals first | contradiction | cases h; rfl

def earlyOutage : Sched where
  hasData := true
  events := [{
    start := ⟨1, 13, 7200⟩
    endAt := ⟨1, 17, 7200⟩
    isPossible := false }]
  queue := "1.1"
  dtekUpdatedAt := none

def earlyUser : User where
  telegramId := "777"
  region := "kyiv"
  queue := "1.1"
  notificationSettings := some { remind30m := true }
  channelConfig := none

def sixSharp : Int := (86400 - 7200) * 1000000 + 6 * 60 * minuteUs

def pairAtSix (r : Routine) : Event :=
  .acted r (.pairScanned ("kyiv", "1.1") earlyOutage sixSharp [earlyUser])

def sendOf (r : Routine) (id : Nat) : List Event := [
  .acted r (.trackingLoaded false),
  .acted r (.committed true),
  .acted r (.answered { bot := some id, channel := some id }),
  .acted r (.committed true)]

end Routines
end Scheduler.Reminders
