import VoltykBot.Reminders.Due

/-!
This module contains the ticks of `_check_and_send_reminders` while no other routine runs: every reminder
that is due is sent in exactly one of them.
-/

namespace Scheduler.Reminders

/--
What an evaluation of a pair meets: the clock that `find_next_event` reads, the users that the scan loads,
the answers of Telegram, and the `created_at` of its marks, if their commit succeeds.
-/
structure Evaluation where
  now : Int
  users : List User
  outcome : Send → Outcome
  createdAt : Option Int

def sendBatch (pair : Pair) (ev : Evaluation) (next : NextEvent) (table : List SentReminder)
    (batch : List Send) : List SentReminder × List Key :=
  let unsent := batch.filter fun send => !recorded table (send.key next)
  let keys := (unsent.filter fun send => sent next.type send (ev.outcome send)).map (·.key next)
  match ev.createdAt with
  | none => (table, keys)
  | some createdAt => (markAll table pair (fun _ => createdAt) keys, keys)

def evaluatePair (sched : Sched) (pair : Pair) (table : List SentReminder) (ev : Evaluation)
    : List SentReminder × List Key :=
  match findNextEvent sched ev.now with
  | none => (table, [])
  | some next =>
    let toSend := checkerToSend next ev.users
    if toSend.isEmpty then (table, []) else sendBatch pair ev next table toSend

def sendsOf (sched : Sched) (pair : Pair) (table : List SentReminder) (evs : List Evaluation)
    : List (List Key) :=
  match evs with
  | [] => []
  | ev :: evs =>
    let r := evaluatePair sched pair table ev
    r.2 :: sendsOf sched pair r.1 evs

theorem inWindow_iff {t : IsoTime} {now : Int} {m : Remind}
    : inWindow (minutesUntil t now) m = true ↔
        t.instant - (m.minutes + 2) * minuteUs < now ∧ now ≤ t.instant - (m.minutes - 1) * minuteUs := by
  have hm : 15 ≤ m.minutes := by cases m <;> decide
  unfold inWindow minutesUntil minuteUs
  rw [decide_eq_true_eq]
  generalize m.minutes = minutes at hm
  generalize t.instant = a
  cases Int.le_total 0 (a - now) with
  | inl hahead =>
    rw [Int.tdiv_eq_ediv_of_nonneg hahead]
    omega
  | inr hpassed =>
    have hneg : (a - now).tdiv (60 * 1000000) ≤ 0 := by
      rw [← Int.neg_neg (a - now), Int.neg_tdiv, Int.tdiv_eq_ediv_of_nonneg (by omega)]
      omega
    omega

theorem collects_of_wants {type : EventType} {m : Remind} {user : User} (h : wants type m user = true)
    : collects user = true := by
  unfold wants at h
  unfold collects
  cases hns : user.notificationSettings with
  | none =>
    rw [hns] at h
    cases h
  | some ns =>
    rw [hns] at h
    rw [Bool.and_eq_true] at h ⊢
    constructor
    . rw [List.any_eq_true]
      refine ⟨m, ?_, h.2⟩
      cases m <;> decide
    . rw [Bool.or_eq_true]
      cases type with
      | powerOff => exact .inl h.1
      | powerOn => exact .inr h.1

theorem mem_checkerToSend {next : NextEvent} {users : List User} {send : Send}
    : send ∈ checkerToSend next users ↔
        send.user ∈ users ∧ wants next.type send.remind send.user = true ∧
          inWindow next.minutes send.remind = true := by
  unfold checkerToSend
  rw [List.mem_flatMap]
  constructor
  . rintro ⟨user, huser, hsend⟩
    rw [List.mem_map] at hsend
    rcases hsend with ⟨m, hm, rfl⟩
    rw [List.mem_filter, Bool.and_eq_true] at hm
    exact ⟨(List.mem_filter.mp huser).1, hm.2⟩
  . rintro ⟨huser, hwants, hwindow⟩
    refine ⟨send.user, List.mem_filter.mpr ⟨huser, collects_of_wants hwants⟩, ?_⟩
    rw [List.mem_map]
    refine ⟨send.remind, ?_, rfl⟩
    rw [List.mem_filter, hwants, hwindow]
    refine ⟨?_, rfl⟩
    cases send.remind <;> decide

theorem mem_sendBatch {pair : Pair} {ev : Evaluation} {next : NextEvent} {table : List SentReminder}
    {batch : List Send} {key : Key}
    : key ∈ (sendBatch pair ev next table batch).2 ↔
        recorded table key = false ∧
          ∃ send ∈ batch, sent next.type send (ev.outcome send) = true ∧ send.key next = key := by
  have hkeys : (sendBatch pair ev next table batch).2 =
      ((batch.filter fun send => !recorded table (send.key next)).filter
        fun send => sent next.type send (ev.outcome send)).map (·.key next) := by
    unfold sendBatch
    dsimp only
    split <;> rfl
  rw [hkeys]
  simp only [List.mem_map, List.mem_filter, Bool.not_eq_true']
  constructor
  . rintro ⟨send, ⟨⟨hsend, hnew⟩, hsent⟩, rfl⟩
    exact ⟨hnew, send, hsend, hsent, rfl⟩
  . rintro ⟨hnew, send, hsend, hsent, rfl⟩
    exact ⟨send, ⟨⟨hsend, hnew⟩, hsent⟩, rfl⟩

theorem recorded_sendBatch {pair : Pair} {ev : Evaluation} {next : NextEvent}
    {table : List SentReminder} {batch : List Send} {key : Key}
    : recorded (sendBatch pair ev next table batch).1 key = true ↔
        recorded table key = true ∨
          (key ∈ (sendBatch pair ev next table batch).2 ∧ ev.createdAt.isSome = true) := by
  unfold sendBatch
  dsimp only
  cases ev.createdAt with
  | none => simp
  | some createdAt =>
    dsimp only
    rw [recorded_markAll, Option.isSome_some, and_iff_left rfl]

theorem mem_evaluatePair {sched : Sched} {pair : Pair} {table : List SentReminder} {ev : Evaluation}
    {key : Key}
    : key ∈ (evaluatePair sched pair table ev).2 ↔
        ∃ next, findNextEvent sched ev.now = some next ∧ recorded table key = false ∧
          ∃ send ∈ checkerToSend next ev.users,
            sent next.type send (ev.outcome send) = true ∧ send.key next = key := by
  unfold evaluatePair
  cases hnext : findNextEvent sched ev.now with
  | none => simp
  | some next =>
    simp only [Option.some.injEq, exists_eq_left']
    split
    . next hempty =>
      rw [List.isEmpty_iff] at hempty
      simp [hempty]
    . exact mem_sendBatch

theorem recorded_evaluatePair {sched : Sched} {pair : Pair} {table : List SentReminder}
    {ev : Evaluation} {key : Key}
    : recorded (evaluatePair sched pair table ev).1 key = true ↔
        recorded table key = true ∨
          (key ∈ (evaluatePair sched pair table ev).2 ∧ ev.createdAt.isSome = true) := by
  unfold evaluatePair
  cases findNextEvent sched ev.now with
  | none => simp
  | some next =>
    dsimp only
    split
    . simp
    . exact recorded_sendBatch

def InWindow (a : Int) (m : Remind) (now : Int) : Prop :=
  a - (m.minutes + 2) * minuteUs < now ∧ now ≤ a - (m.minutes - 1) * minuteUs

instance (a : Int) (m : Remind) (now : Int) : Decidable (InWindow a m now) :=
  inferInstanceAs (Decidable (_ ∧ _))

def Key.isFor (tid : TelegramId) (m : Remind) (a : Int) (key : Key) : Bool :=
  key.telegramId = tid ∧ key.reminderType = m ∧ key.periodKey.instant = a

/--
The user has the reminder and the type of the next event enabled, and what is sent to the user arrives and
is recorded.
-/
structure Served (sched : Sched) (tid : TelegramId) (m : Remind) (ev : Evaluation) : Prop where
  wants : ∀ next, findNextEvent sched ev.now = some next →
    ∃ user ∈ ev.users, user.telegramId = tid ∧ wants next.type m user = true
  sent : ∀ next, findNextEvent sched ev.now = some next →
    ∀ user ∈ ev.users, user.telegramId = tid →
      sent next.type { user := user, remind := m } (ev.outcome { user := user, remind := m }) = true
  committed : ev.createdAt.isSome = true

variable {sched : Sched} {pair : Pair} {tid : TelegramId} {m : Remind}

theorem evaluatePair_outside {table : List SentReminder} {ev : Evaluation} {a : Int} {key : Key}
    (hkey : key ∈ (evaluatePair sched pair table ev).2) (hfor : key.isFor tid m a = true)
    : InWindow a m ev.now := by
  rcases mem_evaluatePair.mp hkey with ⟨next, hnext, _, send, hsend, _, rfl⟩
  have hwindow := (mem_checkerToSend.mp hsend).2.2
  rcases of_decide_eq_true hfor with ⟨_, rfl, rfl⟩
  rw [minutes_findNextEvent hnext, inWindow_iff] at hwindow
  exact hwindow

theorem evaluatePair_inside {table : List SentReminder} {ev : Evaluation} {time : IsoTime}
    (hserved : Served sched tid m ev) (hwindow : InWindow time.instant m ev.now)
    (htime : ∃ next, findNextEvent sched ev.now = some next ∧ next.time = time)
    : let key : Key := { telegramId := tid, periodKey := time, reminderType := m }
      recorded (evaluatePair sched pair table ev).1 key = true ∧
        (key ∈ (evaluatePair sched pair table ev).2 ↔ recorded table key = false) := by
  intro key
  have hiff : key ∈ (evaluatePair sched pair table ev).2 ↔ recorded table key = false := by
    rw [mem_evaluatePair]
    constructor
    . rintro ⟨_, _, hnew, _⟩
      exact hnew
    . intro hnew
      rcases htime with ⟨next, hnext, rfl⟩
      rcases hserved.wants next hnext with ⟨user, huser, rfl, hwants⟩
      refine ⟨next, hnext, hnew, { user := user, remind := m }, ?_, ?_, rfl⟩
      . rw [mem_checkerToSend]
        refine ⟨huser, hwants, ?_⟩
        rw [minutes_findNextEvent hnext, inWindow_iff]
        exact hwindow
      . exact hserved.sent next hnext user huser rfl
  refine ⟨?_, hiff⟩
  rw [recorded_evaluatePair]
  cases hrecorded : recorded table key with
  | true => exact .inl rfl
  | false => exact .inr ⟨hiff.mpr hrecorded, hserved.committed⟩

theorem exists_time {a : Int}
    (hanchor : ∀ now, InWindow a m now →
      ∃ next, findNextEvent sched now = some next ∧ next.time.instant = a)
    : ∃ time : IsoTime, time.instant = a ∧ ∀ now, InWindow a m now →
        ∃ next, findNextEvent sched now = some next ∧ next.time = time := by
  have hm : 15 ≤ m.minutes := by cases m <;> decide
  have hfirst : InWindow a m (a - (m.minutes + 2) * minuteUs + 1) := by
    unfold InWindow minuteUs
    omega
  rcases hanchor _ hfirst with ⟨first, hnext, htime⟩
  refine ⟨first.time, htime, ?_⟩
  intro now hnow
  have hlt : now < first.time.instant := by
    rw [htime]
    unfold InWindow minuteUs at hnow
    omega
  rcases findNextEvent_stable hnext hnow.1 hlt with ⟨next, hstable, _, heq⟩
  exact ⟨next, hstable, heq⟩

theorem exists_inWindow {a : Int} {first : Evaluation} {rest : List Evaluation}
    (hgaps : (first :: rest).IsChain fun ev ev' => ev'.now ≤ ev.now + 3 * minuteUs)
    (hbefore : first.now ≤ a - (m.minutes + 2) * minuteUs)
    (hafter : a - (m.minutes - 1) * minuteUs < ((first :: rest).getLast (List.cons_ne_nil _ _)).now)
    : ∃ ev ∈ first :: rest, InWindow a m ev.now := by
  induction rest generalizing first with
  | nil =>
    rw [List.getLast_singleton] at hafter
    unfold minuteUs at hbefore hafter
    omega
  | cons ev rest ih =>
    rw [List.isChain_cons_cons] at hgaps
    rw [List.getLast_cons (List.cons_ne_nil _ _)] at hafter
    by_cases hev : ev.now ≤ a - (m.minutes + 2) * minuteUs
    . rcases ih hgaps.2 hev hafter with ⟨ev', hev', hwindow⟩
      exact ⟨ev', List.mem_cons_of_mem _ hev', hwindow⟩
    . refine ⟨ev, List.mem_cons_of_mem _ List.mem_cons_self, ?_⟩
      have hgap := hgaps.1
      unfold InWindow
      unfold minuteUs at hbefore hgap hev ⊢
      omega

theorem any_isFor_inside {table : List SentReminder} {ev : Evaluation} {time : IsoTime}
    (hserved : Served sched tid m ev) (hwindow : InWindow time.instant m ev.now)
    (htime : ∃ next, findNextEvent sched ev.now = some next ∧ next.time = time)
    : (evaluatePair sched pair table ev).2.any (Key.isFor tid m time.instant) =
        !recorded table { telegramId := tid, periodKey := time, reminderType := m } := by
  have hkey : { telegramId := tid, periodKey := time, reminderType := m } ∈
      (evaluatePair sched pair table ev).2 ↔
        recorded table { telegramId := tid, periodKey := time, reminderType := m } = false :=
    (evaluatePair_inside hserved hwindow htime).2
  rw [Bool.eq_iff_iff, List.any_eq_true, Bool.not_eq_true', ← hkey]
  constructor
  . rintro ⟨key, hmem, hfor⟩
    rcases mem_evaluatePair.mp hmem with ⟨next, hnext, _, send, _, _, rfl⟩
    rcases htime with ⟨next', hnext', rfl⟩
    rw [hnext] at hnext'
    cases hnext'
    rcases of_decide_eq_true hfor with ⟨rfl, rfl, _⟩
    exact hmem
  . intro hmem
    exact ⟨_, hmem, decide_eq_true ⟨rfl, rfl, rfl⟩⟩

theorem any_isFor_outside {table : List SentReminder} {ev : Evaluation} {a : Int}
    (hwindow : ¬ InWindow a m ev.now)
    : (evaluatePair sched pair table ev).2.any (Key.isFor tid m a) = false := by
  rw [List.any_eq_false]
  intro key hmem hfor
  exact hwindow (evaluatePair_outside hmem hfor)

theorem recorded_outside {table : List SentReminder} {ev : Evaluation} {time : IsoTime}
    (hwindow : ¬ InWindow time.instant m ev.now)
    : let key : Key := { telegramId := tid, periodKey := time, reminderType := m }
      recorded (evaluatePair sched pair table ev).1 key = true ↔ recorded table key = true := by
  intro key
  rw [recorded_evaluatePair]
  apply or_iff_left
  rintro ⟨hmem, _⟩
  exact hwindow (evaluatePair_outside hmem (decide_eq_true ⟨rfl, rfl, rfl⟩))

theorem countP_sendsOf {table : List SentReminder} {evs : List Evaluation} {time : IsoTime}
    (hserved : ∀ ev ∈ evs, InWindow time.instant m ev.now → Served sched tid m ev)
    (htime : ∀ now, InWindow time.instant m now →
      ∃ next, findNextEvent sched now = some next ∧ next.time = time)
    : (sendsOf sched pair table evs).countP (fun keys => keys.any (Key.isFor tid m time.instant)) =
        if recorded table { telegramId := tid, periodKey := time, reminderType := m } = true then 0
        else if ∃ ev ∈ evs, InWindow time.instant m ev.now then 1
        else 0 := by
  induction evs generalizing table with
  | nil => simp [sendsOf]
  | cons ev evs ih =>
    have hserved' : ∀ ev' ∈ evs, InWindow time.instant m ev'.now → Served sched tid m ev' :=
      fun ev' hev' => hserved ev' (List.mem_cons_of_mem _ hev')
    unfold sendsOf
    dsimp only
    rw [List.countP_cons, ih hserved']
    by_cases hwindow : InWindow time.instant m ev.now
    . have hev := hserved ev List.mem_cons_self hwindow
      have hexists : ∃ ev' ∈ ev :: evs, InWindow time.instant m ev'.now :=
        ⟨ev, List.mem_cons_self, hwindow⟩
      rw [any_isFor_inside hev hwindow (htime _ hwindow),
        if_pos (evaluatePair_inside hev hwindow (htime _ hwindow)).1, if_pos hexists]
      cases recorded table { telegramId := tid, periodKey := time, reminderType := m } with
      | true => rfl
      | false => rfl
    . have hexists : (∃ ev' ∈ ev :: evs, InWindow time.instant m ev'.now) ↔
          ∃ ev' ∈ evs, InWindow time.instant m ev'.now := by
        rw [List.exists_mem_cons_iff]
        exact or_iff_right hwindow
      simp only [any_isFor_outside hwindow, recorded_outside hwindow, hexists]
      rfl

/--
A reminder that is due is sent in exactly one evaluation, if one comes before its window and one after it,
and the gaps between them are at most three minutes.
-/
theorem sent_in_one_evaluation {a : Int} {table : List SentReminder} {first : Evaluation}
    {rest : List Evaluation}
    (hanchor : ∀ now, InWindow a m now →
      ∃ next, findNextEvent sched now = some next ∧ next.time.instant = a)
    (hgaps : (first :: rest).IsChain fun ev ev' => ev'.now ≤ ev.now + 3 * minuteUs)
    (hbefore : first.now ≤ a - (m.minutes + 2) * minuteUs)
    (hafter : a - (m.minutes - 1) * minuteUs < ((first :: rest).getLast (List.cons_ne_nil _ _)).now)
    (hserved : ∀ ev ∈ first :: rest, InWindow a m ev.now → Served sched tid m ev)
    (hnew : ∀ row ∈ table, row.key.isFor tid m a = false)
    : (sendsOf sched pair table (first :: rest)).countP (fun keys => keys.any (Key.isFor tid m a)) =
        1 := by
  rcases exists_time hanchor with ⟨time, rfl, htime⟩
  have hunrecorded : ¬ recorded table
      { telegramId := tid, periodKey := time, reminderType := m } = true := by
    rw [recorded_iff]
    rintro ⟨row, hrow, hkey⟩
    have hfor := hnew row hrow
    rw [hkey] at hfor
    exact of_decide_eq_false hfor ⟨rfl, rfl, rfl⟩
  rw [countP_sendsOf hserved htime, if_neg hunrecorded, if_pos]
  exact exists_inWindow hgaps hbefore hafter

def noonEvent : ScheduleEvent where
  start := ⟨1, 24, 7200⟩
  endAt := ⟨1, 28, 7200⟩
  isPossible := false

def noonOutage : Sched where
  hasData := true
  events := [noonEvent]
  queue := "1.1"
  dtekUpdatedAt := none

def defaultUser : User where
  telegramId := "777"
  region := "kyiv"
  queue := "1.1"
  notificationSettings := some {}
  channelConfig := none

def evaluationAt (minute : Int) : Evaluation where
  now := (86400 - 7200) * 1000000 + minute * minuteUs
  users := [defaultUser]
  outcome _ := { bot := some 1, channel := none }
  createdAt := some 1

theorem sent_in_one_evaluation_noonOutage
    : (sendsOf noonOutage ("kyiv", "1.1") []
          [evaluationAt 702, evaluationAt 705, evaluationAt 708]).countP
        (fun keys => keys.any (Key.isFor "777" .m15 noonEvent.start.instant)) = 1 := by
  have hahead (now : Int) (h : InWindow noonEvent.start.instant .m15 now)
      : now < noonEvent.start.instant := by
    unfold InWindow at h
    simp only [Remind.minutes, minuteUs] at h
    omega
  apply sent_in_one_evaluation
  . intro now hnow
    rcases nextOf_ahead [] (hahead now hnow) with ⟨next, hnext, _, htime⟩
    exact ⟨next, hnext, congrArg IsoTime.instant htime⟩
  . decide
  . decide
  . decide
  . intro ev hev hwindow
    simp only [List.mem_cons, List.not_mem_nil, or_false] at hev
    rcases hev with rfl | rfl | rfl
    all_goals
      refine ⟨?_, ?_, rfl⟩
      . intro next hnext
        refine ⟨defaultUser, List.mem_singleton_self _, rfl, ?_⟩
        cases next.type <;> rfl
      . intro next hnext user huser _
        rw [List.mem_singleton.mp huser]
        rfl
  . nofun

end Scheduler.Reminders
