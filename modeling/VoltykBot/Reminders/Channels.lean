import VoltykBot.Reminders.Checker
import VoltykBot.Schedule.Store

/-!
This module contains what the blasts, the ticks and the catch-up send to the channels of two users who have
the same channel settings and any settings of their bot chats.
-/

namespace Scheduler.Reminders

/-! ## `_send_schedule_notification` -/

def notifySchedule (user : User) (isDailyPlanned : Bool) : Bool :=
  match user.notificationSettings with
  | none => true
  | some ns => if isDailyPlanned then ns.notifyDailySchedule0600 else ns.notifyScheduleChanges

def scheduleToBot (user : User) : Bool :=
  match user.notificationSettings with
  | none => true
  | some ns => ns.notifyScheduleTarget ≠ "channel"

def scheduleToChannel (user : User) (isDailyPlanned : Bool) : Option String :=
  match user.channelConfig with
  | none => none
  | some cc =>
    if isDailyPlanned && cc.chNotifyDailySchedule0600 || !isDailyPlanned && cc.chNotifySchedule then
      cc.activeChannel
    else
      none

/--
A message of a blast, to the bot chat if there is no channel. Its text and picture are made of the region
and queue of the user and of what is announced.
-/
structure ScheduleMessage where
  channel : Option String
  region : String
  queue : String
  blast : Blast
  deriving DecidableEq

def scheduleMessage (user : User) (blast : Blast) (channel : Option String) : ScheduleMessage where
  channel := channel
  region := user.region
  queue := user.queue
  blast := blast

def sendScheduleNotification (freshUser : Option User) (blast : Blast) : List ScheduleMessage :=
  match freshUser with
  | none => []
  | some user =>
    if notifySchedule user blast.isDailyPlanned then
      (if scheduleToBot user then [scheduleMessage user blast none] else []) ++
        match scheduleToChannel user blast.isDailyPlanned with
        | none => []
        | some channel => [scheduleMessage user blast (some channel)]
    else
      []

def channelPosts (messages : List ScheduleMessage) : List ScheduleMessage :=
  messages.filter (·.channel.isSome)

structure ReminderText where
  pair : Pair
  sched : Sched
  next : NextEvent
  remind : Remind
  deriving DecidableEq

structure ReminderMessage where
  telegramId : TelegramId
  channel : Option String
  text : ReminderText
  deriving DecidableEq

def sendReminder (pair : Pair) (sched : Sched) (next : NextEvent) (send : Send)
    : List ReminderMessage :=
  let message := fun channel => {
    telegramId := send.user.telegramId
    channel := channel
    text := { pair := pair, sched := sched, next := next, remind := send.remind } }
  match send.user.notificationSettings with
  | none => []
  | some _ =>
    (if sendToBot send.user then [message none] else []) ++
      match sendToChannel next.type send.remind send.user with
      | none => []
      | some channel => [message (some channel)]

def batchMessages (pair : Pair) (sched : Sched) (next : NextEvent) (table : List SentReminder)
    (batch : List Send) : List ReminderMessage :=
  (batch.filter fun send => !recorded table (send.key next)).flatMap (sendReminder pair sched next)

def checkerMessages (sched : Sched) (pair : Pair) (table : List SentReminder) (ev : Evaluation)
    : List ReminderMessage :=
  match findNextEvent sched ev.now with
  | none => []
  | some next => batchMessages pair sched next table (checkerToSend next ev.users)

def batchesMessages (sched : Sched) (pair : Pair) (ev : Evaluation) (next : NextEvent)
    (table : List SentReminder) (batches : List (List Send)) : List ReminderMessage :=
  match batches with
  | [] => []
  | batch :: batches =>
    batchMessages pair sched next table batch ++
      batchesMessages sched pair ev next (sendBatch pair ev next table batch).1 batches

def catchUpMessages (sched : Sched) (pair : Pair) (table : List SentReminder) (ev : Evaluation)
    : List ReminderMessage :=
  match findNextEvent sched ev.now with
  | none => []
  | some next => batchesMessages sched pair ev next table (catchUpBatches next ev.users)

def channelReminders (tid : TelegramId) (messages : List ReminderMessage)
    : List (String × ReminderText) :=
  messages.filterMap fun message =>
    if message.telegramId = tid then message.channel.map (·, message.text) else none

structure SameChannel (user user' : User) : Prop where
  region : user.region = user'.region
  queue : user.queue = user'.queue
  channelConfig : user.channelConfig = user'.channelConfig

theorem channelPosts_sendScheduleNotification (user : User) (blast : Blast)
    : channelPosts (sendScheduleNotification (some user) blast) =
        if notifySchedule user blast.isDailyPlanned = true then
          ((scheduleToChannel user blast.isDailyPlanned).map fun channel =>
            scheduleMessage user blast (some channel)).toList
        else [] := by
  unfold sendScheduleNotification channelPosts
  dsimp only
  split
  . have hbot : (if scheduleToBot user then [scheduleMessage user blast none] else []).filter
        (·.channel.isSome) = [] := by
      split <;> rfl
    rw [List.filter_append, hbot, List.nil_append]
    cases scheduleToChannel user blast.isDailyPlanned with
    | none => rfl
    | some channel => rfl
  . rfl

theorem posts_eq_iff {user user' : User} (hsame : SameChannel user user') (blast : Blast)
    : channelPosts (sendScheduleNotification (some user) blast) =
          channelPosts (sendScheduleNotification (some user') blast)
        ↔
      ((scheduleToChannel user blast.isDailyPlanned).isSome = true →
        notifySchedule user blast.isDailyPlanned = notifySchedule user' blast.isDailyPlanned) := by
  have hchannel : scheduleToChannel user' blast.isDailyPlanned =
      scheduleToChannel user blast.isDailyPlanned := by
    unfold scheduleToChannel
    rw [hsame.channelConfig]
  have hmessage (channel : Option String) : scheduleMessage user' blast channel =
      scheduleMessage user blast channel := by
    unfold scheduleMessage
    rw [hsame.region, hsame.queue]
  rw [channelPosts_sendScheduleNotification, channelPosts_sendScheduleNotification, hchannel]
  simp only [hmessage]
  cases scheduleToChannel user blast.isDailyPlanned with
  | none => simp
  | some channel =>
    cases notifySchedule user blast.isDailyPlanned with
    | true => cases notifySchedule user' blast.isDailyPlanned <;> simp
    | false => cases notifySchedule user' blast.isDailyPlanned <;> simp

def admitted (next : NextEvent) (table : List SentReminder) (user : User) (m : Remind) : Bool :=
  wants next.type m user && !recorded table (Send.key next { user := user, remind := m })

def reminderPost (pair : Pair) (sched : Sched) (next : NextEvent) (table : List SentReminder)
    (user : User) (m : Remind) : Option (String × ReminderText) :=
  if admitted next table user m then
    (sendToChannel next.type m user).map
      (·, { pair := pair, sched := sched, next := next, remind := m })
  else
    none

def wantedSends (next : NextEvent) (users : List User) (ms : List Remind) : List Send :=
  users.flatMap fun user =>
    (ms.filter fun m => wants next.type m user).map fun m => { user := user, remind := m }

theorem wants_of_not_collects {type : EventType} {m : Remind} {user : User}
    (h : collects user = false) : wants type m user = false := by
  cases hwants : wants type m user with
  | false => rfl
  | true =>
    rw [collects_of_wants hwants] at h
    cases h

theorem flatMap_filter_of_nil {α β : Type} {l : List α} {p : α → Bool} {g : α → List β}
    (h : ∀ a ∈ l, p a = false → g a = []) : (l.filter p).flatMap g = l.flatMap g := by
  induction l with
  | nil => rfl
  | cons a l ih =>
    have ih := ih fun b hb => h b (List.mem_cons_of_mem _ hb)
    rw [List.filter_cons, List.flatMap_cons]
    cases hp : p a with
    | true => rw [if_pos rfl, List.flatMap_cons, ih]
    | false => rw [if_neg Bool.false_ne_true, ih, h a List.mem_cons_self hp, List.nil_append]

theorem checkerToSend_eq (next : NextEvent) (users : List User)
    : checkerToSend next users =
        wantedSends next users (remindMinutes.filter (inWindow next.minutes)) := by
  unfold checkerToSend wantedSends
  simp only [List.filter_filter]
  apply flatMap_filter_of_nil
  intro user _ hcollects
  simp [wants_of_not_collects hcollects]

theorem catchUpToSend_eq (next : NextEvent) (users : List User) (m : Remind)
    : catchUpToSend next users m = wantedSends next users [m] := by
  have hcollects : (users.filter collects).filter (wants next.type m) =
      users.filter (wants next.type m) := by
    rw [List.filter_filter]
    apply List.filter_congr
    intro user _
    cases hwants : wants next.type m user with
    | true => rw [collects_of_wants hwants, Bool.and_self]
    | false => rw [Bool.false_and]
  unfold catchUpToSend wantedSends
  rw [hcollects]
  clear hcollects
  induction users with
  | nil => rfl
  | cons user users ih =>
    rw [List.filter_cons, List.flatMap_cons, List.filter_singleton, ← ih]
    cases wants next.type m user with
    | true => rfl
    | false => rfl

theorem flatMap_of_loadedOnce {β : Type} {users : List User} {user : User} {g : User → List β}
    (honce : users.filter (·.telegramId = user.telegramId) = [user])
    (hothers : ∀ v ∈ users, v.telegramId ≠ user.telegramId → g v = []) : users.flatMap g = g user := by
  have hfilter : (users.filter (·.telegramId = user.telegramId)).flatMap g = users.flatMap g := by
    apply flatMap_filter_of_nil
    intro v hv hne
    exact hothers v hv (of_decide_eq_false hne)
  rw [← hfilter, honce, List.flatMap_singleton]

theorem channelReminders_append (tid : TelegramId) (messages messages' : List ReminderMessage)
    : channelReminders tid (messages ++ messages') =
        channelReminders tid messages ++ channelReminders tid messages' := by
  unfold channelReminders
  rw [List.filterMap_append]

theorem channelReminders_sendReminder {pair : Pair} {sched : Sched} {next : NextEvent} {send : Send}
    (hwants : wants next.type send.remind send.user = true)
    : channelReminders send.user.telegramId (sendReminder pair sched next send) =
        ((sendToChannel next.type send.remind send.user).map fun channel =>
          (channel, { pair := pair, sched := sched, next := next, remind := send.remind
            : ReminderText })).toList := by
  unfold wants at hwants
  unfold sendReminder
  dsimp only
  split
  . next hnone =>
    rw [hnone] at hwants
    cases hwants
  . rw [channelReminders_append]
    have hbot (text : ReminderText) : channelReminders send.user.telegramId
        (if sendToBot send.user then
          [{ telegramId := send.user.telegramId, channel := none, text := text }] else []) = [] := by
      unfold channelReminders
      split <;> simp
    rw [hbot, List.nil_append]
    cases sendToChannel next.type send.remind send.user with
    | none => rfl
    | some channel => simp [channelReminders]

theorem channelReminders_others {pair : Pair} {sched : Sched} {next : NextEvent} {send : Send}
    {tid : TelegramId} (hne : send.user.telegramId ≠ tid)
    : channelReminders tid (sendReminder pair sched next send) = [] := by
  have hids : ∀ message ∈ sendReminder pair sched next send,
      message.telegramId = send.user.telegramId := by
    intro message hmessage
    unfold sendReminder at hmessage
    dsimp only at hmessage
    split at hmessage
    . cases hmessage
    . rw [List.mem_append] at hmessage
      cases hmessage with
      | inl hbot =>
        split at hbot
        . rw [List.mem_singleton.mp hbot]
        . cases hbot
      | inr hchannel =>
        split at hchannel
        . cases hchannel
        . rw [List.mem_singleton.mp hchannel]
  unfold channelReminders
  rw [List.filterMap_eq_nil_iff]
  intro message hmessage
  rw [if_neg]
  rw [hids message hmessage]
  exact hne

theorem channelReminders_userSends (pair : Pair) (sched : Sched) (next : NextEvent)
    (table : List SentReminder) (user : User) (ms : List Remind)
    : channelReminders user.telegramId (batchMessages pair sched next table
          ((ms.filter fun m => wants next.type m user).map fun m => { user := user, remind := m })) =
        ms.filterMap (reminderPost pair sched next table user) := by
  induction ms with
  | nil => rfl
  | cons m ms ih =>
    rw [List.filter_cons, List.filterMap_cons, ← ih]
    unfold reminderPost admitted
    cases hwants : wants next.type m user with
    | false => simp
    | true =>
      rw [if_pos rfl, List.map_cons, Bool.true_and]
      unfold batchMessages
      rw [List.filter_cons]
      cases hrecorded : recorded table (Send.key next { user := user, remind := m }) with
      | true => simp
      | false =>
        rw [Bool.not_false, if_pos rfl, if_pos rfl, List.flatMap_cons, channelReminders_append]
        have hsend : wants next.type (Send.remind { user := user, remind := m })
            (Send.user { user := user, remind := m }) = true := hwants
        rw [channelReminders_sendReminder hsend]
        cases sendToChannel next.type m user with
        | none => rfl
        | some channel => rfl

theorem channelReminders_batch (pair : Pair) (sched : Sched) (next : NextEvent)
    (table : List SentReminder) {users : List User} {user : User}
    (honce : users.filter (·.telegramId = user.telegramId) = [user]) (ms : List Remind)
    : channelReminders user.telegramId
          (batchMessages pair sched next table (wantedSends next users ms)) =
        ms.filterMap (reminderPost pair sched next table user) := by
  rw [← channelReminders_userSends]
  unfold batchMessages wantedSends channelReminders
  rw [List.filter_flatMap, List.flatMap_assoc, List.filterMap_flatMap]
  apply flatMap_of_loadedOnce honce
  intro v _ hne
  rw [List.filterMap_flatMap, List.flatMap_eq_nil_iff]
  intro send hsend
  apply channelReminders_others
  rw [List.mem_filter, List.mem_map] at hsend
  rcases hsend.1 with ⟨m, _, rfl⟩
  exact hne

theorem reminderPost_sendBatch {pair : Pair} {sched : Sched} {ev : Evaluation} {next : NextEvent}
    {table : List SentReminder} {users : List User} {user : User} {m m' : Remind} (hne : m' ≠ m)
    : reminderPost pair sched next
          (sendBatch pair ev next table (catchUpToSend next users m)).1 user m' =
        reminderPost pair sched next table user m' := by
  have hrecorded : recorded (sendBatch pair ev next table (catchUpToSend next users m)).1
      (Send.key next { user := user, remind := m' }) =
        recorded table (Send.key next { user := user, remind := m' }) := by
    rw [Bool.eq_iff_iff, recorded_sendBatch]
    apply or_iff_left
    rintro ⟨hkey, _⟩
    rcases mem_sendBatch.mp hkey with ⟨_, send, hsend, _, heq⟩
    unfold catchUpToSend at hsend
    rcases List.mem_map.mp hsend with ⟨_, _, rfl⟩
    exact hne (congrArg Key.reminderType heq).symm
  unfold reminderPost admitted
  rw [hrecorded]

theorem batchesMessages_nonempty (sched : Sched) (pair : Pair) (ev : Evaluation) (next : NextEvent)
    (table : List SentReminder) (batches : List (List Send))
    : batchesMessages sched pair ev next table (batches.filter (· ≠ [])) =
        batchesMessages sched pair ev next table batches := by
  induction batches generalizing table with
  | nil => rfl
  | cons batch batches ih =>
    rw [List.filter_cons]
    split
    . unfold batchesMessages
      rw [ih]
    . next hempty =>
      simp only [ne_eq, decide_not, Bool.not_eq_true', decide_eq_false_iff_not, not_not] at hempty
      have htable : (sendBatch pair ev next table []).1 = table := by
        unfold sendBatch
        cases ev.createdAt <;> rfl
      rw [hempty, ih]
      conv_rhs => unfold batchesMessages
      rw [htable]
      rfl

theorem channelReminders_batches (sched : Sched) (pair : Pair) (ev : Evaluation) (next : NextEvent)
    (table : List SentReminder) {users : List User} {user : User}
    (honce : users.filter (·.telegramId = user.telegramId) = [user]) {ms : List Remind}
    (hnodup : ms.Nodup)
    : channelReminders user.telegramId
          (batchesMessages sched pair ev next table (ms.map (catchUpToSend next users))) =
        ms.filterMap (reminderPost pair sched next table user) := by
  induction ms generalizing table with
  | nil => rfl
  | cons m ms ih =>
    rw [List.nodup_cons] at hnodup
    rw [List.map_cons]
    unfold batchesMessages
    rw [channelReminders_append, ih _ hnodup.2]
    have hfirst : channelReminders user.telegramId
        (batchMessages pair sched next table (catchUpToSend next users m)) =
          [m].filterMap (reminderPost pair sched next table user) := by
      rw [catchUpToSend_eq]
      exact channelReminders_batch pair sched next table honce [m]
    have hrest : ms.filterMap (reminderPost pair sched next
        (sendBatch pair ev next table (catchUpToSend next users m)).1 user) =
          ms.filterMap (reminderPost pair sched next table user) := by
      apply List.filterMap_congr
      intro m' hm'
      apply reminderPost_sendBatch
      rintro rfl
      exact hnodup.1 hm'
    rw [hfirst, hrest, ← List.filterMap_append, List.singleton_append]

def catchUpDue (minutes : Int) (m : Remind) : Bool :=
  0 < minutes ∧ minutes ≤ Remind.minutes .h1 + 1 ∧ minutes ≤ m.minutes + 1

section

variable {sched : Sched} {pair : Pair} {table : List SentReminder} {ev : Evaluation} {next : NextEvent}
variable {user user' : User}

theorem channelReminders_checkerMessages
    (honce : ev.users.filter (·.telegramId = user.telegramId) = [user])
    (hnext : findNextEvent sched ev.now = some next)
    : channelReminders user.telegramId (checkerMessages sched pair table ev) =
        (remindMinutes.filter (inWindow next.minutes)).filterMap
          (reminderPost pair sched next table user) := by
  unfold checkerMessages
  rw [hnext]
  dsimp only
  rw [checkerToSend_eq, channelReminders_batch pair sched next table honce]

theorem channelReminders_catchUpMessages
    (honce : ev.users.filter (·.telegramId = user.telegramId) = [user])
    (hnext : findNextEvent sched ev.now = some next)
    : channelReminders user.telegramId (catchUpMessages sched pair table ev) =
        (remindMinutes.filter (catchUpDue next.minutes)).filterMap
          (reminderPost pair sched next table user) := by
  unfold catchUpMessages catchUpBatches
  rw [hnext]
  dsimp only
  split
  . next hfar =>
    have hnone : remindMinutes.filter (catchUpDue next.minutes) = [] := by
      rw [List.filter_eq_nil_iff]
      intro m _ hdue
      have hdue := of_decide_eq_true hdue
      omega
    rw [hnone]
    rfl
  . next hnear =>
    have hdue : remindMinutes.filter (catchUpDue next.minutes) =
        remindMinutes.filter fun m => next.minutes ≤ m.minutes + 1 := by
      apply List.filter_congr
      intro m _
      apply decide_eq_decide.mpr
      omega
    rw [batchesMessages_nonempty, channelReminders_batches sched pair ev next table honce, hdue]
    exact List.Nodup.filter _ (by decide)

theorem filterMap_guard_eq_iff {α β : Type} {l : List α} {p q : α → Bool} {f : α → Option β}
    (hinj : ∀ {a a' b}, f a = some b → f a' = some b → a = a')
    : (l.filterMap fun a => if p a then f a else none) =
          (l.filterMap fun a => if q a then f a else none)
        ↔
      ∀ a ∈ l, (f a).isSome = true → p a = q a := by
  have hmem (r : α → Bool) {a : α} (ha : a ∈ l) {b : β} (hb : f a = some b)
      : b ∈ (l.filterMap fun a => if r a then f a else none) ↔ r a = true := by
    rw [List.mem_filterMap]
    constructor
    . rintro ⟨a', _, hb'⟩
      split at hb'
      . next hr => rw [hinj hb hb', hr]
      . cases hb'
    . intro hr
      exact ⟨a, ha, (if_pos hr).trans hb⟩
  constructor
  . intro heq a ha hsome
    rcases Option.isSome_iff_exists.mp hsome with ⟨b, hb⟩
    rw [Bool.eq_iff_iff, ← hmem p ha hb, ← hmem q ha hb, heq]
  . intro h
    apply List.filterMap_congr
    intro a ha
    cases hfa : f a with
    | none => simp
    | some b => rw [h a ha (hfa ▸ rfl)]

/--
Each reminder that is due and that the channel settings admit is admitted for both users or for neither.
-/
def AdmittedAlike (next : NextEvent) (table : List SentReminder) (user user' : User)
    (due : Int → Remind → Bool) : Prop :=
  ∀ m, due next.minutes m = true → (sendToChannel next.type m user).isSome = true →
    admitted next table user m = admitted next table user' m

theorem reminderPosts_eq_iff (hsame : SameChannel user user') (due : Int → Remind → Bool)
    : (remindMinutes.filter (due next.minutes)).filterMap (reminderPost pair sched next table user) =
          (remindMinutes.filter (due next.minutes)).filterMap
            (reminderPost pair sched next table user')
        ↔
      AdmittedAlike next table user user' due := by
  have hchannel (m : Remind) : sendToChannel next.type m user' = sendToChannel next.type m user := by
    unfold sendToChannel
    rw [hsame.channelConfig]
  have hall (m : Remind) : m ∈ remindMinutes := by cases m <;> decide
  unfold reminderPost AdmittedAlike
  simp only [hchannel]
  rw [filterMap_guard_eq_iff]
  . simp only [List.mem_filter, hall, true_and, Option.isSome_map]
  . intro m m' post hpost hpost'
    rcases Option.map_eq_some_iff.mp hpost with ⟨_, _, rfl⟩
    rcases Option.map_eq_some_iff.mp hpost' with ⟨_, _, heq⟩
    exact (congrArg ReminderText.remind (Prod.mk.inj heq).2).symm

theorem checkerReminders_eq_iff (hsame : SameChannel user user')
    (honce : ev.users.filter (·.telegramId = user.telegramId) = [user])
    (honce' : ev.users.filter (·.telegramId = user'.telegramId) = [user'])
    : channelReminders user.telegramId (checkerMessages sched pair table ev) =
          channelReminders user'.telegramId (checkerMessages sched pair table ev)
        ↔
      ∀ next, findNextEvent sched ev.now = some next →
        AdmittedAlike next table user user' inWindow := by
  cases hnext : findNextEvent sched ev.now with
  | none =>
    unfold checkerMessages
    rw [hnext]
    apply iff_of_true
    . rfl
    . intro next hsome
      cases hsome
  | some next =>
    rw [channelReminders_checkerMessages honce hnext, channelReminders_checkerMessages honce' hnext,
      reminderPosts_eq_iff hsame]
    simp only [Option.some.injEq, forall_eq']

theorem catchUpReminders_eq_iff (hsame : SameChannel user user')
    (honce : ev.users.filter (·.telegramId = user.telegramId) = [user])
    (honce' : ev.users.filter (·.telegramId = user'.telegramId) = [user'])
    : channelReminders user.telegramId (catchUpMessages sched pair table ev) =
          channelReminders user'.telegramId (catchUpMessages sched pair table ev)
        ↔
      ∀ next, findNextEvent sched ev.now = some next →
        AdmittedAlike next table user user' catchUpDue := by
  cases hnext : findNextEvent sched ev.now with
  | none =>
    unfold catchUpMessages
    rw [hnext]
    apply iff_of_true
    . rfl
    . intro next hsome
      cases hsome
  | some next =>
    rw [channelReminders_catchUpMessages honce hnext, channelReminders_catchUpMessages honce' hnext,
      reminderPosts_eq_iff hsame]
    simp only [Option.some.injEq, forall_eq']

end

/--
Two users of one channel configuration get the same posts of a blast, of a tick and of the catch-up if and
only if the settings of their bot chats admit the messages alike that the channel settings admit.
-/
theorem channel_messages_eq_iff {user user' : User} (hsame : SameChannel user user')
    : (∀ blast,
          channelPosts (sendScheduleNotification (some user) blast) =
              channelPosts (sendScheduleNotification (some user') blast)
            ↔
          ((scheduleToChannel user blast.isDailyPlanned).isSome = true →
            notifySchedule user blast.isDailyPlanned = notifySchedule user' blast.isDailyPlanned)) ∧
        ∀ sched pair table ev,
          ev.users.filter (·.telegramId = user.telegramId) = [user] →
          ev.users.filter (·.telegramId = user'.telegramId) = [user'] →
          (channelReminders user.telegramId (checkerMessages sched pair table ev) =
              channelReminders user'.telegramId (checkerMessages sched pair table ev)
            ↔
          ∀ next, findNextEvent sched ev.now = some next →
            AdmittedAlike next table user user' inWindow) ∧
          (channelReminders user.telegramId (catchUpMessages sched pair table ev) =
              channelReminders user'.telegramId (catchUpMessages sched pair table ev)
            ↔
          ∀ next, findNextEvent sched ev.now = some next →
            AdmittedAlike next table user user' catchUpDue) := by
  constructor
  . intro blast
    exact posts_eq_iff hsame blast
  . intro sched pair table ev honce honce'
    constructor
    . exact checkerReminders_eq_iff hsame honce honce'
    . exact catchUpReminders_eq_iff hsame honce honce'

def channelUser (tid : TelegramId) (ns : NotificationSettings) : User where
  telegramId := tid
  region := "kyiv"
  queue := "1.1"
  notificationSettings := some ns
  channelConfig := some { channelId := some "-100" }

theorem sameChannel_channelUser (tid tid' : TelegramId) (ns ns' : NotificationSettings)
    : SameChannel (channelUser tid ns) (channelUser tid' ns') where
  region := rfl
  queue := rfl
  channelConfig := rfl

def mutedSettings : NotificationSettings where
  notifyScheduleChanges := false
  notifyRemindOff := false

def mutedEvaluation : Evaluation :=
  { evaluationAt 705 with users := [channelUser "1" {}, channelUser "2" mutedSettings] }

def noonChange : Blast where
  pair := ("kyiv", "1.1")
  sched := noonOutage
  updateType := { todayUpdated := true }
  changes := {}
  isDailyPlanned := false

theorem channel_messages_eq_iff_morning
    : channelPosts (sendScheduleNotification (some (channelUser "1" {}))
          { noonChange with isDailyPlanned := true }) =
        channelPosts (sendScheduleNotification (some (channelUser "2" mutedSettings))
          { noonChange with isDailyPlanned := true }) := by
  have hsame := sameChannel_channelUser "1" "2" {} mutedSettings
  apply ((channel_messages_eq_iff hsame).1 _).mpr
  intro _
  rfl

theorem not_channel_messages_eq_mutedSettings
    : SameChannel (channelUser "1" {}) (channelUser "2" mutedSettings) ∧
        channelPosts (sendScheduleNotification (some (channelUser "1" {})) noonChange) ≠
          channelPosts (sendScheduleNotification (some (channelUser "2" mutedSettings)) noonChange) ∧
        channelReminders "1" (checkerMessages noonOutage ("kyiv", "1.1") [] mutedEvaluation) ≠
          channelReminders "2" (checkerMessages noonOutage ("kyiv", "1.1") [] mutedEvaluation) ∧
        channelReminders "1" (catchUpMessages noonOutage ("kyiv", "1.1") [] mutedEvaluation) ≠
          channelReminders "2" (catchUpMessages noonOutage ("kyiv", "1.1") [] mutedEvaluation) := by
  refine ⟨sameChannel_channelUser "1" "2" {} mutedSettings, ?_, ?_, ?_⟩
  all_goals decide +kernel

end Scheduler.Reminders
