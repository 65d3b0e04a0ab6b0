import VoltykBot.Reminders.Routines

/-!
This module contains when the cleanup of a tick deletes the messages of past events only: it decides by the
latest anchor that is recorded for a user and deletes the messages that are stored when it gets to the user.
-/

namespace Scheduler.Reminders

/-! ## The latest anchor -/

theorem mem_markAll {pair : Pair} {createdAt : Key → Int} {keys : List Key} {table : List SentReminder}
    {row : SentReminder} (h : row ∈ markAll table pair createdAt keys)
    : row ∈ table ∨ row.key ∈ keys ∧ row.createdAt = createdAt row.key := by
  unfold markAll at h
  induction keys generalizing table with
  | nil => exact .inl h
  | cons key keys ih =>
    rw [List.foldl_cons] at h
    rcases ih h with hrow | ⟨hkey, hcreated⟩
    . unfold markReminderSent at hrow
      split at hrow
      . exact .inl hrow
      . rcases List.mem_append.mp hrow with hrow | hrow
        . exact .inl hrow
        . rw [List.mem_singleton.mp hrow]
          exact .inr ⟨List.mem_cons_self, rfl⟩
    . exact .inr ⟨List.mem_cons_of_mem key hkey, hcreated⟩

theorem filter_markAll {pair : Pair} {createdAt : Key → Int} {keys : List Key} {table : List SentReminder}
    {tid : TelegramId} (h : ∀ key ∈ keys, key.telegramId = tid → recorded table key = true)
    : (markAll table pair createdAt keys).filter (·.key.telegramId = tid) =
        table.filter (·.key.telegramId = tid) := by
  unfold markAll
  induction keys generalizing table with
  | nil => rfl
  | cons key keys ih =>
    rw [List.foldl_cons, ih]
    . unfold markReminderSent
      split
      . rfl
      . next hkey =>
        rw [List.filter_append, List.filter_cons_of_neg, List.filter_nil, List.append_nil]
        rw [decide_eq_true_eq]
        intro htid
        exact hkey (h key List.mem_cons_self htid)
    . intro key' hkey' htid
      rw [recorded_markReminderSent]
      exact .inl (h key' (List.mem_cons_of_mem key hkey') htid)

namespace Routines

def Leads (table : List SentReminder) (key : Key) : Prop :=
  recorded table key = false ∨ latestAnchor table key.telegramId = some key.periodKey

instance (table : List SentReminder) (key : Key) : Decidable (Leads table key) :=
  inferInstanceAs (Decidable (_ ∨ _))

theorem latestAnchor_markAll_others {table : List SentReminder} {pair : Pair} {createdAt : Key → Int}
    {keys : List Key} {tid : TelegramId} (h : ∀ key ∈ keys, key.telegramId ≠ tid)
    : latestAnchor (markAll table pair createdAt keys) tid = latestAnchor table tid := by
  unfold latestAnchor
  rw [filter_markAll]
  intro key hkey htid
  exact absurd htid (h key hkey)

theorem latestAnchor_markAll {table : List SentReminder} {pair : Pair} {createdAt : Key → Int}
    {keys : List Key} {clock : Int} (hstamps : ∀ row ∈ table, row.createdAt ≤ clock)
    (hlater : ∀ key ∈ keys, clock < createdAt key) (hleads : ∀ key ∈ keys, Leads table key) {key : Key}
    (hkey : key ∈ keys)
    (halike : ∀ key' ∈ keys, key'.telegramId = key.telegramId → key'.periodKey = key.periodKey)
    : latestAnchor (markAll table pair createdAt keys) key.telegramId = some key.periodKey := by
  by_cases hall : ∀ key' ∈ keys, key'.telegramId = key.telegramId → recorded table key' = true
  . unfold latestAnchor
    rw [filter_markAll hall]
    rcases hleads key hkey with hnew | hlatest
    . rw [hall key hkey rfl] at hnew
      cases hnew
    . exact hlatest
  . -- one of the keys gets a row, and the latest row is one of these rows
    rcases not_forall.mp hall with ⟨key', hkey'⟩
    rcases Classical.not_imp.mp hkey' with ⟨hmem, hrest⟩
    rcases Classical.not_imp.mp hrest with ⟨htid, hnew⟩
    have hrecorded : recorded (markAll table pair createdAt keys) key' = true :=
      recorded_markAll.mpr (.inr hmem)
    rcases recorded_iff.mp hrecorded with ⟨row, hrow, rfl⟩
    have hold : row ∉ table := by
      intro hmem
      exact hnew (recorded_iff.mpr ⟨row, hmem, rfl⟩)
    have hin : row ∈ (markAll table pair createdAt keys).filter (·.key.telegramId = key.telegramId) :=
      List.mem_filter.mpr ⟨hrow, decide_eq_true htid⟩
    have hcreated : clock < row.createdAt := by
      rcases mem_markAll hrow with hmem | ⟨_, heq⟩
      . exact absurd hmem hold
      . rw [heq]
        exact hlater row.key hmem
    unfold latestAnchor
    cases htop : Latest.latest SentReminder.createdAt
        ((markAll table pair createdAt keys).filter (·.key.telegramId = key.telegramId)) with
    | none =>
      rw [Latest.latest_eq_none_iff.mp htop] at hin
      cases hin
    | some top =>
      have hle := Latest.le_of_latest htop hin
      rcases List.mem_filter.mp (Latest.mem_of_latest htop) with ⟨hmark, htoptid⟩
      rcases mem_markAll hmark with htable | ⟨htop, _⟩
      . have := hstamps top htable
        omega
      . rw [Option.map_some, halike top.key htop (of_decide_eq_true htoptid)]

end Routines

/-! ## The invariant -/

def Tracking.messages (tracking : Tracking) : List Message :=
  tracking.lastReminder.toList ++ tracking.lastChannelReminder.toList

def Pc.underway (pc : Pc) : List Key :=
  match pc with
  | .sending _ toMark _ => toMark
  | .deleting work toMark send _ _ _ => toMark ++ [send.key work.next]
  | .awaiting work toMark send _ => toMark ++ [send.key work.next]
  | .storing work toMark send _ _ => toMark ++ [send.key work.next]
  | _ => []

def Pc.cleared (pc : Pc) : List Key :=
  match pc with
  | .deleting _ toMark _ _ _ _ => toMark
  | pc => pc.underway

def Pc.event (pc : Pc) : Option IsoTime :=
  match pc with
  | .sending work _ _ => some work.next.time
  | .deleting work _ _ _ _ _ => some work.next.time
  | .awaiting work _ _ _ => some work.next.time
  | .storing work _ _ _ _ => some work.next.time
  | _ => none

def Pc.listed (pc : Pc) : List (IsoTime × Int) :=
  match pc with
  | .cleaning now todo => todo.map (·.2, now)
  | .forgetting now _ _ _ todo => todo.map (·.2, now)
  | _ => []

theorem toMark_subset_cleared (pc : Pc) : pc.toMark ⊆ pc.cleared := by
  cases pc <;> simp [Pc.toMark, Pc.cleared, Pc.underway]

theorem cleared_subset_underway (pc : Pc) : pc.cleared ⊆ pc.underway := by
  cases pc <;> simp [Pc.cleared, Pc.underway]

namespace Routines

@[simp]
theorem underway_nextBatch (work : Work) : (nextBatch work).underway = [] := by
  unfold nextBatch
  split <;> rfl

@[simp]
theorem cleared_nextBatch (work : Work) : (nextBatch work).cleared = [] := by
  unfold nextBatch
  split <;> rfl

@[simp]
theorem listed_nextBatch (work : Work) : (nextBatch work).listed = [] := by
  unfold nextBatch
  split <;> rfl

@[simp]
theorem underway_proceed (work : Work) (toMark : List Key) (todo : List Send)
    : (proceed work toMark todo).underway = toMark := by
  unfold proceed
  split
  . exact underway_nextBatch work
  . rfl

@[simp]
theorem cleared_proceed (work : Work) (toMark : List Key) (todo : List Send)
    : (proceed work toMark todo).cleared = toMark := by
  unfold proceed
  split
  . exact cleared_nextBatch work
  . rfl

@[simp]
theorem listed_proceed (work : Work) (toMark : List Key) (todo : List Send)
    : (proceed work toMark todo).listed = [] := by
  unfold proceed
  split
  . exact listed_nextBatch work
  . rfl

theorem event_proceed {work : Work} {toMark : List Key} {key : Key} (h : key ∈ toMark)
    (todo : List Send) : (proceed work toMark todo).event = some work.next.time := by
  unfold proceed
  split
  . cases h
  . rfl

def stored (m : Routines) (tid : TelegramId) : List Message :=
  match m.tracking tid with
  | none => []
  | some tracking => tracking.messages

/--
A send of a reminder to a user can begin without harm: its anchor will be the latest one, and the other
routine is not about to send the user a reminder of another event.
-/
def MayBegin (m : Routines) (r : Routine) (key : Key) : Prop :=
  Leads m.table key ∧
    ∀ key' ∈ (m.pc r.other).underway, key'.telegramId = key.telegramId → key'.periodKey = key.periodKey

/--
The mark of a reminder can be lost without harm: the other routine will mark one for the user, or the event
of what is stored is recorded already.
-/
def MayLose (m : Routines) (r : Routine) (key : Key) : Prop :=
  (∀ key' ∈ (m.pc r.other).toMark, key'.telegramId ≠ key.telegramId) →
    ∀ msg ∈ m.stored key.telegramId, latestAnchor m.table key.telegramId = some msg.anchor

/--
A stored message announces the event that is recorded last for its user, or will be once the marks are
committed.
-/
structure Anchored (m : Routines) : Prop where
  stamps : ∀ row ∈ m.table, row.createdAt ≤ m.clock
  announced : ∀ tid, (∀ r, ∀ key ∈ (m.pc r).toMark, key.telegramId ≠ tid) →
    ∀ msg ∈ m.stored tid, latestAnchor m.table tid = some msg.anchor
  cleared : ∀ r, ∀ key ∈ (m.pc r).cleared, ∀ msg ∈ m.stored key.telegramId,
    msg.anchor = key.periodKey
  leads : ∀ r, ∀ key ∈ (m.pc r).underway, Leads m.table key
  event : ∀ r, ∀ key ∈ (m.pc r).underway, (m.pc r).event = some key.periodKey
  alike : ∀ r, ∀ key ∈ (m.pc r).underway, ∀ key' ∈ (m.pc r.other).underway,
    key'.telegramId = key.telegramId → key'.periodKey = key.periodKey
  listed : ∀ r, ∀ p ∈ (m.pc r).listed, p.1.instant < p.2
  cleaned : ∀ p ∈ m.cleaned, p.1.anchor.instant < p.2

theorem Anchored.init : Anchored {} where
  stamps := nofun
  announced _ _ := nofun
  cleared _ := nofun
  leads _ := nofun
  event _ := nofun
  alike _ := nofun
  listed _ := nofun
  cleaned := nofun

theorem Anchored.moved {m m' : Routines} (h : Anchored m) {r : Routine} {pc : Pc}
    (htable : m'.table = m.table) (hclock : m'.clock = m.clock)
    (hpc : m'.pc = Function.update m.pc r pc)
    (hstored : ∀ tid, ∀ msg ∈ m'.stored tid,
      msg ∈ m.stored tid ∨ ∃ key ∈ pc.toMark, key.telegramId = tid ∧ msg.anchor = key.periodKey)
    (hmarks : ∀ key ∈ (m.pc r).toMark, key ∈ pc.toMark ∨ MayLose m r key)
    (hcleared : ∀ key ∈ pc.cleared,
      key ∈ (m.pc r).cleared ∨ ∀ msg ∈ m'.stored key.telegramId, msg.anchor = key.periodKey)
    (hunderway : ∀ key ∈ pc.underway, key ∈ (m.pc r).underway ∨ MayBegin m r key)
    (hevent : ∀ key ∈ pc.underway, pc.event = some key.periodKey)
    (hlisted : ∀ p ∈ pc.listed, p.1.instant < p.2)
    (hcleaned : ∀ p ∈ m'.cleaned, p.1.anchor.instant < p.2) : Anchored m' := by
  have hself := pc_self hpc
  have hne := pc_other hpc
  have halike : ∀ key ∈ pc.underway, ∀ key' ∈ (m.pc r.other).underway,
      key'.telegramId = key.telegramId → key'.periodKey = key.periodKey := by
    intro key hkey key' hkey'
    rcases hunderway key hkey with hold | hnew
    . exact h.alike r key hold key' hkey'
    . exact hnew.2 key' hkey'
  constructor
  . rw [htable, hclock]
    exact h.stamps
  . intro tid hnone msg hmsg
    rw [htable]
    have hpcnone := hnone r
    have hothernone := hnone r.other
    rw [hself] at hpcnone
    rw [hne] at hothernone
    rcases hstored tid msg hmsg with hmsg | ⟨key, hkey, htid, _⟩
    . by_cases hmarked : ∃ key ∈ (m.pc r).toMark, key.telegramId = tid
      . rcases hmarked with ⟨key, hkey, rfl⟩
        rcases hmarks key hkey with hkept | hlost
        . exact absurd rfl (hpcnone key hkept)
        . exact hlost hothernone msg hmsg
      . apply h.announced tid _ msg hmsg
        intro q key hkey htid
        rcases eq_or_eq_other r q with rfl | rfl
        . exact hmarked ⟨key, hkey, htid⟩
        . exact hothernone key hkey htid
    . exact absurd htid (hpcnone key hkey)
  . intro q key hkey msg hmsg
    rcases hstored key.telegramId msg hmsg with hold | ⟨key', hkey', htid, hanchor⟩
    . rcases eq_or_eq_other r q with rfl | rfl
      . rw [hself] at hkey
        rcases hcleared key hkey with hkey | hnew
        . exact h.cleared q key hkey msg hold
        . exact hnew msg hmsg
      . rw [hne] at hkey
        exact h.cleared _ key hkey msg hold
    . have hkey' : key' ∈ pc.underway := cleared_subset_underway pc (toMark_subset_cleared pc hkey')
      have hkey := cleared_subset_underway _ hkey
      rcases eq_or_eq_other r q with rfl | rfl
      . rw [hself] at hkey
        have heq := (hevent key' hkey').symm.trans (hevent key hkey)
        rw [hanchor]
        exact Option.some.inj heq
      . rw [hne] at hkey
        rw [hanchor]
        exact (halike key' hkey' key hkey htid.symm).symm
  . rw [htable]
    refine forall_routine (fun _ pc => ∀ key ∈ pc.underway, Leads m.table key) hpc ?_ (h.leads _)
    intro key hkey
    rcases hunderway key hkey with hold | hnew
    . exact h.leads r key hold
    . exact hnew.1
  . exact forall_routine (fun _ pc => ∀ key ∈ pc.underway, pc.event = some key.periodKey) hpc hevent
      (h.event _)
  . intro q key hkey key' hkey' htid
    rcases eq_or_eq_other r q with rfl | rfl
    . rw [hself] at hkey
      rw [hne] at hkey'
      exact halike key hkey key' hkey' htid
    . rw [hne] at hkey
      rw [other_other, hself] at hkey'
      exact (halike key' hkey' key hkey htid.symm).symm
  . exact forall_routine (fun _ pc => ∀ p ∈ pc.listed, p.1.instant < p.2) hpc hlisted (h.listed _)
  . exact hcleaned

theorem Anchored.marked {m m' : Routines} (h : Anchored m) {r : Routine} {pc : Pc} {pair : Pair}
    {createdAt : Key → Int} {clock : Int}
    (hlater : ∀ key ∈ (m.pc r).toMark, m.clock < createdAt key ∧ createdAt key ≤ clock)
    (htable : m'.table = markAll m.table pair createdAt (m.pc r).toMark)
    (hclock : m'.clock = max m.clock clock) (hpc : m'.pc = Function.update m.pc r pc)
    (htracking : m'.tracking = m.tracking) (hcleaned : m'.cleaned = m.cleaned)
    (hunderway : pc.underway = []) (hlisted : pc.listed = []) : Anchored m' := by
  have hself := pc_self hpc
  have hne := pc_other hpc
  have hstored : m'.stored = m.stored := by
    unfold stored
    rw [htracking]
  have hcleared : pc.cleared = [] := by
    apply List.subset_nil.mp
    rw [← hunderway]
    exact cleared_subset_underway pc
  have hbegun : (m.pc r).toMark ⊆ (m.pc r).underway :=
    List.Subset.trans (toMark_subset_cleared _) (cleared_subset_underway _)
  have hmarked (key : Key) (hkey : key ∈ (m.pc r).toMark)
      : latestAnchor m'.table key.telegramId = some key.periodKey := by
    rw [htable]
    apply latestAnchor_markAll h.stamps (fun key hkey => (hlater key hkey).1)
      (fun key hkey => h.leads r key (hbegun hkey)) hkey
    intro key' hkey' _
    have heq := (h.event r key' (hbegun hkey')).symm.trans (h.event r key (hbegun hkey))
    exact Option.some.inj heq
  have hothers (tid : TelegramId) (hnone : ¬ ∃ key ∈ (m.pc r).toMark, key.telegramId = tid)
      : latestAnchor m'.table tid = latestAnchor m.table tid := by
    rw [htable]
    apply latestAnchor_markAll_others
    intro key hkey htid
    exact hnone ⟨key, hkey, htid⟩
  constructor
  . intro row hrow
    rw [htable] at hrow
    rw [hclock]
    rcases mem_markAll hrow with hold | ⟨hkey, hcreated⟩
    . have := h.stamps row hold
      omega
    . have := (hlater row.key hkey).2
      omega
  . intro tid hnone msg hmsg
    rw [hstored] at hmsg
    by_cases htid : ∃ key ∈ (m.pc r).toMark, key.telegramId = tid
    . rcases htid with ⟨key, hkey, rfl⟩
      rw [hmarked key hkey, h.cleared r key (toMark_subset_cleared _ hkey) msg hmsg]
    . rw [hothers tid htid]
      apply h.announced tid _ msg hmsg
      intro q key hkey hkeytid
      rcases eq_or_eq_other r q with rfl | rfl
      . exact htid ⟨key, hkey, hkeytid⟩
      . apply hnone r.other key _ hkeytid
        rw [hne]
        exact hkey
  . rw [hstored]
    refine forall_routine (fun _ pc => ∀ key ∈ pc.cleared, ∀ msg ∈ m.stored key.telegramId,
      msg.anchor = key.periodKey) hpc ?_ (h.cleared _)
    rw [hcleared]
    exact nofun
  . refine forall_routine (fun _ pc => ∀ key ∈ pc.underway, Leads m'.table key) hpc ?_ ?_
    . rw [hunderway]
      exact nofun
    . intro key hkey
      by_cases htid : ∃ key' ∈ (m.pc r).toMark, key'.telegramId = key.telegramId
      . rcases htid with ⟨key', hkey', htid⟩
        right
        rw [← htid, hmarked key' hkey', h.alike r key' (hbegun hkey') key hkey htid.symm]
      . rcases h.leads _ key hkey with hnew | hlatest
        . left
          rw [← Bool.not_eq_true, htable, recorded_markAll, not_or, Bool.not_eq_true]
          refine ⟨hnew, ?_⟩
          intro hmem
          exact htid ⟨key, hmem, rfl⟩
        . right
          rw [hothers _ htid]
          exact hlatest
  . refine forall_routine (fun _ pc => ∀ key ∈ pc.underway, pc.event = some key.periodKey) hpc ?_
      (h.event _)
    rw [hunderway]
    exact nofun
  . intro q key hkey key' hkey'
    rcases eq_or_eq_other r q with rfl | rfl
    . rw [hself, hunderway] at hkey
      cases hkey
    . rw [other_other, hself, hunderway] at hkey'
      cases hkey'
  . refine forall_routine (fun _ pc => ∀ p ∈ pc.listed, p.1.instant < p.2) hpc ?_ (h.listed _)
    rw [hlisted]
    exact nofun
  . rw [hcleaned]
    exact h.cleaned

/-! ## The steps -/

theorem deletedMessages_subset (loaded : Tracking) (hasChannel : Bool)
    : deletedMessages loaded hasChannel ⊆ loaded.messages := by
  unfold deletedMessages Tracking.messages
  intro msg hmsg
  rw [List.mem_append] at hmsg ⊢
  rcases hmsg with hmsg | hmsg
  . exact .inl hmsg
  . split at hmsg
    . exact .inr hmsg
    . cases hmsg

theorem messages_forget_subset (loaded : Tracking) (hasChannel : Bool) (tracking : Tracking)
    : (forget loaded hasChannel tracking).messages ⊆ tracking.messages := by
  unfold forget Tracking.messages
  intro msg hmsg
  rw [List.mem_append] at hmsg ⊢
  rcases hmsg with hmsg | hmsg
  . dsimp only at hmsg
    split at hmsg
    . cases hmsg
    . exact .inl hmsg
  . dsimp only at hmsg
    split at hmsg
    . cases hmsg
    . exact .inr hmsg

theorem mem_messages_storeIds {next : NextEvent} {send : Send} {outcome : Outcome}
    {tracking : Tracking} {msg : Message} (h : msg ∈ (storeIds next send outcome tracking).messages)
    : msg ∈ tracking.messages ∨ msg.anchor = next.time := by
  unfold storeIds Tracking.messages at h
  unfold Tracking.messages
  rw [List.mem_append, Option.mem_toList, Option.mem_toList] at h ⊢
  rcases h with h | h
  . dsimp only at h
    split at h
    . cases h
      exact .inr rfl
    . exact .inl (.inl h)
  . dsimp only at h
    split at h
    . cases h
      exact .inr rfl
    . exact .inl (.inr h)

theorem mem_stored_updateTracking {m : Routines} {tid tid' : TelegramId} {ok : Bool}
    {write : Tracking → Tracking} {msg : Message} (h : msg ∈ (m.updateTracking tid ok write).stored tid')
    : msg ∈ m.stored tid' ∨
        tid' = tid ∧ ∃ tracking, m.tracking tid = some tracking ∧ msg ∈ (write tracking).messages := by
  unfold updateTracking at h
  split at h
  . by_cases htid : tid' = tid
    . right
      refine ⟨htid, ?_⟩
      unfold stored at h
      rw [htid] at h
      dsimp only at h
      rw [Function.update_self] at h
      cases htracking : m.tracking tid with
      | none =>
        rw [htracking] at h
        cases h
      | some tracking =>
        rw [htracking] at h
        exact ⟨tracking, rfl, h⟩
    . left
      unfold stored at h ⊢
      dsimp only at h
      rw [Function.update_of_ne htid] at h
      exact h
  . exact .inl h

theorem stored_of_tracking {m : Routines} {tid : TelegramId} {tracking : Tracking}
    (h : m.tracking tid = some tracking) : m.stored tid = tracking.messages := by
  unfold stored
  rw [h]

theorem mem_stored_of_forget {m : Routines} {tid tid' : TelegramId} {ok : Bool} {loaded : Tracking}
    {hasChannel : Bool} {msg : Message}
    (h : msg ∈ (m.updateTracking tid ok (forget loaded hasChannel)).stored tid')
    : msg ∈ m.stored tid' := by
  rcases mem_stored_updateTracking h with hmsg | ⟨rfl, tracking, htracking, hmsg⟩
  . exact hmsg
  . rw [stored_of_tracking htracking]
    exact messages_forget_subset loaded hasChannel tracking hmsg

theorem mem_stored_of_storeIds {m : Routines} {tid tid' : TelegramId} {ok : Bool} {next : NextEvent}
    {send : Send} {outcome : Outcome} {msg : Message}
    (h : msg ∈ (m.updateTracking tid ok (storeIds next send outcome)).stored tid')
    : msg ∈ m.stored tid' ∨ tid' = tid ∧ msg.anchor = next.time := by
  rcases mem_stored_updateTracking h with hmsg | ⟨rfl, tracking, htracking, hmsg⟩
  . exact .inl hmsg
  . rcases mem_messages_storeIds hmsg with hmsg | hanchor
    . rw [stored_of_tracking htracking]
      exact .inl hmsg
    . exact .inr ⟨rfl, hanchor⟩

/--
When the cleanup of `r` gets to a user with stored messages, the events that the other routine has sent
reminders of and not marked have passed, and so has the latest one that is recorded.
-/
def OnTime (m : Routines) (r : Routine) (now : Int) (tid : TelegramId) (anchor : IsoTime) : Prop :=
  m.stored tid ≠ [] →
    (∀ key ∈ (m.pc r.other).toMark, key.telegramId = tid → eventAnchorPassed now key.periodKey = true) ∧
    ∀ latest ∈ latestAnchor m.table tid, latest = anchor ∨ eventAnchorPassed now latest = true

def KeepsAnchors (m : Routines) (e : Event) : Prop :=
  match e with
  | .acted r a =>
    match m.pc r, a with
    | .cleaning now ((tid, anchor) :: _), .trackingLoaded _ => m.OnTime r now tid anchor
    | .sending work _ (send :: _), .trackingLoaded _ => m.MayBegin r (send.key work.next)
    | .sending work _ (send :: _), .trackingFailed =>
      m.MayBegin r (send.key work.next) ∧
        ∀ msg ∈ m.stored send.user.telegramId, msg.anchor = work.next.time
    | .deleting work _ send _ loaded hasChannel, .committed ok =>
      -- what the deletion before the send leaves stored announces the same event
      ∀ msg ∈ (m.updateTracking send.user.telegramId ok (forget loaded hasChannel)).stored
        send.user.telegramId, msg.anchor = work.next.time
    | pc, .raised => ∀ key ∈ pc.toMark, m.MayLose r key
    | _, _ => True
  | .restarted =>
    ∀ key ∈ (m.pc .checker).toMark ++ (m.pc .catchUp).toMark, ∀ msg ∈ m.stored key.telegramId,
      latestAnchor m.table key.telegramId = some msg.anchor
  | _ => True

instance (m : Routines) (r : Routine) (key : Key) : Decidable (m.MayBegin r key) :=
  inferInstanceAs (Decidable (_ ∧ _))

instance (m : Routines) (r : Routine) (key : Key) : Decidable (m.MayLose r key) :=
  inferInstanceAs (Decidable (_ → _))

instance (m : Routines) (r : Routine) (now : Int) (tid : TelegramId) (anchor : IsoTime)
    : Decidable (m.OnTime r now tid anchor) :=
  inferInstanceAs (Decidable (_ → _))

instance : DecidableRel KeepsAnchors := by
  intro m e
  unfold KeepsAnchors
  split
  . split <;> infer_instance
  . infer_instance
  . infer_instance

theorem Anchored.quiet {m m' : Routines} (h : Anchored m) {r : Routine} {pc : Pc}
    (htable : m'.table = m.table) (hclock : m'.clock = m.clock)
    (hpc : m'.pc = Function.update m.pc r pc) (hstored : ∀ tid, m'.stored tid ⊆ m.stored tid)
    (hmarks : (m.pc r).toMark = []) (hunderway : pc.underway = [])
    (hlisted : ∀ p ∈ pc.listed, p.1.instant < p.2)
    (hcleaned : ∀ p ∈ m'.cleaned, p.1.anchor.instant < p.2) : Anchored m' := by
  have hnone : ∀ key, key ∉ pc.underway := by
    rw [hunderway]
    exact fun _ => List.not_mem_nil
  refine h.moved htable hclock hpc ?_ ?_ ?_ ?_ ?_ hlisted hcleaned
  . intro tid msg hmsg
    exact .inl (hstored tid hmsg)
  . rw [hmarks]
    nofun
  . intro key hkey
    exact absurd (cleared_subset_underway pc hkey) (hnone key)
  . intro key hkey
    exact absurd hkey (hnone key)
  . intro key hkey
    exact absurd hkey (hnone key)

theorem Anchored.goes {m : Routines} (h : Anchored m) {r : Routine} {pc pc' : Pc} (hpc : m.pc r = pc)
    (hmarks : pc.toMark = []) (hunderway : pc'.underway = []) (hlisted : ∀ p ∈ pc'.listed, p.1.instant < p.2)
    : Anchored (m.goto r pc') := by
  subst hpc
  exact h.quiet rfl rfl rfl (fun _ _ hmsg => hmsg) hmarks hunderway hlisted h.cleaned

theorem Anchored.kept {m m' : Routines} (h : Anchored m) {r : Routine} {pc : Pc}
    (htable : m'.table = m.table) (hclock : m'.clock = m.clock)
    (hpc : m'.pc = Function.update m.pc r pc) (hstored : ∀ tid, m'.stored tid ⊆ m.stored tid)
    (hmarks : (m.pc r).toMark ⊆ pc.toMark) (hcleared : pc.cleared ⊆ (m.pc r).cleared)
    (hunderway : pc.underway ⊆ (m.pc r).underway)
    (hevent : ∀ key ∈ pc.underway, pc.event = some key.periodKey)
    (hlisted : pc.listed = []) (hcleaned : m'.cleaned = m.cleaned) : Anchored m' := by
  refine h.moved htable hclock hpc ?_ ?_ ?_ ?_ hevent ?_ ?_
  . intro tid msg hmsg
    exact .inl (hstored tid hmsg)
  . intro key hkey
    exact .inl (hmarks hkey)
  . intro key hkey
    exact .inl (hcleared hkey)
  . intro key hkey
    exact .inl (hunderway hkey)
  . rw [hlisted]
    nofun
  . rw [hcleaned]
    exact h.cleaned

theorem Anchored.begun {m : Routines} (h : Anchored m) {r : Routine} {pc : Pc} {key : Key}
    (hbegin : MayBegin m r key) (hmarks : pc.toMark = (m.pc r).toMark)
    (hcleared : ∀ key' ∈ pc.cleared, key' ∈ (m.pc r).cleared ∨
      key' = key ∧ ∀ msg ∈ m.stored key.telegramId, msg.anchor = key.periodKey)
    (hunderway : pc.underway = (m.pc r).underway ++ [key]) (hold : (m.pc r).event = pc.event)
    (hevent : pc.event = some key.periodKey) (hlisted : pc.listed = []) : Anchored (m.goto r pc) := by
  refine h.moved rfl rfl rfl (fun _ _ hmsg => .inl hmsg) ?_ ?_ ?_ ?_ ?_ h.cleaned
  . rw [hmarks]
    exact fun key hkey => .inl hkey
  . intro key' hkey'
    rcases hcleared key' hkey' with hkey' | ⟨rfl, hstored⟩
    . exact .inl hkey'
    . exact .inr hstored
  . intro key' hkey'
    rw [hunderway, List.mem_append, List.mem_singleton] at hkey'
    rcases hkey' with hkey' | rfl
    . exact .inl hkey'
    . exact .inr hbegin
  . intro key' hkey'
    rw [hunderway, List.mem_append, List.mem_singleton] at hkey'
    rcases hkey' with hkey' | rfl
    . rw [← hold]
      exact h.event r key' hkey'
    . exact hevent
  . rw [hlisted]
    nofun

theorem Anchored.dropped {m : Routines} (h : Anchored m) {r : Routine} {pc : Pc}
    (hlost : ∀ key ∈ (m.pc r).toMark, MayLose m r key) (hunderway : pc.underway = [])
    (hlisted : pc.listed = []) : Anchored (m.goto r pc) := by
  have hnone : ∀ key, key ∉ pc.underway := by
    rw [hunderway]
    exact fun _ => List.not_mem_nil
  refine h.moved rfl rfl rfl (fun _ _ hmsg => .inl hmsg) ?_ ?_ ?_ ?_ ?_ h.cleaned
  . intro key hkey
    exact .inr (hlost key hkey)
  . intro key hkey
    exact absurd (cleared_subset_underway pc hkey) (hnone key)
  . intro key hkey
    exact absurd hkey (hnone key)
  . intro key hkey
    exact absurd hkey (hnone key)
  . rw [hlisted]
    nofun

theorem Anchored.retracked {m : Routines} (h : Anchored m) {tid : TelegramId} {row : Option Tracking}
    (hempty : ∀ tracking ∈ row, tracking.messages = [])
    : Anchored { m with tracking := Function.update m.tracking tid row } := by
  have hstored (tid' : TelegramId) {msg : Message}
      (hmsg : msg ∈ stored { m with tracking := Function.update m.tracking tid row } tid')
      : msg ∈ m.stored tid' := by
    unfold stored at hmsg ⊢
    by_cases htid : tid' = tid
    . subst htid
      dsimp only at hmsg
      rw [Function.update_self] at hmsg
      cases row with
      | none => cases hmsg
      | some tracking =>
        dsimp only at hmsg
        rw [hempty tracking rfl] at hmsg
        cases hmsg
    . dsimp only at hmsg
      rw [Function.update_of_ne htid] at hmsg
      exact hmsg
  constructor
  . exact h.stamps
  . intro tid' hnone msg hmsg
    exact h.announced tid' hnone msg (hstored tid' hmsg)
  . intro r key hkey msg hmsg
    exact h.cleared r key hkey msg (hstored key.telegramId hmsg)
  . exact h.leads
  . exact h.event
  . exact h.alike
  . exact h.listed
  . exact h.cleaned

theorem Anchored.restarted {m : Routines} (h : Anchored m)
    (hlost : ∀ key ∈ (m.pc .checker).toMark ++ (m.pc .catchUp).toMark, ∀ msg ∈ m.stored key.telegramId,
      latestAnchor m.table key.telegramId = some msg.anchor)
    : Anchored { m with pc := fun _ => .idle } := by
  have hfirst : Anchored (m.goto .checker .idle) := by
    apply h.dropped _ rfl rfl
    intro key hkey _
    exact hlost key (List.mem_append_left _ hkey)
  have hsecond : Anchored ((m.goto .checker .idle).goto .catchUp .idle) := by
    apply hfirst.dropped _ rfl rfl
    intro key hkey _
    exact hlost key (List.mem_append_right _ hkey)
  have hidle : ((m.goto .checker .idle).goto .catchUp .idle) = { m with pc := fun _ => .idle } := by
    unfold goto
    congr
    funext r
    cases r <;> rfl
  rw [← hidle]
  exact hsecond

theorem passed_iff {now : Int} {anchor : IsoTime}
    : eventAnchorPassed now anchor = true ↔ anchor.instant < now :=
  decide_eq_true_iff

theorem cleaned_passed {m : Routines} {r : Routine} {now : Int} {tid : TelegramId} {anchor : IsoTime}
    {todo : List (TelegramId × IsoTime)} (h : Anchored m)
    (hpc : m.pc r = .cleaning now ((tid, anchor) :: todo)) (hontime : m.OnTime r now tid anchor)
    {msg : Message} (hmsg : msg ∈ m.stored tid) : msg.anchor.instant < now := by
  rcases hontime (List.ne_nil_of_mem hmsg) with ⟨hmarks, hlatest⟩
  by_cases hmarked : ∃ key ∈ (m.pc r.other).toMark, key.telegramId = tid
  . rcases hmarked with ⟨key, hkey, htid⟩
    have hpassed := hmarks key hkey htid
    subst htid
    rw [h.cleared r.other key (toMark_subset_cleared _ hkey) msg hmsg]
    exact passed_iff.mp hpassed
  . have hannounced : latestAnchor m.table tid = some msg.anchor := by
      apply h.announced tid _ msg hmsg
      intro q key hkey htid
      rcases eq_or_eq_other r q with rfl | rfl
      . rw [hpc] at hkey
        cases hkey
      . exact hmarked ⟨key, hkey, htid⟩
    rcases hlatest msg.anchor hannounced with heq | hpassed
    . have hlisted := h.listed r
      rw [hpc] at hlisted
      rw [heq]
      exact hlisted (anchor, now) List.mem_cons_self
    . exact passed_iff.mp hpassed

theorem Anchored.listing {m : Routines} (h : Anchored m) {r : Routine} (hpc : m.pc r = .idle)
    (now cutoff : Int)
    : Anchored (m.goto r (.cleaning now
        ((getActiveReminderAnchors m.table cutoff).filter (eventAnchorPassed now ·.2)))) := by
  apply h.goes hpc rfl rfl
  intro p hp
  rcases List.mem_map.mp hp with ⟨listed, hmem, rfl⟩
  exact passed_iff.mp (List.mem_filter.mp hmem).2

theorem Anchored.listed_tail {m : Routines} (h : Anchored m) {r : Routine} {now : Int}
    {user : TelegramId × IsoTime} {todo : List (TelegramId × IsoTime)}
    (hpc : m.pc r = .cleaning now (user :: todo)) : ∀ p ∈ todo.map (·.2, now), p.1.instant < p.2 := by
  have hlisted := h.listed r
  rw [hpc] at hlisted
  intro p hp
  exact hlisted p (List.mem_cons_of_mem _ hp)

theorem Anchored.skipping {m : Routines} (h : Anchored m) {r : Routine} {now : Int}
    {user : TelegramId × IsoTime} {todo : List (TelegramId × IsoTime)}
    (hpc : m.pc r = .cleaning now (user :: todo)) : Anchored (m.goto r (.cleaning now todo)) :=
  h.goes hpc rfl rfl (h.listed_tail hpc)

theorem Anchored.cleaning {m : Routines} (h : Anchored m) {r : Routine} {now : Int} {tid : TelegramId}
    {anchor : IsoTime} {todo : List (TelegramId × IsoTime)} {loaded : Tracking}
    (hpc : m.pc r = .cleaning now ((tid, anchor) :: todo)) (hontime : m.OnTime r now tid anchor)
    (htracking : m.tracking tid = some loaded) (hasChannel : Bool)
    : Anchored ({ m with
        cleaned := (deletedMessages loaded hasChannel).map (·, now) ++ m.cleaned }.goto r
          (.forgetting now tid loaded hasChannel todo)) := by
  refine h.quiet rfl rfl rfl (fun _ _ hmsg => hmsg) (by rw [hpc]; rfl) rfl (h.listed_tail hpc) ?_
  intro p hp
  rcases List.mem_append.mp hp with hp | hp
  . rcases List.mem_map.mp hp with ⟨msg, hmsg, rfl⟩
    apply cleaned_passed h hpc hontime
    rw [stored_of_tracking htracking]
    exact deletedMessages_subset loaded hasChannel hmsg
  . exact h.cleaned p hp

theorem Anchored.forgetting {m : Routines} (h : Anchored m) {r : Routine} {now : Int} {tid : TelegramId}
    {loaded : Tracking} {hasChannel : Bool} {todo : List (TelegramId × IsoTime)}
    (hpc : m.pc r = .forgetting now tid loaded hasChannel todo) (ok : Bool)
    : Anchored ((m.updateTracking tid ok (forget loaded hasChannel)).goto r (.cleaning now todo)) := by
  have hlisted := h.listed r
  rw [hpc] at hlisted
  refine h.quiet (table_updateTracking m _ _ _) (clock_updateTracking m _ _ _)
    (pc_goto_updateTracking m _ _ _ r _) ?_ ?_ rfl hlisted ?_
  . intro tid' msg hmsg
    exact mem_stored_of_forget hmsg
  . rw [hpc]
    rfl
  . intro p hp
    apply h.cleaned
    rw [← cleaned_updateTracking m tid ok (forget loaded hasChannel)]
    exact hp

theorem Anchored.awaiting {m : Routines} (h : Anchored m) {r : Routine} {work : Work}
    {toMark : List Key} {send : Send} {todo : List Send}
    (hpc : m.pc r = .sending work toMark (send :: todo)) (hbegin : m.MayBegin r (send.key work.next))
    (hstored : ∀ msg ∈ m.stored send.user.telegramId, msg.anchor = work.next.time)
    : Anchored (m.goto r (.awaiting work toMark send todo)) := by
  apply h.begun hbegin
  . rw [hpc]
    rfl
  . rw [hpc]
    intro key hkey
    rcases List.mem_append.mp hkey with hkey | hkey
    . exact .inl hkey
    . exact .inr ⟨List.mem_singleton.mp hkey, hstored⟩
  . rw [hpc]
    rfl
  . rw [hpc]
    rfl
  . rfl
  . rfl

theorem Anchored.deleting {m : Routines} (h : Anchored m) {r : Routine} {work : Work}
    {toMark : List Key} {send : Send} {todo : List Send}
    (hpc : m.pc r = .sending work toMark (send :: todo)) (hbegin : m.MayBegin r (send.key work.next))
    (loaded : Tracking) (hasChannel : Bool)
    : Anchored (m.goto r (.deleting work toMark send todo loaded hasChannel)) := by
  apply h.begun hbegin
  . rw [hpc]
    rfl
  . rw [hpc]
    intro key hkey
    exact .inl hkey
  . rw [hpc]
    rfl
  . rw [hpc]
    rfl
  . rfl
  . rfl

theorem Anchored.deleted {m : Routines} (h : Anchored m) {r : Routine} {work : Work}
    {toMark : List Key} {send : Send} {todo : List Send} {loaded : Tracking} {hasChannel ok : Bool}
    (hpc : m.pc r = .deleting work toMark send todo loaded hasChannel)
    (hleft : ∀ msg ∈ (m.updateTracking send.user.telegramId ok (forget loaded hasChannel)).stored
      send.user.telegramId, msg.anchor = work.next.time)
    : Anchored ((m.updateTracking send.user.telegramId ok (forget loaded hasChannel)).goto r
        (.awaiting work toMark send todo)) := by
  have hevent := h.event r
  rw [hpc] at hevent
  refine h.moved (table_updateTracking m _ _ _) (clock_updateTracking m _ _ _)
    (pc_goto_updateTracking m _ _ _ r _) ?_ ?_ ?_ ?_ hevent nofun ?_
  . intro tid msg hmsg
    exact .inl (mem_stored_of_forget hmsg)
  . rw [hpc]
    exact fun key hkey => .inl hkey
  . rw [hpc]
    intro key hkey
    rcases List.mem_append.mp hkey with hkey | hkey
    . exact .inl hkey
    . rw [List.mem_singleton.mp hkey]
      exact .inr hleft
  . rw [hpc]
    exact fun key hkey => .inl hkey
  . intro p hp
    apply h.cleaned
    rw [← cleaned_updateTracking m send.user.telegramId ok (forget loaded hasChannel)]
    exact hp

theorem Anchored.sent {m : Routines} (h : Anchored m) {r : Routine} {work : Work} {toMark : List Key}
    {send : Send} {todo : List Send} (hpc : m.pc r = .awaiting work toMark send todo) (outcome : Outcome)
    : Anchored ({ m with sentLog := send.key work.next :: m.sentLog }.goto r
        (.storing work toMark send todo outcome)) := by
  have hevent := h.event r
  rw [hpc] at hevent
  refine h.kept rfl rfl rfl (fun _ _ hmsg => hmsg) ?_ ?_ ?_ hevent rfl rfl
  . rw [hpc]
    exact List.subset_append_left toMark _
  . rw [hpc]
    exact List.Subset.refl _
  . rw [hpc]
    exact List.Subset.refl _

theorem Anchored.unsent {m : Routines} (h : Anchored m) {r : Routine} {work : Work}
    {toMark : List Key} {send : Send} {todo : List Send}
    (hpc : m.pc r = .awaiting work toMark send todo)
    : Anchored (m.goto r (proceed work toMark todo)) := by
  have hevent := h.event r
  rw [hpc] at hevent
  refine h.kept rfl rfl rfl (fun _ _ hmsg => hmsg) ?_ ?_ ?_ ?_ (listed_proceed _ _ _) rfl
  . rw [hpc, toMark_proceed]
    exact List.Subset.refl _
  . rw [hpc, cleared_proceed]
    exact List.subset_append_left toMark _
  . rw [hpc, underway_proceed]
    exact List.subset_append_left toMark _
  . intro key hkey
    rw [underway_proceed] at hkey
    rw [event_proceed hkey]
    exact hevent key (List.mem_append_left _ hkey)

theorem Anchored.storing {m : Routines} (h : Anchored m) {r : Routine} {work : Work}
    {toMark : List Key} {send : Send} {todo : List Send} {outcome : Outcome}
    (hpc : m.pc r = .storing work toMark send todo outcome) (ok : Bool)
    : Anchored ((m.updateTracking send.user.telegramId ok (storeIds work.next send outcome)).goto r
        (proceed work (toMark ++ [send.key work.next]) todo)) := by
  have hevent := h.event r
  rw [hpc] at hevent
  refine h.moved (table_updateTracking m _ _ _) (clock_updateTracking m _ _ _)
    (pc_goto_updateTracking m _ _ _ r _) ?_ ?_ ?_ ?_ ?_ ?_ ?_
  . intro tid msg hmsg
    rcases mem_stored_of_storeIds hmsg with hmsg | ⟨rfl, hanchor⟩
    . exact .inl hmsg
    . right
      refine ⟨send.key work.next, ?_, rfl, hanchor⟩
      rw [toMark_proceed]
      exact List.mem_append_right _ (List.mem_singleton_self _)
  . rw [hpc, toMark_proceed]
    exact fun key hkey => .inl hkey
  . rw [hpc, cleared_proceed]
    exact fun key hkey => .inl hkey
  . rw [hpc, underway_proceed]
    exact fun key hkey => .inl hkey
  . intro key hkey
    rw [underway_proceed] at hkey
    rw [event_proceed hkey]
    exact hevent key hkey
  . rw [listed_proceed]
    nofun
  . intro p hp
    apply h.cleaned
    rw [← cleaned_updateTracking m send.user.telegramId ok (storeIds work.next send outcome)]
    exact hp

theorem Anchored.raised {m m' : Routines} (h : Anchored m) {r : Routine}
    (hkeeps : KeepsAnchors m (.acted r .raised)) (hact : m.act r .raised = some m') : Anchored m' := by
  have hlost : ∀ key ∈ (m.pc r).toMark, m.MayLose r key := by
    unfold KeepsAnchors at hkeeps
    dsimp only at hkeeps
    split at hkeeps
    . contradiction
    . contradiction
    . contradiction
    . contradiction
    . exact hkeeps
    . contradiction
  rw [raised_eq hact]
  exact h.dropped hlost rfl rfl

theorem anchored_act {m m' : Routines} {r : Routine} {a : Action} (h : Anchored m)
    (hkeeps : KeepsAnchors m (.acted r a)) (hact : m.act r a = some m') : Anchored m' := by
  by_cases hraised : a = .raised
  . subst hraised
    exact h.raised hkeeps hact
  unfold KeepsAnchors at hkeeps
  dsimp only at hkeeps
  unfold act at hact
  split at hact
  -- the cleanup
  . next hpc =>
    split at hact
    . cases hact
      exact h.listing hpc _ _
    . cases hact
  . next hpc =>
    split at hact
    . cases hact
      exact h.goes hpc rfl rfl nofun
    . cases hact
  . next hpc =>
    split at hact
    . cases hact
      exact h.goes hpc rfl rfl nofun
    . cases hact
  . next now tid anchor todo hasChannel hpc =>
    rw [hpc] at hkeeps
    split at hact
    . cases hact
      exact h.skipping hpc
    . next loaded htracking =>
      cases hact
      exact h.cleaning hpc hkeeps htracking hasChannel
  . next hpc =>
    cases hact
    exact h.skipping hpc
  . next hpc =>
    cases hact
    exact h.goes hpc rfl rfl nofun
  . next ok hpc =>
    cases hact
    exact h.forgetting hpc ok
  -- the pairs
  . next pair sched now users hpc =>
    split at hact
    . cases hact
      exact h
    . next next hnext =>
      cases hact
      apply h.goes hpc rfl (underway_nextBatch _)
      rw [listed_nextBatch]
      nofun
  . next hpc =>
    cases hact
    exact h.goes hpc rfl rfl nofun
  -- a batch
  . next work batch hpc =>
    cases hact
    apply h.goes hpc rfl (underway_proceed work [] _)
    rw [listed_proceed]
    nofun
  . next work toMark send todo hasChannel hpc =>
    rw [hpc] at hkeeps
    split at hact
    . next hnone =>
      cases hact
      apply h.awaiting hpc hkeeps
      unfold stored
      rw [hnone]
      nofun
    . cases hact
      exact h.deleting hpc hkeeps _ hasChannel
  . next hpc =>
    rw [hpc] at hkeeps
    cases hact
    exact h.awaiting hpc hkeeps.1 hkeeps.2
  . next hpc =>
    rw [hpc] at hkeeps
    cases hact
    exact h.deleted hpc hkeeps
  . next outcome hpc =>
    split at hact
    . cases hact
      exact h.sent hpc outcome
    . cases hact
      exact h.unsent hpc
  . next ok hpc =>
    cases hact
    exact h.storing hpc ok
  . next work toMark createdAt clock hpc =>
    split at hact
    . next hlater =>
      cases hact
      have hmarks : (m.pc r).toMark = toMark := by
        rw [hpc]
        rfl
      rw [← hmarks] at hlater ⊢
      exact h.marked hlater rfl rfl rfl rfl rfl (underway_nextBatch work) (listed_nextBatch work)
    . cases hact
  -- the steps that raise
  . exact absurd rfl hraised
  . exact absurd rfl hraised
  . exact absurd rfl hraised
  . exact absurd rfl hraised
  . exact absurd rfl hraised
  . cases hact

theorem anchored_step {m m' : Routines} {e : Event} (h : Anchored m) (hkeeps : KeepsAnchors m e)
    (hstep : step m e = some m') : Anchored m' := by
  cases e with
  | acted r a => exact anchored_act h hkeeps hstep
  | registered tid =>
    unfold step at hstep
    dsimp only at hstep
    split at hstep
    . cases hstep
      exact h
    . cases hstep
      apply h.retracked
      intro tracking htracking
      cases htracking
      rfl
  | unregistered tid =>
    cases hstep
    apply h.retracked
    nofun
  | restarted =>
    cases hstep
    exact h.restarted hkeeps

/--
In a run whose steps keep the stored messages in line with the recorded anchors the cleanup deletes the
messages of past events only.
-/
theorem cleans_past_only {es : List Event} (hkeeps : Run.StepsMeet step KeepsAnchors {} es)
    : Run.Always step (fun m => ∀ p ∈ m.cleaned, p.1.anchor.instant < p.2) {} es := by
  apply Run.always_of_stepsMeet (I := Anchored)
  . intro m m' e h hkeeps hstep
    exact anchored_step h hkeeps hstep
  . intro m h
    exact h.cleaned
  . exact Anchored.init
  . exact hkeeps

def midnightOutage : Sched where
  hasData := true
  events := [{
    start := ⟨1, 0, 7200⟩
    endAt := ⟨1, 2, 7200⟩
    isPossible := false }]
  queue := "1.1"
  dtekUpdatedAt := none

def eveningTick : List Event :=
  [.registered "777", .acted .checker (.anchorsRead (sixSharp - 375 * minuteUs) 0),
    .acted .checker .cleanupEnded,
    .acted .checker (.pairScanned ("kyiv", "1.1") midnightOutage (sixSharp - 375 * minuteUs) [earlyUser]),
    .acted .checker .checked] ++
  sendOf .checker 1 ++
  [.acted .checker (.marked (fun _ => 1) 1), .acted .checker .ended]

/--
The tick of six o'clock has deleted the reminder of the night before the catch-up sends the next one.
-/
def cleanedFirst : List Event :=
  eveningTick ++
  [.acted .checker (.anchorsRead sixSharp 0), .acted .catchUp .started, pairAtSix .catchUp,
    .acted .checker (.trackingLoaded false), .acted .catchUp .checked,
    .acted .checker (.committed true)] ++
  sendOf .catchUp 2 ++
  [.acted .checker .cleanupEnded, .acted .catchUp (.marked (fun _ => 2) 2)]

theorem cleans_past_only_cleanedFirst
    : Run.Always step (fun m => ∀ p ∈ m.cleaned, p.1.anchor.instant < p.2) {} cleanedFirst :=
  cleans_past_only (by decide +kernel)

/--
The catch-up sends its reminder between the read of the anchors and the cleanup of the user.
-/
def sentInBetween : List Event :=
  eveningTick ++
  [.acted .checker (.anchorsRead sixSharp 0), .acted .catchUp .started, pairAtSix .catchUp,
    .acted .catchUp .checked] ++
  sendOf .catchUp 2 ++
  [.acted .checker (.trackingLoaded false)]

theorem not_cleans_past_only_sentInBetween
    : (Run.exec step {} sentInBetween).map (·.cleaned) = some [(⟨2, ⟨1, 13, 7200⟩⟩, sixSharp)] ∧
        ¬ Run.Always step (fun m => ∀ p ∈ m.cleaned, p.1.anchor.instant < p.2) {} sentInBetween := by
  have hcleaned : (Run.exec step {} sentInBetween).map (·.cleaned) =
      some [(⟨2, ⟨1, 13, 7200⟩⟩, sixSharp)] := by
    decide +kernel
  refine ⟨hcleaned, ?_⟩
  intro halways
  rcases Option.map_eq_some_iff.mp hcleaned with ⟨m, hrun, hm⟩
  have hpast := halways.last hrun
  rw [hm] at hpast
  revert hpast
  decide +kernel

end Routines
end Scheduler.Reminders
