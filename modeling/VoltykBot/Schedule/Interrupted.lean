import VoltykBot.Schedule.Overnight

/-!
This module contains the queue of the 06:00 flush in runs in which any await of `_check_single_queue` and
of the flush may raise or be cancelled. The steps are the awaits that read or write the tables and the
blasts between them; both locks are held from the first to the last step of a cycle or a flush.
-/

namespace Scheduler

/--
What the flush is about to send for a pair, `queued` if it comes from a row of `pending_notifications`.
-/
structure Flushed where
  pair : Pair
  queued : Bool
  scheduleData : JsonText Sched
  sched : Sched
  deriving DecidableEq

inductive Job where
  | idle
  | checking (todo : List Pair)
  | refreshing (pair : Pair) (sched : Sched) (reads : CheckReads) (todo : List Pair)
  | changing (blast : Blast) (reads : CheckReads) (todo : List Pair)
  | blasting (pair : Pair) (todo : List Pair)
  | superseding (pair : Pair) (todo : List Pair)
  | flushing (pendingSet todo : List Pair)
  | flushBlasting (flushed : Flushed) (pendingSet todo : List Pair)
  | flushWriting (flushed : Flushed) (pendingSet todo : List Pair)
  | purging
  deriving DecidableEq

/--
`clock` is the database's: a row gets its `created_at` from it.
-/
structure Outbox (Hash : Type) where
  store : Store Hash := { lastHash := fun _ => none, snapshots := fun _ _ => none, pending := [] }
  clock : Int := 0
  job : Job := .idle

namespace Outbox

/--
A session that commits may still raise afterwards; one that does not commit has `raised`.
-/
inductive Event where
  | cycleStarted (pairs : List Pair)
  | pairRead (sched : Option Sched) (reads : CheckReads)
  | committed (createdAt : Int) (raises : Bool)
  | blastEnded
  | cycleEnded
  | flushStarted (pairs : List Pair)
  | pairFetched (fetched : Option Sched)
  | flushCommitted (reads : FlushReads) (raises : Bool)
  | bodyEnded
  | purged (cutoff : Int)
  | raised
  | cancelled

variable {Hash : Type}

/--
The exception ends the work on one pair; both loops log it and go on.
-/
def raised (m : Outbox Hash) : Option (Outbox Hash) :=
  match m.job with
  | .checking (_ :: todo) => some { m with job := .checking todo }
  | .refreshing _ _ _ todo => some { m with job := .checking todo }
  | .changing _ _ todo => some { m with job := .checking todo }
  | .blasting _ todo => some { m with job := .checking todo }
  | .superseding _ todo => some { m with job := .checking todo }
  | .flushing pendingSet (_ :: todo) => some { m with job := .flushing pendingSet todo }
  | .flushBlasting _ pendingSet todo => some { m with job := .flushing pendingSet todo }
  | .flushWriting _ pendingSet todo => some { m with job := .flushing pendingSet todo }
  | .purging => some { m with job := .idle }
  | _ => none

def flushedOf (store : Store Hash) (pair : Pair) (pendingSet : List Pair) (fetched : Option Sched)
    : Option Flushed :=
  -- `none` where `json.loads` raises or nothing could be fetched
  match pendingSet.contains pair, store.getLatestPendingNotification pair with
  | true, some row => (row.toBlast pair).map fun blast =>
    { pair := pair, queued := true, scheduleData := row.scheduleData, sched := blast.sched }
  | _, _ => fetched.map fun sched =>
    { pair := pair, queued := false, scheduleData := .dumped sched, sched := sched }

variable [DecidableEq Hash] (calculateScheduleHash : List ScheduleEvent → Hash)

def pairRead (m : Outbox Hash) (pair : Pair) (todo : List Pair) (sched : Option Sched)
    (reads : CheckReads) : Outbox Hash :=
  match sched with
  | none => { m with job := .checking todo }
  | some sched =>
    if m.store.lastHash pair = some (calculateScheduleHash sched.events) then
      { m with job := .refreshing pair sched reads todo }
    else
      { m with job := .changing (changeBlast calculateScheduleHash m.store pair sched reads) reads todo }

def changeCommitted (m : Outbox Hash) (blast : Blast) (reads : CheckReads) (todo : List Pair)
    (createdAt : Int) (raises : Bool) : Outbox Hash where
  store := writeChange calculateScheduleHash m.store blast reads createdAt
  clock := createdAt
  job :=
    if raises || reads.quiet.isQuietHours then .checking todo else .blasting blast.pair todo

def flushCommitted (m : Outbox Hash) (flushed : Flushed) (pendingSet todo : List Pair)
    (reads : FlushReads) : Outbox Hash :=
  let store := if flushed.queued then m.store.markPendingNotificationsSent flushed.pair else m.store
  { m with
    store := writeFlushed calculateScheduleHash store flushed.pair flushed.scheduleData
      flushed.sched.events reads
    job := .flushing pendingSet todo }

def step (m : Outbox Hash) (e : Event) : Option (Outbox Hash) :=
  match m.job, e with
  | .idle, .cancelled => none
  | _, .cancelled => some { m with job := .idle }
  | _, .raised => m.raised
  | .idle, .cycleStarted pairs => some { m with job := .checking pairs }
  | .checking (pair :: todo), .pairRead sched reads =>
    some (m.pairRead calculateScheduleHash pair todo sched reads)
  | .refreshing pair sched reads todo, .committed _ _ =>
    some { m with
      store := refreshSnapshot calculateScheduleHash m.store pair sched reads
      job := .checking todo }
  | .changing blast reads todo, .committed createdAt raises =>
    if m.clock < createdAt then
      some (m.changeCommitted calculateScheduleHash blast reads todo createdAt raises)
    else
      none
  | .blasting pair todo, .blastEnded => some { m with job := .superseding pair todo }
  | .superseding pair todo, .committed _ _ =>
    some { m with store := m.store.markPendingNotificationsSent pair, job := .checking todo }
  | .checking [], .cycleEnded => some { m with job := .idle }
  | .idle, .flushStarted pairs =>
    some { m with job := .flushing m.store.getAllPendingRegionQueuePairs pairs }
  | .flushing pendingSet (pair :: todo), .pairFetched fetched =>
    match flushedOf m.store pair pendingSet fetched with
    | none => some { m with job := .flushing pendingSet todo }
    | some flushed => some { m with job := .flushBlasting flushed pendingSet todo }
  | .flushBlasting flushed pendingSet todo, .blastEnded =>
    some { m with job := .flushWriting flushed pendingSet todo }
  | .flushWriting flushed pendingSet todo, .flushCommitted reads _ =>
    some (m.flushCommitted calculateScheduleHash flushed pendingSet todo reads)
  | .flushing _ [], .bodyEnded => some { m with job := .purging }
  | .purging, .purged cutoff =>
    some { m with store := m.store.deleteOldPendingNotifications cutoff, job := .idle }
  | _, _ => none

end Outbox

section

variable {Hash : Type} {calculateScheduleHash : List ScheduleEvent → Hash}

/--
The latest row that waits for a pair holds the schedule whose hash is stored.
-/
def UpToDate (calculateScheduleHash : List ScheduleEvent → Hash) (store : Store Hash) (pair : Pair)
    : Prop :=
  ∀ row, store.getLatestPendingNotification pair = some row →
    ∃ sched, row.scheduleData.loads = some sched ∧
      store.lastHash pair = some (calculateScheduleHash sched.events)

theorem UpToDate.of_same {store store' : Store Hash} {pair : Pair}
    (h : UpToDate calculateScheduleHash store pair)
    (hrows : store'.pending.filter (·.waits pair) = store.pending.filter (·.waits pair))
    (hhash : store'.lastHash pair = store.lastHash pair)
    : UpToDate calculateScheduleHash store' pair := by
  intro row hrow
  rw [Store.getLatestPendingNotification_eq, hrows, ← Store.getLatestPendingNotification_eq] at hrow
  rw [hhash]
  exact h row hrow

theorem UpToDate.of_nothing {store : Store Hash} {pair : Pair} (h : ¬ store.HasPending pair)
    : UpToDate calculateScheduleHash store pair := by
  intro row hrow
  apply absurd _ h
  rw [← Store.getLatestPendingNotification_isSome, hrow]
  rfl

theorem waits_ne {row : PendingNotification} {pair pair' : Pair} (hne : pair' ≠ pair)
    (h : row.waits pair = true) : row.waits pair' = false := by
  simp only [PendingNotification.waits, decide_eq_true_eq, decide_eq_false_iff_not, not_and] at h ⊢
  intro hpair
  exact absurd (hpair.symm.trans h.1) hne

theorem waiting_mark_ne (store : Store Hash) {pair pair' : Pair} (hne : pair' ≠ pair)
    : (store.markPendingNotificationsSent pair).pending.filter (·.waits pair') =
        store.pending.filter (·.waits pair') := by
  unfold Store.markPendingNotificationsSent
  dsimp only
  induction store.pending with
  | nil => rfl
  | cons row rows ih =>
    rw [List.map_cons, List.filter_cons, List.filter_cons, ih]
    split
    . next hwaits =>
      rw [waits_ne hne hwaits]
      simp [PendingNotification.waits]
    . rfl

theorem waiting_save_ne {store : Store Hash} {blast : Blast} {pair' : Pair} (createdAt : Int)
    (hne : pair' ≠ blast.pair)
    : (store.savePendingNotification (blast.toPending createdAt)).pending.filter (·.waits pair') =
        store.pending.filter (·.waits pair') := by
  unfold Store.savePendingNotification
  dsimp only
  rw [List.filter_append, List.filter_singleton, waits_ne hne (waits_toPending blast createdAt),
    Bool.cond_false, List.append_nil]

theorem UpToDate.purge {store : Store Hash} {pair : Pair}
    (h : UpToDate calculateScheduleHash store pair) (cutoff : Int)
    : UpToDate calculateScheduleHash (store.deleteOldPendingNotifications cutoff) pair := by
  intro row hrow
  have hkept := Store.mem_of_getLatestPendingNotification hrow
  rw [Store.getLatestPendingNotification_eq] at hrow
  unfold Store.deleteOldPendingNotifications at hrow hkept
  dsimp only at hrow hkept
  rw [List.mem_filter, decide_eq_true_eq] at hkept
  rw [List.filter_filter, ← List.filter_filter, List.filter_comm] at hrow
  cases hlatest : store.getLatestPendingNotification pair with
  | none =>
    rw [Store.getLatestPendingNotification_eq, Latest.latest_eq_none_iff] at hlatest
    rw [hlatest] at hrow
    cases hrow
  | some top =>
    rw [Store.getLatestPendingNotification_eq] at hlatest
    -- the latest row survives, since one that is not newer does
    have htop : cutoff ≤ top.createdAt :=
      hkept.1.2.trans (Latest.le_of_latest hlatest (List.mem_filter.mpr ⟨hkept.1.1, hkept.2⟩))
    rw [Latest.latest_filter hlatest (decide_eq_true htop)] at hrow
    cases hrow
    apply h
    rw [Store.getLatestPendingNotification_eq]
    exact hlatest

theorem upToDate_writeFlushed {store : Store Hash} {pair : Pair} {scheduleData : JsonText Sched}
    {events : List ScheduleEvent} {reads : FlushReads} (hnone : ¬ store.HasPending pair)
    (h : ∀ pair', pair' ≠ pair → UpToDate calculateScheduleHash store pair') (pair' : Pair)
    : UpToDate calculateScheduleHash
        (writeFlushed calculateScheduleHash store pair scheduleData events reads) pair' := by
  by_cases heq : pair' = pair
  . subst heq
    apply UpToDate.of_nothing
    exact hnone
  . apply (h pair' heq).of_same
    . rfl
    . exact Function.update_of_ne heq _ _

end

namespace Outbox

section

variable {Hash : Type} {calculateScheduleHash : List ScheduleEvent → Hash}

def JobSound (calculateScheduleHash : List ScheduleEvent → Hash) (store : Store Hash) (job : Job)
    : Prop :=
  match job with
  | .changing blast _ _ => store.lastHash blast.pair ≠ some (calculateScheduleHash blast.sched.events)
  | .flushing pendingSet _ => ∀ pair, store.HasPending pair → pair ∈ pendingSet
  | .flushBlasting flushed pendingSet _ =>
    (∀ pair, store.HasPending pair → pair ∈ pendingSet) ∧
      (flushed.queued = false → ¬ store.HasPending flushed.pair)
  | .flushWriting flushed pendingSet _ =>
    (∀ pair, store.HasPending pair → pair ∈ pendingSet) ∧
      (flushed.queued = false → ¬ store.HasPending flushed.pair)
  | _ => True

structure Inv (calculateScheduleHash : List ScheduleEvent → Hash) (m : Outbox Hash) : Prop where
  upToDate : ∀ pair, UpToDate calculateScheduleHash m.store pair
  created : ∀ row ∈ m.store.pending, row.createdAt ≤ m.clock
  job : JobSound calculateScheduleHash m.store m.job

theorem Inv.init : Inv calculateScheduleHash {} where
  upToDate := by
    intro pair row hrow
    cases hrow
  created := by
    intro row hrow
    cases hrow
  job := trivial

theorem Inv.goto {m : Outbox Hash} {job : Job} (h : Inv calculateScheduleHash m)
    (hjob : JobSound calculateScheduleHash m.store job)
    : Inv calculateScheduleHash { m with job := job } where
  upToDate := h.upToDate
  created := h.created
  job := hjob

theorem Inv.raised {m m' : Outbox Hash} (h : Inv calculateScheduleHash m) (hstep : m.raised = some m')
    : Inv calculateScheduleHash m' := by
  have hjob := h.job
  unfold Outbox.raised at hstep
  split at hstep
  all_goals
    next heq =>
      cases hstep
      try
        rw [heq] at hjob
        apply h.goto
        first | trivial | exact hjob | exact hjob.1

theorem jobSound_flushedOf {store : Store Hash} {pair : Pair} {pendingSet todo : List Pair}
    {fetched : Option Sched} {flushed : Flushed}
    (h : JobSound calculateScheduleHash store (.flushing pendingSet (pair :: todo)))
    (hflushed : flushedOf store pair pendingSet fetched = some flushed)
    : JobSound calculateScheduleHash store (.flushBlasting flushed pendingSet todo) := by
  refine ⟨h, ?_⟩
  unfold flushedOf at hflushed
  split at hflushed
  . rw [Option.map_eq_some_iff] at hflushed
    rcases hflushed with ⟨blast, _, rfl⟩
    nofun
  . next hnone =>
    rw [Option.map_eq_some_iff] at hflushed
    rcases hflushed with ⟨sched, _, rfl⟩
    intro _ hpending
    rw [← Store.getLatestPendingNotification_isSome, Option.isSome_iff_exists] at hpending
    rcases hpending with ⟨row, hrow⟩
    apply hnone row _ hrow
    apply List.contains_iff_mem.mpr
    apply h
    rw [← Store.getLatestPendingNotification_isSome, hrow]
    rfl

theorem Inv.refreshed {m : Outbox Hash} (h : Inv calculateScheduleHash m) (pair : Pair) (sched : Sched)
    (reads : CheckReads) (todo : List Pair)
    : Inv calculateScheduleHash { m with
        store := refreshSnapshot calculateScheduleHash m.store pair sched reads
        job := .checking todo } := by
  unfold refreshSnapshot
  split
  . exact ⟨h.upToDate, h.created, trivial⟩
  . exact h.goto trivial

theorem Inv.marked {m : Outbox Hash} (h : Inv calculateScheduleHash m) (pair : Pair) (todo : List Pair)
    : Inv calculateScheduleHash { m with
        store := m.store.markPendingNotificationsSent pair
        job := .checking todo } := by
  constructor
  . intro pair'
    by_cases heq : pair' = pair
    . apply UpToDate.of_nothing
      rw [Store.hasPending_markPendingNotificationsSent]
      exact fun hpending => hpending.1 heq
    . exact (h.upToDate pair').of_same (waiting_mark_ne m.store heq) rfl
  . intro row hrow
    rcases List.mem_map.mp hrow with ⟨row', hrow', rfl⟩
    have hcreated := h.created row' hrow'
    split
    . exact hcreated
    . exact hcreated
  . trivial

theorem upToDate_writeChange {store : Store Hash} {blast : Blast} {reads : CheckReads}
    {createdAt : Int} (h : ∀ pair, UpToDate calculateScheduleHash store pair)
    (hold : ∀ row ∈ store.pending, row.createdAt < createdAt)
    (hclear : reads.quiet.isQuietHours = true ∨ ¬ store.HasPending blast.pair) (pair : Pair)
    : UpToDate calculateScheduleHash (writeChange calculateScheduleHash store blast reads createdAt)
        pair := by
  unfold writeChange
  dsimp only
  cases hquiet : reads.quiet.isQuietHours with
  | true =>
    rw [if_pos rfl]
    by_cases heq : pair = blast.pair
    . subst heq
      intro row hrow
      rw [getLatestPendingNotification_save] at hrow
      . cases hrow
        refine ⟨blast.sched, rfl, ?_⟩
        exact Function.update_self _ _ _
      . intro row hrow _
        exact hold row hrow
    . apply (h pair).of_same
      . exact waiting_save_ne createdAt heq
      . exact Function.update_of_ne heq _ _
  | false =>
    rw [if_neg Bool.false_ne_true]
    by_cases heq : pair = blast.pair
    . subst heq
      apply UpToDate.of_nothing
      exact hclear.resolve_left (hquiet ▸ Bool.false_ne_true)
    . apply (h pair).of_same
      . rfl
      . exact Function.update_of_ne heq _ _

theorem created_writeChange {store : Store Hash} {blast : Blast} {reads : CheckReads}
    {createdAt : Int} (hold : ∀ row ∈ store.pending, row.createdAt < createdAt)
    : ∀ row ∈ (writeChange calculateScheduleHash store blast reads createdAt).pending,
        row.createdAt ≤ createdAt := by
  unfold writeChange
  dsimp only
  intro row hrow
  split at hrow
  . cases List.mem_append.mp hrow with
    | inl hrow => exact Int.le_of_lt (hold row hrow)
    | inr hrow =>
      rw [List.mem_singleton.mp hrow]
      exact Int.le_refl _
  . exact Int.le_of_lt (hold row hrow)

theorem Inv.changeCommitted {m : Outbox Hash} (h : Inv calculateScheduleHash m) {blast : Blast}
    {reads : CheckReads} {todo : List Pair} {createdAt : Int} {raises : Bool}
    (hclear : reads.quiet.isQuietHours = true ∨ ¬ m.store.HasPending blast.pair)
    (hclock : m.clock < createdAt)
    : Inv calculateScheduleHash
        (m.changeCommitted calculateScheduleHash blast reads todo createdAt raises) := by
  have hold : ∀ row ∈ m.store.pending, row.createdAt < createdAt :=
    fun row hrow => Int.lt_of_le_of_lt (h.created row hrow) hclock
  unfold Outbox.changeCommitted
  constructor
  . exact upToDate_writeChange h.upToDate hold hclear
  . exact created_writeChange hold
  . dsimp only
    cases raises || reads.quiet.isQuietHours with
    | true => trivial
    | false => trivial

theorem Inv.flushCommitted {m : Outbox Hash} {flushed : Flushed} {pendingSet todo : List Pair}
    (h : Inv calculateScheduleHash m) (hjob : m.job = .flushWriting flushed pendingSet todo)
    (reads : FlushReads)
    : Inv calculateScheduleHash
        (m.flushCommitted calculateScheduleHash flushed pendingSet todo reads) := by
  have hsound := h.job
  rw [hjob] at hsound
  rcases hsound with ⟨hset, hnone⟩
  unfold Outbox.flushCommitted
  dsimp only
  cases hqueued : flushed.queued with
  | true =>
    have hmarked := h.marked flushed.pair todo
    rw [if_pos rfl]
    constructor
    . apply upToDate_writeFlushed
      . rw [Store.hasPending_markPendingNotificationsSent]
        exact fun hpending => hpending.1 rfl
      . intro pair' _
        exact hmarked.upToDate pair'
    . exact hmarked.created
    . intro pair hpending
      apply hset
      exact (Store.hasPending_markPendingNotificationsSent.mp hpending).2
  | false =>
    rw [if_neg Bool.false_ne_true]
    constructor
    . apply upToDate_writeFlushed
      . exact hnone hqueued
      . intro pair' _
        exact h.upToDate pair'
    . exact h.created
    . exact hset

variable [DecidableEq Hash]

theorem Inv.pairRead {m : Outbox Hash} (h : Inv calculateScheduleHash m) (pair : Pair)
    (todo : List Pair) (sched : Option Sched) (reads : CheckReads)
    : Inv calculateScheduleHash (m.pairRead calculateScheduleHash pair todo sched reads) := by
  unfold Outbox.pairRead
  split
  . exact h.goto trivial
  . split
    . exact h.goto trivial
    . next hchanged => exact h.goto hchanged

def daytimeChange (m : Outbox Hash) (e : Event) : Option Pair :=
  match m.job, e with
  | .changing blast reads _, .committed _ _ =>
    if reads.quiet.isQuietHours then none else some blast.pair
  | _, _ => none

/--
No change is committed outside quiet hours while a row of its pair still waits.
-/
def NothingWaits (m : Outbox Hash) (e : Event) : Prop :=
  ∀ pair ∈ m.daytimeChange e, ¬ m.store.HasPending pair

instance (m : Outbox Hash) (e : Event) : Decidable (NothingWaits m e) :=
  inferInstanceAs (Decidable (∀ pair ∈ m.daytimeChange e, _))

theorem inv_step {m m' : Outbox Hash} {e : Event} (h : Inv calculateScheduleHash m)
    (hclear : NothingWaits m e) (hstep : step calculateScheduleHash m e = some m')
    : Inv calculateScheduleHash m' := by
  have hjob := h.job
  unfold step at hstep
  split at hstep
  . cases hstep
  . cases hstep
    exact h.goto trivial
  . exact h.raised hstep
  . cases hstep
    exact h.goto trivial
  . cases hstep
    exact h.pairRead _ _ _ _
  . cases hstep
    exact h.refreshed _ _ _ _
  . next heq =>
    split at hstep
    . next hclock =>
      cases hstep
      apply h.changeCommitted _ hclock
      unfold NothingWaits daytimeChange at hclear
      rw [heq] at hclear
      dsimp only at hclear
      split at hclear
      . next hquiet => exact .inl hquiet
      . exact .inr (hclear _ rfl)
    . cases hstep
  . cases hstep
    exact h.goto trivial
  . cases hstep
    exact h.marked _ _
  . cases hstep
    exact h.goto trivial
  . cases hstep
    apply h.goto
    intro pair hpending
    exact Store.hasPending_iff.mp hpending
  . next heq =>
    rw [heq] at hjob
    split at hstep
    . cases hstep
      exact h.goto hjob
    . next flushed hflushed =>
      cases hstep
      exact h.goto (jobSound_flushedOf hjob hflushed)
  . next heq =>
    rw [heq] at hjob
    cases hstep
    exact h.goto hjob
  . next heq =>
    cases hstep
    exact h.flushCommitted heq _
  . cases hstep
    exact h.goto trivial
  . cases hstep
    constructor
    . intro pair
      exact (h.upToDate pair).purge _
    . intro row hrow
      exact h.created row (List.mem_filter.mp hrow).1
    . trivial
  . cases hstep

theorem not_upToDate_step {m m' : Outbox Hash} {e : Event} (h : Inv calculateScheduleHash m)
    (hclear : ¬ NothingWaits m e) (hstep : step calculateScheduleHash m e = some m')
    : ¬ ∀ pair, UpToDate calculateScheduleHash m'.store pair := by
  unfold NothingWaits daytimeChange at hclear
  split at hclear
  . next blast reads todo createdAt raises heq =>
    split at hclear
    . simp at hclear
    . next hday =>
      have hpending : m.store.HasPending blast.pair := by simpa using hclear
      have hjob := h.job
      rw [heq] at hjob
      unfold step at hstep
      rw [heq] at hstep
      dsimp only at hstep
      split at hstep
      . cases hstep
        intro hall
        rw [← Store.getLatestPendingNotification_isSome, Option.isSome_iff_exists] at hpending
        rcases hpending with ⟨row, hrow⟩
        rcases h.upToDate blast.pair row hrow with ⟨sched, hsched, hhash⟩
        have hnew := hall blast.pair
        unfold changeCommitted writeChange at hnew
        dsimp only at hnew
        rw [if_neg hday] at hnew
        rcases hnew row hrow with ⟨sched', hsched', hhash'⟩
        -- the row holds the schedule of the hash that the change has replaced
        rw [hsched] at hsched'
        cases hsched'
        apply hjob
        rw [hhash, ← hhash']
        exact Function.update_self _ _ _
      . cases hstep
  . simp at hclear

/--
The latest row that waits always holds the schedule whose hash is stored, also where steps raise or are
cancelled, if and only if no change is committed outside quiet hours while a row of its pair waits.
-/
theorem upToDate_iff_nothingWaits {m : Outbox Hash} {es : List Event}
    (hrun : Run.exec (step calculateScheduleHash) {} es = some m)
    : Run.Always (step calculateScheduleHash)
        (fun m => ∀ pair, UpToDate calculateScheduleHash m.store pair) {} es
        ↔
      Run.StepsMeet (step calculateScheduleHash) NothingWaits {} es := by
  apply Run.always_iff_stepsMeet (I := Inv calculateScheduleHash)
  . intro m m' e h hclear hstep
    exact inv_step h hclear hstep
  . intro m h
    exact h.upToDate
  . intro m m' e h hclear hstep
    exact not_upToDate_step h hclear hstep
  . exact Inv.init
  . exact hrun

end

def flushedNight : List Event := [
  .cycleStarted [("kyiv", "1.1")],
  .pairRead (some (outageAt 20)) (readsAt 1),
  .committed 1 false,
  .cycleEnded,
  .flushStarted [("kyiv", "1.1")],
  .pairFetched none,
  .blastEnded,
  .flushCommitted morningReads false]

theorem upToDate_iff_nothingWaits_flushedNight
    : Run.Always (step id) (fun m => ∀ pair, UpToDate id m.store pair) {} flushedNight := by
  have hrun : (Run.exec (step id) {} flushedNight).isSome := by decide +kernel
  have hclear : Run.StepsMeet (step id) NothingWaits {} flushedNight := by decide +kernel
  exact (upToDate_iff_nothingWaits (Option.some_get hrun).symm).mpr hclear

/--
The blast of the flush raises, so that its row still waits when the schedule changes at nine. That blast
is cancelled, and the next flush takes the row.
-/
def staleRow : List Event := [
  .cycleStarted [("kyiv", "1.1")],
  .pairRead (some (outageAt 20)) (readsAt 1),
  .committed 1 false,
  .cycleEnded,
  .flushStarted [("kyiv", "1.1")],
  .pairFetched none,
  .raised,
  .bodyEnded,
  .purged 0,
  .cycleStarted [("kyiv", "1.1")],
  .pairRead (some (outageAt 24)) (readsAt 9),
  .committed 2 false,
  .cancelled,
  .flushStarted [("kyiv", "1.1")],
  .pairFetched none]

theorem not_upToDate_staleRow
    : ∃ m,
        Run.exec (step id) {} staleRow = some m ∧
        m.job = .flushBlasting {
          pair := ("kyiv", "1.1")
          queued := true
          scheduleData := .dumped (outageAt 20)
          sched := outageAt 20 } [("kyiv", "1.1")] [] ∧
        m.store.lastHash ("kyiv", "1.1") = some (outageAt 24).events ∧
        ¬ ∀ pair, UpToDate id m.store pair := by
  have hrun : (Run.exec (step id) {} staleRow).isSome := by decide +kernel
  have hjob : (Option.get _ hrun).job = .flushBlasting {
      pair := ("kyiv", "1.1")
      queued := true
      scheduleData := .dumped (outageAt 20)
      sched := outageAt 20 } [("kyiv", "1.1")] [] := by
    decide +kernel +revert
  have hhash : (Option.get _ hrun).store.lastHash ("kyiv", "1.1") = some (outageAt 24).events := by
    decide +kernel +revert
  have hlatest : ((Option.get _ hrun).store.getLatestPendingNotification ("kyiv", "1.1")).map
      (·.scheduleData) = some (.dumped (outageAt 20)) := by
    decide +kernel +revert
  refine ⟨_, (Option.some_get hrun).symm, hjob, hhash, ?_⟩
  intro h
  rcases Option.map_eq_some_iff.mp hlatest with ⟨row, hrow, hdata⟩
  rcases h _ row hrow with ⟨sched, hsched, hnew⟩
  rw [hdata] at hsched
  cases hsched
  rw [hhash] at hnew
  revert hnew
  decide +kernel

end Outbox

end Scheduler
