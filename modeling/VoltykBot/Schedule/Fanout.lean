import VoltykBot.Lib.Keyset
import VoltykBot.Lib.Run
import VoltykBot.Lib.WorkerPool
import VoltykBot.Schedule.Clock

/-!
This module contains the fan-out of one notification: `_send_notifications_for_pair` reads the users of
the pair page by page, and `_send_notifications_to_users` hands each page to a pool of workers. The table
of the users may change at any time.
-/

namespace Scheduler.Fanout

def dbScanBatchSize : Nat := 1000

structure User where
  id : Nat
  region : String
  queue : String
  isActive : Bool
  deriving DecidableEq, Repr

structure Users where
  rows : List User
  ids_nodup : (rows.map User.id).Nodup
  ids_pos : ∀ row ∈ rows, 0 < row.id

def User.selected (region : String) (queue : Option String) (user : User) : Bool :=
  user.isActive && user.region == region && queue.all fun queue => user.queue == queue

def getActiveUsersByRegionCursor (users : Users) (region : String) (queue : Option String)
    (limit afterId : Nat) : List User :=
  Keyset.page User.id (User.selected region queue) limit afterId users.rows

inductive Attempt where
  | acquiring
  | sending
  | sleeping
  | reacquiring
  | resending
  deriving DecidableEq, Repr

/--
`acquired` ends the wait for `tg_rate_limiter`, `slept` the sleep of `retry_after + 1` seconds. The others
are what `_send_schedule_notification` can do, `raised` stands for any exception but
`TelegramRetryAfter`.
-/
inductive Outcome where
  | acquired
  | slept
  | returned
  | raised
  | retryAfter (seconds : Nat)
  deriving DecidableEq, Repr

def Attempt.next (attempt : Attempt) (outcome : Outcome) : WorkerPool.Next Attempt :=
  match attempt, outcome with
  | .acquiring, .acquired => .more .sending
  | .sending, .returned => .finished
  | .sending, .raised => .finished
  | .sending, .retryAfter _ => .more .sleeping
  | .sleeping, .slept => .more .reacquiring
  | .reacquiring, .acquired => .more .resending
  -- the second `except` takes every exception, another `TelegramRetryAfter` too
  | .resending, .returned => .finished
  | .resending, .raised => .finished
  | .resending, .retryAfter _ => .finished
  | _, _ => .blocked

def Attempt.rank (attempt : Attempt) : Nat :=
  match attempt with
  | .acquiring => 4
  | .sending => 3
  | .sleeping => 2
  | .reacquiring => 1
  | .resending => 0

theorem Attempt.rank_lt_of_next {attempt attempt' : Attempt} {outcome : Outcome}
    (h : attempt.next outcome = .more attempt') : attempt'.rank < attempt.rank := by
  unfold Attempt.next at h
  split at h
  all_goals cases h
  all_goals decide

theorem Attempt.next_ne_blocked (attempt : Attempt) : ∃ outcome, attempt.next outcome ≠ .blocked := by
  cases attempt with
  | acquiring => exact ⟨.acquired, by decide⟩
  | sending => exact ⟨.returned, by decide⟩
  | sleeping => exact ⟨.slept, by decide⟩
  | reacquiring => exact ⟨.acquired, by decide⟩
  | resending => exact ⟨.returned, by decide⟩

def notifyUser : WorkerPool.Job Attempt Outcome :=
  {
    start := .acquiring
    next := Attempt.next
    rank := Attempt.rank
    decreasing := Attempt.rank_lt_of_next
    live := Attempt.next_ne_blocked
  }

abbrev Pool := WorkerPool User Attempt

inductive Pc where
  | reading
  | sending (batch : List User) (pool : Pool)
  | returned
  deriving DecidableEq

/--
A call of `_send_notifications_for_pair` and the table it reads. `handed` records the users it handed
over, `processed` those a worker finished in the batches before this one; no step reads them.
-/
structure Call where
  table : Users
  afterId : Nat
  total : Nat
  pc : Pc
  handed : List User
  processed : List (Nat × User)

inductive Event where
  /-- other sessions commit whatever they did to the table -/
  | tableChanged (table : Users)
  | pageRead
  | worked (e : WorkerPool.Event Outcome)
  | batchSent

def Event.isOwn (e : Event) : Bool :=
  match e with
  | .tableChanged _ => false
  | _ => true

def startCall (table : Users) : Call :=
  { table, afterId := 0, total := 0, pc := .reading, handed := [], processed := [] }

section Step

variable (pair : Pair) (schedulerBatchSize : Nat)

def numWorkers (users : List User) : Nat := min schedulerBatchSize users.length

def capacity (users : List User) : Nat := numWorkers schedulerBatchSize users * 2

def sendNotificationsToUsers (users : List User) : Pool :=
  if users.isEmpty then
    { WorkerPool.start [] 0 with closed := true }
  else
    WorkerPool.start users (numWorkers schedulerBatchSize users)

def pageRead (call : Call) : Option Call :=
  match call.pc with
  | .reading =>
    let batch :=
      getActiveUsersByRegionCursor call.table pair.1 (some pair.2) dbScanBatchSize call.afterId
    if batch.isEmpty then
      some { call with pc := .returned }
    else
      some
        { call with
          pc := .sending batch (sendNotificationsToUsers schedulerBatchSize batch)
          handed := call.handed ++ batch
        }
  | _ => none

def worked (call : Call) (e : WorkerPool.Event Outcome) : Option Call :=
  match call.pc with
  | .sending batch pool =>
    match WorkerPool.step notifyUser (capacity schedulerBatchSize batch) pool e with
    | some pool => some { call with pc := .sending batch pool }
    | none => none
  | _ => none

def batchSent (call : Call) : Option Call :=
  match call.pc with
  | .sending batch pool =>
    if pool.closed then
      let call :=
        { call with total := call.total + batch.length, processed := call.processed ++ pool.done }
      if batch.length < dbScanBatchSize then
        some { call with pc := .returned }
      else
        match batch.getLast? with
        | some last => some { call with pc := .reading, afterId := last.id }
        -- `batch[-1]` of an empty list raises, but an empty batch is not sent
        | none => none
    else
      none
  | _ => none

def step (call : Call) (e : Event) : Option Call :=
  match e with
  | .tableChanged table => some { call with table }
  | .pageRead => pageRead pair schedulerBatchSize call
  | .worked e => worked schedulerBatchSize call e
  | .batchSent => batchSent call

end Step

def Pc.isSending (pc : Pc) : Bool :=
  match pc with
  | .sending _ _ => true
  | _ => false

def Call.workersOf (call : Call) (user : User) : List Nat :=
  (call.processed.filter fun entry => entry.2.id == user.id).map Prod.fst

def Users.Selects (users : Users) (pair : Pair) (id : Nat) : Prop :=
  ∃ user ∈ users.rows, user.id = id ∧ user.selected pair.1 (some pair.2) = true

section Steps

variable {pair : Pair} {schedulerBatchSize : Nat} {call call' : Call}

def nextBatch (pair : Pair) (call : Call) : List User :=
  getActiveUsersByRegionCursor call.table pair.1 (some pair.2) dbScanBatchSize call.afterId

theorem pageRead_cases (h : pageRead pair schedulerBatchSize call = some call')
    : call.pc = .reading
        ∧ (nextBatch pair call = [] ∧ call' = { call with pc := .returned }
            ∨ nextBatch pair call ≠ [] ∧ call' =
                { call with
                  pc := .sending (nextBatch pair call)
                    (sendNotificationsToUsers schedulerBatchSize (nextBatch pair call))
                  handed := call.handed ++ nextBatch pair call
                }) := by
  unfold pageRead at h
  split at h
  . next hpc =>
    refine ⟨hpc, ?_⟩
    dsimp only at h
    split at h
    . next hempty =>
      injection h with h
      exact Or.inl ⟨List.isEmpty_iff.mp hempty, h.symm⟩
    . next hne =>
      injection h with h
      exact Or.inr ⟨fun hnil => hne (List.isEmpty_iff.mpr hnil), h.symm⟩
  . cases h

theorem worked_cases {e : WorkerPool.Event Outcome} (h : worked schedulerBatchSize call e = some call')
    : ∃ batch pool pool', call.pc = .sending batch pool
        ∧ WorkerPool.step notifyUser (capacity schedulerBatchSize batch) pool e = some pool'
        ∧ call' = { call with pc := .sending batch pool' } := by
  unfold worked at h
  split at h
  . next batch pool hpc =>
    split at h
    . next pool' hstep =>
      injection h with h
      exact ⟨batch, pool, pool', hpc, hstep, h.symm⟩
    . cases h
  . cases h

theorem batchSent_cases (h : batchSent call = some call')
    : ∃ batch pool, call.pc = .sending batch pool ∧ pool.closed = true
        ∧ (batch.length < dbScanBatchSize ∧ call' =
              { call with
                total := call.total + batch.length
                processed := call.processed ++ pool.done
                pc := .returned
              }
            ∨ dbScanBatchSize ≤ batch.length ∧ ∃ last, batch.getLast? = some last ∧ call' =
                { call with
                  total := call.total + batch.length
                  processed := call.processed ++ pool.done
                  pc := .reading
                  afterId := last.id
                }) := by
  unfold batchSent at h
  split at h
  . next batch pool hpc =>
    split at h
    . next hclosed =>
      refine ⟨batch, pool, hpc, hclosed, ?_⟩
      dsimp only at h
      split at h
      . next hshort =>
        injection h with h
        exact Or.inl ⟨hshort, h.symm⟩
      . next hfull =>
        split at h
        . next last hlast =>
          injection h with h
          exact Or.inr ⟨Nat.le_of_not_lt hfull, last, hlast, h.symm⟩
        . cases h
    . cases h
  . cases h

theorem sendNotificationsToUsers_eq {users : List User} (h : users ≠ [])
    : sendNotificationsToUsers schedulerBatchSize users
        = WorkerPool.start users (numWorkers schedulerBatchSize users) := by
  unfold sendNotificationsToUsers
  rw [if_neg]
  intro hempty
  exact h (List.isEmpty_iff.mp hempty)

theorem numWorkers_pos {users : List User} (h : users ≠ []) (hsize : 1 ≤ schedulerBatchSize)
    : 0 < numWorkers schedulerBatchSize users := by
  have := List.length_pos_of_ne_nil h
  unfold numWorkers
  omega

theorem length_nextBatch_le : (nextBatch pair call).length ≤ dbScanBatchSize := by
  apply Keyset.length_page_le

theorem nextBatch_nodup : ((nextBatch pair call).map User.id).Nodup := by
  apply Keyset.page_nodup
  exact call.table.ids_nodup

theorem of_mem_nextBatch {user : User} (h : user ∈ nextBatch pair call)
    : user ∈ call.table.rows ∧ user.selected pair.1 (some pair.2) = true ∧ call.afterId < user.id :=
  Keyset.mem_of_mem_page h

theorem id_le_last {user last : User} (h : user ∈ nextBatch pair call)
    (hlast : (nextBatch pair call).getLast? = some last) : user.id ≤ last.id := by
  apply Keyset.key_le_last call.table.ids_nodup h hlast

end Steps

structure BatchSound (call : Call) (batch : List User) (pool : Pool) : Prop where
  nonempty : batch ≠ []
  short : batch.length ≤ dbScanBatchSize
  accounts : pool.Accounts batch
  workers : pool.closed = false → 0 < pool.workers.length
  handed : ∃ before, call.handed = before ++ batch ∧ (call.processed.map Prod.snd).Perm before
  last : ∀ last ∈ batch.getLast?, call.afterId < last.id ∧ ∀ user ∈ call.handed, user.id ≤ last.id

structure Sound (call : Call) : Prop where
  nodup : (call.handed.map User.id).Nodup
  cursor : call.pc = .reading → ∀ user ∈ call.handed, user.id ≤ call.afterId
  processed : call.pc.isSending = false → (call.processed.map Prod.snd).Perm call.handed
  sending : ∀ batch pool, call.pc = .sending batch pool → BatchSound call batch pool

section Sound

variable {pair : Pair} {schedulerBatchSize : Nat} {call call' : Call}

theorem sound_start (table : Users) : Sound (startCall table) := by
  constructor
  . exact List.nodup_nil
  . intro _
    exact List.forall_mem_nil _
  . intro _
    exact List.Perm.refl _
  . intro _ _ hpc
    cases hpc

theorem Sound.tableChanged (h : Sound call) (table : Users) : Sound { call with table } :=
  {
    nodup := h.nodup
    cursor := h.cursor
    processed := h.processed
    sending := fun batch pool hpc =>
      have hbatch := h.sending batch pool hpc
      {
        nonempty := hbatch.nonempty
        short := hbatch.short
        accounts := hbatch.accounts
        workers := hbatch.workers
        handed := hbatch.handed
        last := hbatch.last
      }
  }

theorem Sound.returned (h : Sound call) (hpc : call.pc = .reading)
    : Sound { call with pc := .returned } := by
  constructor
  . exact h.nodup
  . intro hreading
    cases hreading
  . intro _
    apply h.processed
    rw [hpc]
    rfl
  . intro _ _ hsending
    cases hsending

theorem Sound.pageRead (h : Sound call) (hsize : 1 ≤ schedulerBatchSize)
    (hstep : pageRead pair schedulerBatchSize call = some call') : Sound call' := by
  rcases pageRead_cases hstep with ⟨hpc, ⟨-, rfl⟩ | ⟨hne, rfl⟩⟩
  . exact h.returned hpc
  have hcursor := h.cursor hpc
  constructor
  . dsimp only
    rw [List.map_append, List.nodup_append]
    refine ⟨h.nodup, nextBatch_nodup, ?_⟩
    -- every id of the page is beyond the cursor, every id before is not
    intro id hid id' hid' heq
    rcases List.mem_map.mp hid with ⟨user, huser, rfl⟩
    rcases List.mem_map.mp hid' with ⟨user', huser', rfl⟩
    have hle := hcursor user huser
    have hlt := (of_mem_nextBatch huser').2.2
    omega
  . intro hreading
    cases hreading
  . intro hsending
    cases hsending
  . intro batch pool hsending
    injection hsending with hbatch hpool
    subst hbatch hpool
    rw [sendNotificationsToUsers_eq hne]
    constructor
    . exact hne
    . exact length_nextBatch_le
    . apply WorkerPool.accounts_start
    . intro _
      have := numWorkers_pos hne hsize
      simpa [WorkerPool.start] using this
    . refine ⟨call.handed, rfl, ?_⟩
      apply h.processed
      rw [hpc]
      rfl
    . intro last hlast
      have hbeyond := (of_mem_nextBatch (List.mem_of_getLast? hlast)).2.2
      refine ⟨hbeyond, fun user huser => ?_⟩
      rcases List.mem_append.mp huser with hbefore | hpage
      . have := hcursor user hbefore
        omega
      . exact id_le_last hpage hlast

theorem Sound.worked (h : Sound call) {e : WorkerPool.Event Outcome}
    (hstep : worked schedulerBatchSize call e = some call') : Sound call' := by
  rcases worked_cases hstep with ⟨batch, pool, pool', hpc, hpool, rfl⟩
  have hbatch := h.sending batch pool hpc
  constructor
  . exact h.nodup
  . intro hreading
    cases hreading
  . intro hsending
    cases hsending
  . intro _ _ hsending
    injection hsending with heq heq'
    subst heq heq'
    constructor
    . exact hbatch.nonempty
    . exact hbatch.short
    . exact hbatch.accounts.step hpool
    . intro hopen
      rw [WorkerPool.length_workers_step hpool hopen]
      exact hbatch.workers (WorkerPool.closed_step hpool hopen)
    . exact hbatch.handed
    . exact hbatch.last

theorem BatchSound.processed_perm {batch : List User} {pool : Pool} (h : BatchSound call batch pool)
    (hclosed : pool.closed = true)
    : ((call.processed ++ pool.done).map Prod.snd).Perm call.handed := by
  rcases h.handed with ⟨before, hhanded, hprocessed⟩
  rw [List.map_append, hhanded]
  exact hprocessed.append (h.accounts.done_perm hclosed).symm

theorem Sound.batchSent (h : Sound call) (hstep : batchSent call = some call') : Sound call' := by
  rcases batchSent_cases hstep with ⟨batch, pool, hpc, hclosed, ⟨-, rfl⟩ | ⟨-, last, hlast, rfl⟩⟩
  . have hbatch := h.sending batch pool hpc
    constructor
    . exact h.nodup
    . intro hreading
      cases hreading
    . intro _
      exact hbatch.processed_perm hclosed
    . intro _ _ hsending
      cases hsending
  . have hbatch := h.sending batch pool hpc
    constructor
    . exact h.nodup
    . intro _
      exact (hbatch.last last hlast).2
    . intro _
      exact hbatch.processed_perm hclosed
    . intro _ _ hsending
      cases hsending

theorem Sound.step (h : Sound call) (hsize : 1 ≤ schedulerBatchSize) {e : Event}
    (hstep : step pair schedulerBatchSize call e = some call') : Sound call' := by
  cases e with
  | tableChanged table =>
    injection hstep with hstep
    rw [← hstep]
    exact h.tableChanged table
  | pageRead => exact h.pageRead hsize hstep
  | worked e => exact h.worked hstep
  | batchSent => exact h.batchSent hstep

end Sound

def Covers (id : Nat) (call : Call) : Prop :=
  match call.pc with
  | .reading => id ≤ call.afterId → id ∈ call.handed.map User.id
  | .sending batch _ =>
    (batch.length < dbScanBatchSize → id ∈ call.handed.map User.id)
      ∧ ∀ last ∈ batch.getLast?, id ≤ last.id → id ∈ call.handed.map User.id
  | .returned => id ∈ call.handed.map User.id

section Covers

variable {pair : Pair} {schedulerBatchSize : Nat} {call call' : Call} {id : Nat}

theorem Users.Selects.pos {users : Users} (h : users.Selects pair id) : 0 < id := by
  rcases h with ⟨user, huser, rfl, -⟩
  exact users.ids_pos user huser

theorem covers_start {table : Users} (h : table.Selects pair id) : Covers id (startCall table) := by
  intro hle
  have hpos := h.pos
  simp only [startCall] at hle
  omega

theorem Users.Selects.mem_nextBatch (h : call.table.Selects pair id) (hafter : call.afterId < id)
    (hpage : (nextBatch pair call).length < dbScanBatchSize
      ∨ ∃ last, (nextBatch pair call).getLast? = some last ∧ id ≤ last.id)
    : id ∈ (nextBatch pair call).map User.id := by
  rcases h with ⟨user, huser, rfl, hselected⟩
  apply List.mem_map_of_mem
  rcases hpage with hshort | ⟨last, hlast, hle⟩
  . exact Keyset.mem_page_of_short call.table.ids_nodup huser hselected hafter hshort
  . exact Keyset.mem_page_of_le_last call.table.ids_nodup huser hselected hafter hlast hle

theorem Covers.pageRead (h : Covers id call) (hselects : call.table.Selects pair id)
    (hstep : pageRead pair schedulerBatchSize call = some call') : Covers id call' := by
  have hcases := pageRead_cases hstep
  have hpc := hcases.1
  unfold Covers at h
  rw [hpc] at h
  dsimp only at h
  rcases hcases.2 with ⟨hempty, rfl⟩ | ⟨hne, rfl⟩
  . dsimp only [Covers]
    by_cases hle : id ≤ call.afterId
    . exact h hle
    . have hmem := hselects.mem_nextBatch (Nat.lt_of_not_le hle) (Or.inl (by rw [hempty]; decide))
      rw [hempty] at hmem
      cases hmem
  . dsimp only [Covers]
    rw [List.map_append]
    constructor
    . intro hshort
      rw [List.mem_append]
      by_cases hle : id ≤ call.afterId
      . exact Or.inl (h hle)
      . exact Or.inr (hselects.mem_nextBatch (Nat.lt_of_not_le hle) (Or.inl hshort))
    . intro last hlast hlast'
      rw [List.mem_append]
      by_cases hle : id ≤ call.afterId
      . exact Or.inl (h hle)
      . exact Or.inr (hselects.mem_nextBatch (Nat.lt_of_not_le hle) (Or.inr ⟨last, hlast, hlast'⟩))

theorem Covers.worked (h : Covers id call) {e : WorkerPool.Event Outcome}
    (hstep : worked schedulerBatchSize call e = some call') : Covers id call' := by
  rcases worked_cases hstep with ⟨batch, pool, pool', hpc, -, rfl⟩
  unfold Covers at h
  rw [hpc] at h
  exact h

theorem Covers.batchSent (h : Covers id call) (hstep : batchSent call = some call')
    : Covers id call' := by
  rcases batchSent_cases hstep with ⟨batch, pool, hpc, -, ⟨hshort, rfl⟩ | ⟨-, last, hlast, rfl⟩⟩
  . unfold Covers at h
    rw [hpc] at h
    exact h.1 hshort
  . unfold Covers at h
    rw [hpc] at h
    exact h.2 last hlast

theorem Covers.step (h : Covers id call) (hselects : call.table.Selects pair id) {e : Event}
    (hstep : step pair schedulerBatchSize call e = some call') : Covers id call' := by
  cases e with
  | tableChanged table =>
    injection hstep with hstep
    rw [← hstep]
    exact h
  | pageRead => exact h.pageRead hselects hstep
  | worked e => exact h.worked hstep
  | batchSent => exact h.batchSent hstep

theorem covers_run {table : Users} {es : List Event}
    (hselects : Run.Always (Fanout.step pair schedulerBatchSize)
      (fun call => call.table.Selects pair id) (startCall table) es)
    (hrun : Run.exec (Fanout.step pair schedulerBatchSize) (startCall table) es = some call)
    : Covers id call :=
  Run.invariant (fun h hselects hstep => h.step hselects hstep) (covers_start hselects.head)
    hselects.stepsMeet hrun

end Covers

def stepsPerPage : Nat := dbScanBatchSize * (Attempt.acquiring.rank + 4) + 3

def stepsLeft (bound : Nat) (call : Call) : Nat :=
  match call.pc with
  | .reading => (bound - call.afterId) * stepsPerPage + stepsPerPage
  | .sending batch pool =>
    pool.weight notifyUser + 1
      + if batch.length < dbScanBatchSize then
          0
        else
          batch.getLast?.elim 0 fun last => (bound - last.id) * stepsPerPage + stepsPerPage
  | .returned => 0

section Termination

variable {pair : Pair} {schedulerBatchSize : Nat} {call call' : Call} {bound : Nat}

theorem weight_sendNotificationsToUsers_le (schedulerBatchSize : Nat) {users : List User} (h : users ≠ [])
    (hshort : users.length ≤ dbScanBatchSize)
    : (sendNotificationsToUsers schedulerBatchSize users).weight notifyUser + 2 ≤ stepsPerPage := by
  rw [sendNotificationsToUsers_eq h, WorkerPool.weight_start]
  have := Nat.mul_le_mul_right (Attempt.acquiring.rank + 4) hshort
  unfold stepsPerPage
  simp only [notifyUser]
  omega

theorem stepsLeft_pageRead (hbound : ∀ row ∈ call.table.rows, row.id ≤ bound)
    (hstep : pageRead pair schedulerBatchSize call = some call')
    : stepsLeft bound call' + 1 ≤ stepsLeft bound call := by
  have hcases := pageRead_cases hstep
  have hleft : stepsLeft bound call = (bound - call.afterId) * stepsPerPage + stepsPerPage := by
    unfold stepsLeft
    rw [hcases.1]
  rw [hleft]
  rcases hcases.2 with ⟨-, rfl⟩ | ⟨hne, rfl⟩
  . simp only [stepsLeft, stepsPerPage]
    omega
  . have hweight := weight_sendNotificationsToUsers_le schedulerBatchSize hne
      length_nextBatch_le
    dsimp only [stepsLeft]
    split
    . omega
    . have hlast := List.getLast?_eq_some_getLast hne
      have hmem := of_mem_nextBatch (List.getLast_mem hne)
      have hle := hbound _ hmem.1
      -- the cursor moves on by one at least
      have hpages := Nat.mul_le_mul_right stepsPerPage
        (show bound - ((nextBatch pair call).getLast hne).id + 1 ≤ bound - call.afterId by omega)
      rw [Nat.add_mul, Nat.one_mul] at hpages
      rw [hlast]
      dsimp only [Option.elim]
      omega

theorem stepsLeft_worked {e : WorkerPool.Event Outcome}
    (hstep : worked schedulerBatchSize call e = some call')
    : stepsLeft bound call' + 1 ≤ stepsLeft bound call := by
  rcases worked_cases hstep with ⟨batch, pool, pool', hpc, hpool, rfl⟩
  have := WorkerPool.weight_step hpool
  unfold stepsLeft
  rw [hpc]
  dsimp only
  omega

theorem stepsLeft_batchSent (hstep : batchSent call = some call')
    : stepsLeft bound call' + 1 ≤ stepsLeft bound call := by
  rcases batchSent_cases hstep with ⟨batch, pool, hpc, -, ⟨-, rfl⟩ | ⟨hfull, last, hlast, rfl⟩⟩
  . unfold stepsLeft
    rw [hpc]
    dsimp only
    omega
  . unfold stepsLeft
    rw [hpc]
    dsimp only
    rw [if_neg (Nat.not_lt.mpr hfull), hlast]
    dsimp only [Option.elim]
    omega

theorem stepsLeft_step (hbound : ∀ row ∈ call.table.rows, row.id ≤ bound) {e : Event}
    (hstep : step pair schedulerBatchSize call e = some call')
    : stepsLeft bound call' + (if e.isOwn then 1 else 0) ≤ stepsLeft bound call := by
  cases e with
  | tableChanged table =>
    injection hstep with hstep
    rw [← hstep]
    exact Nat.le_refl _
  | pageRead => exact stepsLeft_pageRead hbound hstep
  | worked e => exact stepsLeft_worked hstep
  | batchSent => exact stepsLeft_batchSent hstep

theorem countP_isOwn_le {table : Users} {es : List Event}
    (hbound : Run.Always (step pair schedulerBatchSize)
      (fun call => ∀ row ∈ call.table.rows, row.id ≤ bound) (startCall table) es)
    (hrun : Run.exec (step pair schedulerBatchSize) (startCall table) es = some call)
    : es.countP Event.isOwn ≤ (bound + 1) * stepsPerPage := by
  have hcount := Run.countP_add_le (stepsLeft bound) Event.isOwn (I := fun _ => True)
    (C := fun call _ => ∀ row ∈ call.table.rows, row.id ≤ bound) (fun _ _ _ => trivial)
    (fun _ hbound hstep => stepsLeft_step hbound hstep) trivial hbound.stepsMeet hrun
  have hstart : stepsLeft bound (startCall table) = (bound + 1) * stepsPerPage := by
    simp only [stepsLeft, startCall, Nat.sub_zero, Nat.add_mul, Nat.one_mul]
  omega

theorem step_enabled (h : Sound call) (hsize : 1 ≤ schedulerBatchSize) (hpc : call.pc ≠ .returned)
    : ∃ e, Event.isOwn e = true ∧ (step pair schedulerBatchSize call e).isSome := by
  cases hcase : call.pc with
  | reading =>
    refine ⟨.pageRead, rfl, ?_⟩
    dsimp only [step]
    unfold pageRead
    rw [hcase]
    dsimp only
    split
    . rfl
    . rfl
  | sending batch pool =>
    have hbatch := h.sending batch pool hcase
    cases hclosed : pool.closed with
    | true =>
      refine ⟨.batchSent, rfl, ?_⟩
      dsimp only [step]
      unfold batchSent
      rw [hcase]
      dsimp only
      rw [if_pos hclosed, List.getLast?_eq_some_getLast hbatch.nonempty]
      split
      . rfl
      . rfl
    | false =>
      have hcapacity : 0 < capacity schedulerBatchSize batch := by
        have := numWorkers_pos hbatch.nonempty hsize
        unfold capacity
        omega
      rcases WorkerPool.step_enabled notifyUser hbatch.accounts hcapacity
        (hbatch.workers hclosed) hclosed with ⟨e, henabled⟩
      refine ⟨.worked e, rfl, ?_⟩
      dsimp only [step]
      unfold worked
      rw [hcase]
      dsimp only
      rw [Option.isSome_iff_exists] at henabled
      rcases henabled with ⟨pool', hpool⟩
      rw [hpool]
      rfl
  | returned => exact absurd hcase hpc

end Termination

theorem filter_id_eq_singleton {entries : List (Nat × User)}
    (hnodup : (entries.map fun entry => entry.2.id).Nodup) {entry : Nat × User} (hmem : entry ∈ entries)
    : (entries.filter fun other => other.2.id == entry.2.id) = [entry] := by
  induction entries with
  | nil => cases hmem
  | cons first rest ih =>
    rw [List.map_cons, List.nodup_cons] at hnodup
    rcases List.mem_cons.mp hmem with rfl | hrest
    . have hothers : (rest.filter fun other => other.2.id == entry.2.id) = [] := by
        rw [List.filter_eq_nil_iff]
        intro other hother heq
        rw [beq_iff_eq] at heq
        exact hnodup.1 (heq ▸ List.mem_map_of_mem hother)
      rw [List.filter_cons, if_pos (beq_self_eq_true entry.2.id), hothers]
    . have hne : ¬ (first.2.id == entry.2.id) = true := by
        intro heq
        rw [beq_iff_eq] at heq
        exact hnodup.1 (heq ▸ List.mem_map_of_mem (f := fun entry : Nat × User => entry.2.id) hrest)
      rw [List.filter_cons, if_neg hne]
      exact ih hnodup.2 hrest

theorem Sound.workersOf_eq {call : Call} (h : Sound call) (hpc : call.pc.isSending = false) {user : User}
    (huser : user ∈ call.handed) : ∃ worker, call.workersOf user = [worker] := by
  have hperm := h.processed hpc
  have hnodup : (call.processed.map fun entry => entry.2.id).Nodup := by
    have := (hperm.map User.id).nodup_iff.mpr h.nodup
    rwa [List.map_map] at this
  rcases List.mem_map.mp (hperm.mem_iff.mpr huser) with ⟨entry, hentry, rfl⟩
  refine ⟨entry.1, ?_⟩
  unfold Call.workersOf
  rw [filter_id_eq_singleton hnodup hentry]
  rfl

/--
What a blast owes to the users of its pair: nobody is handed over twice; once it has returned everyone
whom the query selected in all states of the run is handed over; a pool is left when each user of the
batch is done by one worker; between two batches each user handed over was finished by one worker; the
call takes finitely many steps, and it is not stuck before it returns.
-/
structure ReachesEachOnce (pair : Pair) (schedulerBatchSize : Nat) (table : Users) (es : List Event)
    (call : Call) : Prop where
  handedOnce : (call.handed.map User.id).Nodup
  handsOver : call.pc = .returned → ∀ id,
    Run.Always (step pair schedulerBatchSize) (fun call => call.table.Selects pair id)
      (startCall table) es → id ∈ call.handed.map User.id
  batchDone : ∀ batch pool, call.pc = .sending batch pool → pool.closed = true →
    batch.Perm (pool.done.map Prod.snd)
  processedOnce : call.pc.isSending = false → ∀ user ∈ call.handed,
    ∃ worker, call.workersOf user = [worker]
  ends : ∀ bound,
    Run.Always (step pair schedulerBatchSize) (fun call => ∀ row ∈ call.table.rows, row.id ≤ bound)
      (startCall table) es → es.countP Event.isOwn ≤ (bound + 1) * stepsPerPage
  notStuck : call.pc ≠ .returned →
    ∃ e, Event.isOwn e = true ∧ (step pair schedulerBatchSize call e).isSome

/--
A blast reaches everyone once, in every run: however the table changes meanwhile, whatever becomes of
the single notifications and however the workers are scheduled.
-/
theorem reachesEachOnce (pair : Pair) (schedulerBatchSize : Nat) (hsize : 1 ≤ schedulerBatchSize)
    (table : Users) (es : List Event) (call : Call)
    (hrun : Run.exec (step pair schedulerBatchSize) (startCall table) es = some call)
    : ReachesEachOnce pair schedulerBatchSize table es call := by
  have hsound : Sound call :=
    Run.invariant' (fun h hstep => h.step hsize hstep) (sound_start table) hrun
  constructor
  . exact hsound.nodup
  . intro hpc id hselects
    have hcovers := covers_run hselects hrun
    unfold Covers at hcovers
    rw [hpc] at hcovers
    exact hcovers
  . intro batch pool hpc hclosed
    exact (hsound.sending batch pool hpc).accounts.done_perm hclosed
  . intro hpc user huser
    exact hsound.workersOf_eq hpc huser
  . intro bound hbound
    exact countP_isOwn_le hbound hrun
  . intro hpc
    exact step_enabled hsound hsize hpc

def firstUsers : Users :=
  {
    rows := [⟨1, "kyiv", "1.1", true⟩, ⟨2, "kyiv", "1.1", true⟩, ⟨3, "kyiv", "2.1", true⟩]
    ids_nodup := by decide
    ids_pos := by decide
  }

def laterUsers : Users :=
  {
    rows :=
      [⟨1, "kyiv", "1.1", true⟩, ⟨2, "kyiv", "1.1", false⟩, ⟨3, "kyiv", "1.1", true⟩,
        ⟨4, "kyiv", "1.1", true⟩]
    ids_nodup := by decide
    ids_pos := by decide
  }

def sampleEvents : List Event :=
  [.pageRead, .worked .put, .worked (.take 0), .worked (.progress 0 .acquired),
    .worked (.progress 0 (.retryAfter 5)), .tableChanged laterUsers, .worked .put, .worked (.take 1),
    .worked (.progress 1 .acquired), .worked (.progress 1 .raised), .worked (.rested 1),
    .worked (.progress 0 .slept), .worked (.progress 0 .acquired), .worked (.progress 0 .returned),
    .worked .joined, .batchSent]

theorem sampleEvents_run
    : (Run.exec (step ("kyiv", "1.1") 50) (startCall firstUsers) sampleEvents).isSome := by
  decide +kernel

theorem reachesEachOnce_sampleEvents
    : ReachesEachOnce ("kyiv", "1.1") 50 firstUsers sampleEvents
        ((Run.exec (step ("kyiv", "1.1") 50) (startCall firstUsers) sampleEvents).get
          sampleEvents_run) :=
  reachesEachOnce ("kyiv", "1.1") 50 (by decide) firstUsers sampleEvents _
    (Option.some_get sampleEvents_run).symm

end Scheduler.Fanout
