import VoltykBot.AutoDelete.Queue
import VoltykBot.Lib.Attempts
import VoltykBot.Lib.Run

/-!
This module contains `auto_cleanup_loop`: it claims the first rows that are due, tries to delete the message of each,
and takes the rows off the queue whose messages are gone. The queue may change at any time.
-/

namespace AutoDelete

open Attempts

/--
`batch` stands at the loop over the claimed rows, and `deleting` in `_try_delete`.
-/
inductive Pc where
  | looping
  | claiming
  | batch (rest : List Row) (processedIds : List Nat)
  | deleting (row : Row) (rest : List Row) (processedIds : List Nat)
  | sleeping
  | returned
  deriving DecidableEq, Repr

/--
A run of `auto_cleanup_loop` with the queue it works on. No step reads `log`, the rows the loop over the claimed ones
has come to, with all that were due then, and the rows that were removed.
-/
structure Cleanup where
  queue : Queue
  now : Int
  pc : Pc := .looping
  log : List (Entry Nat) := []

/--
`deleted` is a deletion by another transaction, as when a user is deleted. `committed` stands for any end of the
transaction that has taken effect, and `rolledBack` for one that has not. `stopped` is the end of the loop after
`stop_auto_cleanup`.
-/
inductive Event where
  | elapsed (us : Nat)
  | enqueued (row : Row)
  | deleted (ids : List Nat)
  | roundStarted
  | stopped
  | claimed (locked : List Nat)
  | claimFailed
  | rowTaken
  | answered (outcome : Outcome)
  | committed
  | rolledBack
  | slept
  | cancelled

def startCleanup (queue : Queue) (now : Int) : Cleanup := { queue, now }

namespace Cleanup

variable (s : Cleanup)

def dueIds : List Nat := (s.queue.rows.filter fun row => row.deleteAt ≤ s.now).map Row.id

def remove (ids : List Nat) : Cleanup :=
  { s with
    queue := removeAutoDeleteEntries s.queue ids
    log := .removed (s.queue.ids.filter fun id => id ∈ ids) :: s.log }

def goto (pc pc' : Pc) : Option Cleanup := if s.pc = pc then some { s with pc := pc' } else none

def roundStarted : Option Cleanup := s.goto .looping .claiming

def stopped : Option Cleanup := s.goto .looping .returned

def claimed (locked : List Nat) : Option Cleanup :=
  match s.pc with
  | .claiming =>
    let due := claimDueAutoDelete s.queue s.now locked 200
    some { s with pc := if due = [] then .sleeping else .batch due [] }
  | _ => none

def claimFailed : Option Cleanup := s.goto .claiming .sleeping

def rowTaken : Option Cleanup :=
  match s.pc with
  | .batch (row :: rest) processedIds =>
    let s := { s with log := .attempted row.id s.dueIds :: s.log }
    match PyText.parseInt row.chatId.toList with
    | some _ => some { s with pc := .deleting row rest processedIds }
    | none => some { s with pc := .batch rest (processedIds ++ [row.id]) }
  | _ => none

def answered (outcome : Outcome) : Option Cleanup :=
  match s.pc with
  | .deleting row rest processedIds =>
    some { s with pc := .batch rest (if tryDelete outcome then processedIds ++ [row.id] else processedIds) }
  | _ => none

def committed : Option Cleanup :=
  match s.pc with
  | .batch [] processedIds =>
    some { (if processedIds = [] then s else s.remove processedIds) with pc := .sleeping }
  | _ => none

def rolledBack : Option Cleanup :=
  match s.pc with
  | .batch [] _ => some { s with pc := .sleeping }
  | _ => none

def slept : Option Cleanup := s.goto .sleeping .looping

def cancelled : Option Cleanup :=
  match s.pc with
  | .looping => none
  | .batch (_ :: _) _ => none
  | .returned => none
  | _ => some { s with pc := .returned }

def step (e : Event) : Option Cleanup :=
  match e with
  | .elapsed us => some { s with now := s.now + us }
  | .enqueued row => (enqueueAutoDelete s.queue row).map fun queue => { s with queue }
  | .deleted ids => some (s.remove ids)
  | .roundStarted => s.roundStarted
  | .stopped => s.stopped
  | .claimed locked => s.claimed locked
  | .claimFailed => s.claimFailed
  | .rowTaken => s.rowTaken
  | .answered outcome => s.answered outcome
  | .committed => s.committed
  | .rolledBack => s.rolledBack
  | .slept => s.slept
  | .cancelled => s.cancelled

variable {s}

theorem goto_of_pc {pc : Pc} (hpc : s.pc = pc) (pc' : Pc) : s.goto pc pc' = some { s with pc := pc' } := if_pos hpc

end Cleanup

def Pc.processedIds (pc : Pc) : List Nat :=
  match pc with
  | .batch _ processedIds => processedIds
  | .deleting _ _ processedIds => processedIds
  | _ => []

def Pc.current (pc : Pc) : List Nat :=
  match pc with
  | .deleting row _ _ => [row.id]
  | _ => []

def Pc.rest (pc : Pc) : List Nat :=
  match pc with
  | .batch rest _ => rest.map Row.id
  | .deleting _ rest _ => rest.map Row.id
  | _ => []

def Pc.taken (pc : Pc) : List Nat := pc.processedIds ++ pc.current

def Pc.held (pc : Pc) : List Nat := pc.taken ++ pc.rest

section

variable {row : Row} {rest : List Row} {processedIds : List Nat}

@[simp]
theorem Pc.taken_batch : (Pc.batch rest processedIds).taken = processedIds := List.append_nil processedIds

@[simp]
theorem Pc.taken_deleting : (Pc.deleting row rest processedIds).taken = processedIds ++ [row.id] := rfl

@[simp]
theorem Pc.rest_batch : (Pc.batch rest processedIds).rest = rest.map Row.id := rfl

@[simp]
theorem Pc.rest_deleting : (Pc.deleting row rest processedIds).rest = rest.map Row.id := rfl

end

namespace Cleanup

inductive Moves (s : Cleanup) : Event → Cleanup → Prop where
  | elapsed (us : Nat) : Moves s (.elapsed us) { s with now := s.now + us }
  | enqueued {row : Row} {queue : Queue} (hqueue : enqueueAutoDelete s.queue row = some queue)
    : Moves s (.enqueued row) { s with queue }
  | deleted (ids : List Nat) : Moves s (.deleted ids) (s.remove ids)
  | silent {e : Event} {pc pc' : Pc} (hpc : s.pc = pc) (hover : pc ≠ .returned) (htaken : pc'.taken = pc.taken)
      (hrest : pc'.rest = pc.rest)
    : Moves s e { s with pc := pc' }
  | claimed {locked : List Nat} (hpc : s.pc = .claiming)
    : Moves s (.claimed locked) { s with pc := .batch (claimDueAutoDelete s.queue s.now locked 200) [] }
  | attempted {row : Row} {rest : List Row} {processedIds : List Nat} {pc' : Pc}
      (hpc : s.pc = .batch (row :: rest) processedIds) (htaken : pc'.taken = processedIds ++ [row.id])
      (hrest : pc'.rest = rest.map Row.id)
    : Moves s .rowTaken { s with pc := pc', log := .attempted row.id s.dueIds :: s.log }
  | failed {row : Row} {rest : List Row} {processedIds : List Nat} {outcome : Outcome}
      (hpc : s.pc = .deleting row rest processedIds) (hfailed : tryDelete outcome = false)
    : Moves s (.answered outcome) { s with pc := .batch rest processedIds }
  | committed {processedIds : List Nat} (hpc : s.pc = .batch [] processedIds)
    : Moves s .committed { s.remove processedIds with pc := .sleeping }
  | rolledBack {processedIds : List Nat} (hpc : s.pc = .batch [] processedIds)
    : Moves s .rolledBack { s with pc := .sleeping }
  | cancelled : Moves s .cancelled { s with pc := .returned }

variable {s s' : Cleanup}

theorem moves_goto {e : Event} {pc pc' : Pc} (h : s.goto pc pc' = some s') (hover : pc ≠ .returned)
    (htaken : pc'.taken = pc.taken) (hrest : pc'.rest = pc.rest) : Moves s e s' := by
  unfold goto at h
  split at h
  . next hpc =>
    cases h
    exact .silent hpc hover htaken hrest
  . cases h

theorem moves_rowTaken (h : s.rowTaken = some s') : Moves s .rowTaken s' := by
  unfold rowTaken at h
  split at h
  . next row rest processedIds hpc =>
    dsimp at h
    split at h
    . cases h
      exact .attempted hpc Pc.taken_deleting rfl
    . cases h
      exact .attempted hpc Pc.taken_batch rfl
  . cases h

theorem moves_answered {outcome : Outcome} (h : s.answered outcome = some s')
    : Moves s (.answered outcome) s' := by
  unfold answered at h
  split at h
  . next row rest processedIds hpc =>
    cases h
    cases houtcome : tryDelete outcome with
    | true => exact .silent hpc nofun Pc.taken_batch rfl
    | false => exact .failed hpc houtcome
  . cases h

theorem moves_claimed {locked : List Nat} (h : s.claimed locked = some s') : Moves s (.claimed locked) s' := by
  unfold claimed at h
  split at h
  . next hpc =>
    cases h
    by_cases hdue : claimDueAutoDelete s.queue s.now locked 200 = []
    . rw [if_pos hdue]
      exact .silent hpc nofun rfl rfl
    . rw [if_neg hdue]
      exact .claimed hpc
  . cases h

theorem moves_committed (h : s.committed = some s') : Moves s .committed s' := by
  unfold committed at h
  split at h
  . next processedIds hpc =>
    cases h
    by_cases hprocessed : processedIds = []
    . subst hprocessed
      exact .silent hpc nofun rfl rfl
    . rw [if_neg hprocessed]
      exact .committed hpc
  . cases h

theorem moves_of_step {e : Event} (h : s.step e = some s') : Moves s e s' := by
  cases e with
  | elapsed us =>
    cases h
    exact .elapsed us
  | enqueued row =>
    rcases Option.map_eq_some_iff.mp h with ⟨queue, hqueue, rfl⟩
    exact .enqueued hqueue
  | deleted ids =>
    cases h
    exact .deleted ids
  | roundStarted => exact moves_goto h nofun rfl rfl
  | stopped => exact moves_goto h nofun rfl rfl
  | claimed locked => exact moves_claimed h
  | claimFailed => exact moves_goto h nofun rfl rfl
  | rowTaken => exact moves_rowTaken h
  | answered outcome => exact moves_answered h
  | committed => exact moves_committed h
  | rolledBack =>
    change s.rolledBack = some s' at h
    unfold rolledBack at h
    split at h
    . next hpc =>
      cases h
      exact .rolledBack hpc
    . cases h
  | slept => exact moves_goto h nofun rfl rfl
  | cancelled =>
    change s.cancelled = some s' at h
    unfold cancelled at h
    split at h
    . cases h
    . cases h
    . cases h
    . cases h
      exact .cancelled

end Cleanup

end AutoDelete
