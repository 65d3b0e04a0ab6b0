import Mathlib.Data.Int.Order.Basic
import Mathlib.Data.List.Dedup
import Mathlib.Logic.Function.Basic
import VoltykBot.Lib.Latest
import VoltykBot.Schedule.Events

/-!
This module contains the tables that the schedule checker and the 06:00 flush share:
`schedule_checks`, `schedule_daily_snapshots` and `pending_notifications`.
-/

namespace Scheduler

/--
A text column that holds what `json.dumps` wrote, or something that `json.loads` rejects.
-/
inductive JsonText (α : Type) where
  | dumped (value : α)
  | malformed (raw : String)
  deriving DecidableEq, Repr

def JsonText.loads {α : Type} (text : JsonText α) : Option α :=
  match text with
  | .dumped value => some value
  | .malformed _ => none

structure UpdateType where
  todayUpdated : Bool := false
  todayUnchanged : Bool := false
  tomorrowAppeared : Bool := false
  tomorrowUpdated : Bool := false
  tomorrowCancelled : Bool := false
  dailyPlanned : Bool := false
  initial : Bool := false
  deriving DecidableEq, Repr

def UpdateType.isEmpty (u : UpdateType) : Bool := u = {}

structure DailySnapshot (Hash : Type) where
  scheduleData : JsonText Sched
  todayHash : Option Hash
  tomorrowHash : Option Hash

inductive PendingStatus where
  | pending
  | sent
  deriving DecidableEq, Repr

structure PendingNotification where
  pair : Pair
  scheduleData : JsonText Sched
  updateType : Option (JsonText UpdateType)
  changes : Option (JsonText Changes)
  status : PendingStatus := .pending
  createdAt : Int
  deriving DecidableEq

/--
`lastHash` is `none` both for a missing row of `schedule_checks` and for one without `last_hash`.
-/
structure Store (Hash : Type) where
  lastHash : Pair → Option Hash
  snapshots : Pair → Date → Option (DailySnapshot Hash)
  pending : List PendingNotification

structure Blast where
  pair : Pair
  sched : Sched
  updateType : UpdateType
  changes : Changes
  isDailyPlanned : Bool
  deriving DecidableEq

def PendingNotification.waits (pair : Pair) (row : PendingNotification) : Bool :=
  row.pair = pair ∧ row.status = .pending

namespace Store

variable {Hash : Type}

def setLastHash (store : Store Hash) (pair : Pair) (hash : Hash) : Store Hash :=
  { store with lastHash := Function.update store.lastHash pair (some hash) }

def upsertDailySnapshot (store : Store Hash) (pair : Pair) (date : Date) (row : DailySnapshot Hash)
    : Store Hash :=
  let days := Function.update (store.snapshots pair) date (some row)
  { store with snapshots := Function.update store.snapshots pair days }

def savePendingNotification (store : Store Hash) (row : PendingNotification) : Store Hash :=
  { store with pending := store.pending ++ [row] }

def getLatestPendingNotification (store : Store Hash) (pair : Pair) : Option PendingNotification :=
  (store.pending.filter (·.waits pair)).foldl (fun latest row =>
    match latest with
    | none => some row
    | some latest => if latest.createdAt < row.createdAt then some row else some latest) none

def getAllPendingRegionQueuePairs (store : Store Hash) : List Pair :=
  ((store.pending.filter (·.status = .pending)).map (·.pair)).dedup

def markPendingNotificationsSent (store : Store Hash) (pair : Pair) : Store Hash :=
  { store with
    pending := store.pending.map fun row => if row.waits pair then { row with status := .sent } else row }

/--
`delete_old_pending_notifications`, which does not ask for the status
-/
def deleteOldPendingNotifications (store : Store Hash) (cutoff : Int) : Store Hash :=
  { store with pending := store.pending.filter fun row => cutoff ≤ row.createdAt }

def HasPending (store : Store Hash) (pair : Pair) : Prop :=
  ∃ row ∈ store.pending, row.waits pair = true

instance (store : Store Hash) (pair : Pair) : Decidable (store.HasPending pair) :=
  inferInstanceAs (Decidable (∃ row ∈ store.pending, _))

theorem hasPending_iff {store : Store Hash} {pair : Pair}
    : store.HasPending pair ↔ pair ∈ store.getAllPendingRegionQueuePairs := by
  simp only [HasPending, getAllPendingRegionQueuePairs, PendingNotification.waits, List.mem_dedup,
    List.mem_map, List.mem_filter, decide_eq_true_eq]
  constructor
  . rintro ⟨row, hrow, rfl, hstatus⟩
    exact ⟨row, ⟨hrow, hstatus⟩, rfl⟩
  . rintro ⟨row, ⟨hrow, hstatus⟩, rfl⟩
    exact ⟨row, hrow, rfl, hstatus⟩

theorem getLatestPendingNotification_eq (store : Store Hash) (pair : Pair)
    : store.getLatestPendingNotification pair =
        Latest.latest PendingNotification.createdAt (store.pending.filter (·.waits pair)) := by
  unfold getLatestPendingNotification Latest.latest
  congr 1
  funext latest row
  cases latest with
  | none => rfl
  | some latest => rfl

theorem getLatestPendingNotification_isSome {store : Store Hash} {pair : Pair}
    : (store.getLatestPendingNotification pair).isSome ↔ store.HasPending pair := by
  rw [getLatestPendingNotification_eq, Option.isSome_iff_ne_none, Ne, Latest.latest_eq_none_iff,
    List.filter_eq_nil_iff]
  unfold HasPending
  simp only [not_forall, not_not, exists_prop]

theorem mem_of_getLatestPendingNotification {store : Store Hash} {pair : Pair}
    {row : PendingNotification} (h : store.getLatestPendingNotification pair = some row)
    : row ∈ store.pending ∧ row.waits pair = true := by
  rw [getLatestPendingNotification_eq] at h
  exact List.mem_filter.mp (Latest.mem_of_latest h)

theorem hasPending_markPendingNotificationsSent {store : Store Hash} {pair pair' : Pair}
    : (store.markPendingNotificationsSent pair).HasPending pair' ↔
        pair' ≠ pair ∧ store.HasPending pair' := by
  simp only [HasPending, markPendingNotificationsSent, List.mem_map]
  constructor
  . rintro ⟨_, ⟨row, hrow, rfl⟩, hwaits⟩
    split at hwaits
    . simp [PendingNotification.waits] at hwaits
    . next hother =>
      refine ⟨?_, row, hrow, hwaits⟩
      rintro rfl
      exact hother hwaits
  . rintro ⟨hne, row, hrow, hwaits⟩
    refine ⟨_, ⟨row, hrow, rfl⟩, ?_⟩
    rw [if_neg]
    . exact hwaits
    . intro hwaits'
      simp only [PendingNotification.waits, decide_eq_true_eq] at hwaits hwaits'
      exact hne (hwaits.1.symm.trans hwaits'.1)

theorem hasPending_savePendingNotification {store : Store Hash} {row : PendingNotification}
    {pair : Pair}
    : (store.savePendingNotification row).HasPending pair ↔
        store.HasPending pair ∨ row.waits pair = true := by
  simp only [HasPending, savePendingNotification, List.mem_append, List.mem_singleton]
  constructor
  . rintro ⟨row', hrow' | rfl, hwaits⟩
    . exact .inl ⟨row', hrow', hwaits⟩
    . exact .inr hwaits
  . rintro (⟨row', hrow', hwaits⟩ | hwaits)
    . exact ⟨row', .inl hrow', hwaits⟩
    . exact ⟨row, .inr rfl, hwaits⟩

end Store
end Scheduler
