import Mathlib.Data.List.Infix
import Mathlib.Data.List.Sort
import VoltykBot.Lib.PyText

/-!
This module contains the table of the messages that are to be deleted, its queries, and what `_try_delete` makes of
an answer of Telegram.
-/

namespace AutoDelete

/--
`deleteAt` is in microseconds.
-/
structure Row where
  id : Nat
  chatId : String
  messageId : Int
  deleteAt : Int
  deriving DecidableEq, Repr

def Row.message (row : Row) : String × Int := (row.chatId, row.messageId)

/--
The table `auto_delete_queue`: `id` is the primary key, and a message is in one row only. `usedIds` are the ids that
the sequence has given out.
-/
structure Queue where
  rows : List Row
  usedIds : List Nat
  ids_nodup : (rows.map Row.id).Nodup
  messages_nodup : (rows.map Row.message).Nodup
  ids_used : ∀ row ∈ rows, row.id ∈ usedIds

def Queue.ids (queue : Queue) : List Nat := queue.rows.map Row.id

def Queue.Holds (queue : Queue) (message : String × Int) : Prop := message ∈ queue.rows.map Row.message

instance (queue : Queue) (message : String × Int) : Decidable (queue.Holds message) :=
  inferInstanceAs (Decidable (_ ∈ _))

def Row.meet (new row : Row) : Row :=
  if row.message = new.message then { row with deleteAt := min row.deleteAt new.deleteAt } else row

theorem Row.meet_id (new row : Row) : (new.meet row).id = row.id := by
  unfold meet
  split
  . rfl
  . rfl

theorem Row.meet_message (new row : Row) : (new.meet row).message = row.message := by
  unfold meet
  split
  . rfl
  . rfl

theorem Row.meet_deleteAt_le (new row : Row) : (new.meet row).deleteAt ≤ row.deleteAt := by
  unfold meet
  split
  . exact Int.min_le_left _ _
  . exact Int.le_refl _

theorem map_map_meet {β : Type} {f : Row → β} {new : Row} (hf : ∀ row, f (new.meet row) = f row) (rows : List Row)
    : (rows.map new.meet).map f = rows.map f := by
  rw [List.map_map]
  exact List.map_congr_left fun row _ => hf row

/--
The row has the id that the sequence gives it; it is none that was given before.
-/
def enqueueAutoDelete (queue : Queue) (new : Row) : Option Queue :=
  if hid : new.id ∈ queue.usedIds then
    none
  else if hmessage : queue.Holds new.message then
    some {
      rows := queue.rows.map new.meet
      usedIds := new.id :: queue.usedIds
      ids_nodup := map_map_meet new.meet_id queue.rows ▸ queue.ids_nodup
      messages_nodup := map_map_meet new.meet_message queue.rows ▸ queue.messages_nodup
      ids_used := by
        intro row hrow
        rcases List.mem_map.mp hrow with ⟨old, hold, rfl⟩
        rw [Row.meet_id]
        exact List.mem_cons_of_mem new.id (queue.ids_used old hold) }
  else
    some {
      rows := new :: queue.rows
      usedIds := new.id :: queue.usedIds
      ids_nodup := by
        rw [List.map_cons, List.nodup_cons]
        refine ⟨?_, queue.ids_nodup⟩
        intro hmem
        rcases List.mem_map.mp hmem with ⟨row, hrow, heq⟩
        exact hid (heq ▸ queue.ids_used row hrow)
      messages_nodup := by
        rw [List.map_cons, List.nodup_cons]
        exact ⟨hmessage, queue.messages_nodup⟩
      ids_used := by
        rw [List.forall_mem_cons]
        exact ⟨List.mem_cons_self, fun row hrow => List.mem_cons_of_mem new.id (queue.ids_used row hrow)⟩ }

/--
The order of `idx_auto_delete_queue_due`.
-/
def Row.Precedes (a b : Row) : Prop := a.deleteAt < b.deleteAt ∨ a.deleteAt = b.deleteAt ∧ a.id ≤ b.id

instance (a b : Row) : Decidable (a.Precedes b) := inferInstanceAs (Decidable (_ ∨ _))

def claimDueAutoDelete (queue : Queue) (now : Int) (locked : List Nat) (limit : Nat := 200) : List Row :=
  let due := queue.rows.filter fun row => row.deleteAt ≤ now ∧ row.id ∉ locked
  (due.insertionSort Row.Precedes).take limit

def removeAutoDeleteEntries (queue : Queue) (ids : List Nat) : Queue where
  rows := queue.rows.filter fun row => row.id ∉ ids
  usedIds := queue.usedIds
  ids_nodup := queue.ids_nodup.sublist (List.filter_sublist.map Row.id)
  messages_nodup := queue.messages_nodup.sublist (List.filter_sublist.map Row.message)
  ids_used := fun row hrow => queue.ids_used row (List.mem_of_mem_filter hrow)

/--
How a call of `delete_message` ends. `text` is what `str` makes of the exception.
-/
inductive Outcome where
  | deleted
  | forbidden
  | badRequest (text : String)
  | raised
  deriving DecidableEq, Repr

def tryDelete (outcome : Outcome) : Bool :=
  match outcome with
  | .deleted => true
  | .forbidden => true
  | .badRequest text =>
    let msg := PyText.lower text.toList
    decide ("message to delete not found".toList <:+: msg) || decide ("message can't be deleted".toList <:+: msg)
  | .raised => false

variable {queue queue' : Queue} {new row : Row} {now : Int} {locked : List Nat} {limit : Nat}

theorem mem_ids {id : Nat} : id ∈ queue.ids ↔ ∃ row ∈ queue.rows, row.id = id := List.mem_map

theorem mem_claimDueAutoDelete (h : row ∈ claimDueAutoDelete queue now locked limit)
    : row ∈ queue.rows ∧ row.deleteAt ≤ now ∧ row.id ∉ locked := by
  unfold claimDueAutoDelete at h
  have hdue := (List.mem_insertionSort _).mp (List.mem_of_mem_take h)
  rwa [List.mem_filter, decide_eq_true_iff] at hdue

theorem claimDueAutoDelete_ne_nil (hrow : row ∈ queue.rows) (hdue : row.deleteAt ≤ now) (hfree : row.id ∉ locked)
    (hlimit : limit ≠ 0) : claimDueAutoDelete queue now locked limit ≠ [] := by
  unfold claimDueAutoDelete
  intro hnil
  rw [List.take_eq_nil_iff, or_iff_right hlimit] at hnil
  have hmem : row ∈ queue.rows.filter fun row => row.deleteAt ≤ now ∧ row.id ∉ locked := by
    rw [List.mem_filter, decide_eq_true_iff]
    exact ⟨hrow, hdue, hfree⟩
  rw [← List.mem_insertionSort Row.Precedes, hnil] at hmem
  cases hmem

theorem nodup_claimDueAutoDelete : ((claimDueAutoDelete queue now locked limit).map Row.id).Nodup := by
  unfold claimDueAutoDelete
  apply List.Nodup.sublist ((List.take_sublist limit _).map Row.id)
  rw [((List.perm_insertionSort _ _).map Row.id).nodup_iff]
  exact queue.ids_nodup.sublist (List.filter_sublist.map Row.id)

theorem mem_of_enqueueAutoDelete (h : enqueueAutoDelete queue new = some queue') (hrow : row ∈ queue'.rows)
    : row.id ∉ queue.usedIds ∨ ∃ old ∈ queue.rows, old.id = row.id ∧ row.deleteAt ≤ old.deleteAt := by
  unfold enqueueAutoDelete at h
  split at h
  . cases h
  . next hid =>
    split at h
    . cases h
      rcases List.mem_map.mp hrow with ⟨old, hold, rfl⟩
      exact Or.inr ⟨old, hold, (new.meet_id old).symm, new.meet_deleteAt_le old⟩
    . cases h
      rcases List.mem_cons.mp hrow with rfl | hold
      . exact Or.inl hid
      . exact Or.inr ⟨row, hold, rfl, Int.le_refl _⟩

theorem usedIds_enqueueAutoDelete (h : enqueueAutoDelete queue new = some queue')
    : queue'.usedIds = new.id :: queue.usedIds := by
  unfold enqueueAutoDelete at h
  split at h
  . cases h
  . split at h
    . cases h
      rfl
    . cases h
      rfl

theorem mem_removeAutoDeleteEntries {ids : List Nat}
    : row ∈ (removeAutoDeleteEntries queue ids).rows ↔ row ∈ queue.rows ∧ row.id ∉ ids := by
  unfold removeAutoDeleteEntries
  rw [List.mem_filter, decide_eq_true_iff]

theorem mem_ids_removeAutoDeleteEntries {ids : List Nat} {id : Nat}
    : id ∈ (removeAutoDeleteEntries queue ids).ids ↔ id ∈ queue.ids ∧ id ∉ ids := by
  rw [mem_ids, mem_ids]
  constructor
  . rintro ⟨row, hrow, rfl⟩
    rw [mem_removeAutoDeleteEntries] at hrow
    exact ⟨⟨row, hrow.1, rfl⟩, hrow.2⟩
  . rintro ⟨⟨row, hrow, rfl⟩, hkept⟩
    exact ⟨row, mem_removeAutoDeleteEntries.mpr ⟨hrow, hkept⟩, rfl⟩

end AutoDelete
