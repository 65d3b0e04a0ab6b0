import VoltykBot.AutoDelete.Turns

/-!
This module shows what becomes of the rows behind others: as many rows as a batch takes, of which none is deleted,
keep all rows behind them from being taken for ever.
-/

namespace AutoDelete

open Attempts

section

variable {queue queue' : Queue} {new row other : Row} {now : Int} {locked front : List Nat} {limit : Nat}

theorem Row.Precedes.not_precedes (h : row.Precedes other) (hne : row.id ≠ other.id) : ¬ other.Precedes row := by
  unfold Row.Precedes at *
  omega

theorem Row.le_meet_deleteAt (new row : Row) : min row.deleteAt new.deleteAt ≤ (new.meet row).deleteAt := by
  unfold meet
  split
  . exact Int.le_refl _
  . exact Int.min_le_left _ _

theorem rows_enqueueAutoDelete (h : enqueueAutoDelete queue new = some queue')
    : queue'.rows = queue.rows.map new.meet ∨ queue'.rows = new :: queue.rows ∧ new.id ∉ queue.usedIds := by
  unfold enqueueAutoDelete at h
  split at h
  . cases h
  . next hid =>
    split at h
    . cases h
      exact Or.inl rfl
    . cases h
      exact Or.inr ⟨rfl, hid⟩

structure Blocked (queue : Queue) (now : Int) (front : List Nat) : Prop where
  there : ∀ id ∈ front, id ∈ queue.ids
  due : ∀ row ∈ queue.rows, row.id ∈ front → row.deleteAt ≤ now
  readable : ∀ row ∈ queue.rows, row.id ∈ front → PyText.parseInt row.chatId.toList ≠ none
  ahead : ∀ row ∈ queue.rows, row.id ∈ front → ∀ other ∈ queue.rows, other.id ∉ front → row.Precedes other

theorem Blocked.remove (h : Blocked queue now front) {ids : List Nat} (hids : ∀ id ∈ front, id ∉ ids)
    : Blocked (removeAutoDeleteEntries queue ids) now front where
  there := fun id hid => mem_ids_removeAutoDeleteEntries.mpr ⟨h.there id hid, hids id hid⟩
  due := fun row hrow => h.due row (mem_removeAutoDeleteEntries.mp hrow).1
  readable := fun row hrow => h.readable row (mem_removeAutoDeleteEntries.mp hrow).1
  ahead := fun row hrow hid other hother =>
    h.ahead row (mem_removeAutoDeleteEntries.mp hrow).1 hid other (mem_removeAutoDeleteEntries.mp hother).1

theorem Blocked.elapsed (h : Blocked queue now front) (us : Nat) : Blocked queue (now + us) front where
  there := h.there
  due := fun row hrow hid => (h.due row hrow hid).trans (Int.le_add_of_nonneg_right (Int.natCast_nonneg us))
  readable := h.readable
  ahead := h.ahead

/--
A message that is queued again may only become due earlier; what is not due then comes after all of `front`.
-/
theorem Blocked.met (h : Blocked queue now front) (hlater : now < new.deleteAt)
    (hrows : queue'.rows = queue.rows.map new.meet) : Blocked queue' now front where
  there := by
    intro id hid
    unfold Queue.ids
    rw [hrows, map_map_meet new.meet_id]
    exact h.there id hid
  due := by
    rw [hrows, List.forall_mem_map]
    intro row hrow hid
    rw [Row.meet_id] at hid
    exact (new.meet_deleteAt_le row).trans (h.due row hrow hid)
  readable := by
    rw [hrows, List.forall_mem_map]
    intro row hrow hid
    rw [Row.meet_id] at hid
    rw [show (new.meet row).chatId = row.chatId from congrArg Prod.fst (new.meet_message row)]
    exact h.readable row hrow hid
  ahead := by
    rw [hrows]
    simp only [List.forall_mem_map]
    intro row hrow hid other hother hnot
    rw [Row.meet_id] at hid hnot
    have hahead := h.ahead row hrow hid other hother hnot
    have hdue := h.due row hrow hid
    have hle := new.meet_deleteAt_le row
    have hmin := new.le_meet_deleteAt other
    unfold Row.Precedes at *
    rw [Row.meet_id, Row.meet_id]
    omega

theorem Blocked.added (h : Blocked queue now front) (hlater : now < new.deleteAt) (hnew : new.id ∉ queue.usedIds)
    (hrows : queue'.rows = new :: queue.rows) : Blocked queue' now front := by
  have hout : new.id ∉ front := by
    intro hmem
    rcases mem_ids.mp (h.there new.id hmem) with ⟨row, hrow, heq⟩
    exact hnew (heq ▸ queue.ids_used row hrow)
  have hmem {row : Row} (hrow : row ∈ queue'.rows) (hid : row.id ∈ front) : row ∈ queue.rows := by
    rw [hrows, List.mem_cons] at hrow
    rcases hrow with rfl | hrow
    . exact absurd hid hout
    . exact hrow
  refine ⟨?_, fun row hrow hid => h.due row (hmem hrow hid) hid,
    fun row hrow hid => h.readable row (hmem hrow hid) hid, ?_⟩
  . intro id hid
    unfold Queue.ids
    rw [hrows]
    exact List.mem_cons_of_mem _ (h.there id hid)
  . intro row hrow hid other hother hnot
    rw [hrows, List.mem_cons] at hother
    rcases hother with rfl | hother
    . exact Or.inl ((h.due row (hmem hrow hid) hid).trans_lt hlater)
    . exact h.ahead row (hmem hrow hid) hid other hother hnot

theorem Blocked.enqueued (h : Blocked queue now front) (hlater : now < new.deleteAt)
    (hqueue : enqueueAutoDelete queue new = some queue') : Blocked queue' now front := by
  rcases rows_enqueueAutoDelete hqueue with hrows | ⟨hrows, hnew⟩
  . exact h.met hlater hrows
  . exact h.added hlater hnew hrows

theorem Blocked.mem_front_of_claimed (h : Blocked queue now front) (hnodup : front.Nodup)
    (hmany : limit ≤ front.length) (hfree : ∀ id ∈ front, id ∉ locked)
    (hrow : row ∈ claimDueAutoDelete queue now locked limit) : row.id ∈ front := by
  unfold claimDueAutoDelete at hrow
  have hmem {row : Row} := List.mem_insertionSort (x := row) (r := Row.Precedes)
    (l := queue.rows.filter fun row => row.deleteAt ≤ now ∧ row.id ∉ locked)
  refine Front.mem_of_mem_take (p := fun row : Row => row.id ∈ front) (List.pairwise_insertionSort _ _) ?_ ?_ hrow
  . intro a ha hfront b hb hnot
    rw [hmem, List.mem_filter] at ha hb
    apply (h.ahead a ha.1 hfront b hb.1 hnot).not_precedes
    intro heq
    exact hnot (heq ▸ hfront)
  . refine hmany.trans ?_
    rw [← List.length_map (f := Row.id)]
    apply (List.subperm_of_subset hnodup _).length_le
    intro id hid
    rcases mem_ids.mp (h.there id hid) with ⟨row, hrow, rfl⟩
    refine List.mem_map.mpr ⟨row, ?_, rfl⟩
    rw [List.mem_filter, hmem, List.mem_filter, decide_eq_true_iff, decide_eq_true_iff]
    exact ⟨⟨hrow, h.due row hrow hid, hfree row.id hid⟩, hid⟩

end

def Pc.Within (front : List Nat) (pc : Pc) : Prop :=
  match pc with
  | .batch rest processedIds =>
    processedIds = [] ∧ ∀ row ∈ rest, row.id ∈ front ∧ PyText.parseInt row.chatId.toList ≠ none
  | .deleting row rest processedIds =>
    processedIds = [] ∧ ∀ other ∈ row :: rest, other.id ∈ front ∧ PyText.parseInt other.chatId.toList ≠ none
  | _ => True

namespace Cleanup

variable {s s' : Cleanup} {e : Event} {front : List Nat}

/--
What keeps the rows of `front` where they are: no other transaction deletes or locks one, no message is taken to be
gone, and what is queued is not due yet.
-/
def Stuck (front : List Nat) (s : Cleanup) (e : Event) : Prop :=
  match e with
  | .enqueued row => s.now < row.deleteAt
  | .deleted ids => ∀ id ∈ front, id ∉ ids
  | .claimed locked => ∀ id ∈ front, id ∉ locked
  | .answered outcome => tryDelete outcome = false
  | _ => True

instance (s : Cleanup) (e : Event) : Decidable (Stuck front s e) := by
  unfold Stuck
  split <;> infer_instance

theorem stuck_enqueued {row : Row} {delayMinutes : Int} (hrow : row.deleteAt = deleteAtOf s.now delayMinutes)
    : Stuck front s (.enqueued row) := by
  unfold Stuck
  dsimp only
  rw [hrow]
  exact lt_deleteAtOf s.now delayMinutes

structure Starving (front : List Nat) (s : Cleanup) : Prop where
  blocked : Blocked s.queue s.now front
  within : Pc.Within front s.pc
  untried : ∀ {id}, firstWaiting s.log id ≠ none → id ∈ front

theorem Starving.goto {pc pc' : Pc} (h : Starving front s) (hstep : s.goto pc pc' = some s')
    (hwithin : pc'.Within front) : Starving front s' := by
  unfold Cleanup.goto at hstep
  split at hstep
  . cases hstep
    exact ⟨h.blocked, hwithin, h.untried⟩
  . cases hstep

theorem Starving.claimed (h : Starving front s) (hnodup : front.Nodup) (hmany : 200 ≤ front.length)
    {locked : List Nat} (hfree : ∀ id ∈ front, id ∉ locked) (hstep : s.claimed locked = some s')
    : Starving front s' := by
  unfold Cleanup.claimed at hstep
  split at hstep
  . cases hstep
    refine ⟨h.blocked, ?_, h.untried⟩
    dsimp
    split
    . trivial
    . refine ⟨rfl, ?_⟩
      intro row hrow
      have hfront := h.blocked.mem_front_of_claimed hnodup hmany hfree hrow
      exact ⟨hfront, h.blocked.readable row (mem_claimDueAutoDelete hrow).1 hfront⟩
  . cases hstep

theorem Starving.rowTaken (h : Starving front s) (hstep : s.rowTaken = some s') : Starving front s' := by
  unfold Cleanup.rowTaken at hstep
  split at hstep
  . next row rest processedIds hpc =>
    have hwithin := h.within
    rw [hpc] at hwithin
    rcases hwithin with ⟨hnone, hrows⟩
    have hfirst := hrows row List.mem_cons_self
    dsimp at hstep
    split at hstep
    . cases hstep
      refine ⟨h.blocked, ⟨hnone, hrows⟩, ?_⟩
      intro id hid
      by_cases heq : row.id = id
      . exact heq ▸ hfirst.1
      . rw [firstWaiting_attempted_ne heq] at hid
        exact h.untried hid
    . next hunreadable => exact absurd hunreadable hfirst.2
  . cases hstep

theorem Starving.answered (h : Starving front s) {outcome : Outcome} (hfailed : tryDelete outcome = false)
    (hstep : s.answered outcome = some s') : Starving front s' := by
  unfold Cleanup.answered at hstep
  split at hstep
  . next row rest processedIds hpc =>
    cases hstep
    have hwithin := h.within
    rw [hpc] at hwithin
    rw [hfailed]
    refine ⟨h.blocked, ⟨hwithin.1, ?_⟩, h.untried⟩
    exact fun row hrow => hwithin.2 row (List.mem_cons_of_mem _ hrow)
  . cases hstep

theorem Starving.committed (h : Starving front s) (hstep : s.committed = some s') : Starving front s' := by
  unfold Cleanup.committed at hstep
  split at hstep
  . next processedIds hpc =>
    cases hstep
    have hwithin := h.within
    rw [hpc] at hwithin
    rw [if_pos hwithin.1]
    exact ⟨h.blocked, trivial, h.untried⟩
  . cases hstep

theorem Starving.step (h : Starving front s) (hnodup : front.Nodup) (hmany : 200 ≤ front.length)
    (hstuck : Stuck front s e) (hstep : s.step e = some s') : Starving front s' := by
  cases e with
  | elapsed us =>
    cases hstep
    exact ⟨h.blocked.elapsed us, h.within, h.untried⟩
  | enqueued row =>
    rcases Option.map_eq_some_iff.mp hstep with ⟨queue, hqueue, rfl⟩
    exact ⟨h.blocked.enqueued hstuck hqueue, h.within, h.untried⟩
  | deleted ids =>
    cases hstep
    exact ⟨h.blocked.remove hstuck, h.within, h.untried⟩
  | roundStarted => exact h.goto hstep trivial
  | stopped => exact h.goto hstep trivial
  | claimed locked => exact h.claimed hnodup hmany hstuck hstep
  | claimFailed => exact h.goto hstep trivial
  | rowTaken => exact h.rowTaken hstep
  | answered outcome => exact h.answered hstuck hstep
  | committed => exact h.committed hstep
  | rolledBack =>
    change s.rolledBack = some s' at hstep
    unfold Cleanup.rolledBack at hstep
    split at hstep
    . cases hstep
      exact ⟨h.blocked, trivial, h.untried⟩
    . cases hstep
  | slept => exact h.goto hstep trivial
  | cancelled =>
    change s.cancelled = some s' at hstep
    unfold Cleanup.cancelled at hstep
    split at hstep
    . cases hstep
    . cases hstep
    . cases hstep
    . cases hstep
      exact ⟨h.blocked, trivial, h.untried⟩

/--
As long as a batch full of rows that are due stay where they are, the loop comes to no other row, and they stay.
-/
theorem never_attempted_of_blocked {queue : Queue} {now : Int} {es : List Event} (hblocked : Blocked queue now front)
    (hnodup : front.Nodup) (hmany : 200 ≤ front.length)
    (hstuck : Run.StepsMeet step (Stuck front) (startCleanup queue now) es)
    (hrun : Run.exec step (startCleanup queue now) es = some s)
    : (∀ id, id ∉ front → firstWaiting s.log id = none) ∧ Blocked s.queue s.now front := by
  have hstart : Starving front (startCleanup queue now) := ⟨hblocked, trivial, fun h => absurd rfl h⟩
  have hstarving := Run.invariant (I := Starving front) (fun h hstuck hstep => h.step hnodup hmany hstuck hstep)
    hstart hstuck hrun
  refine ⟨?_, hstarving.blocked⟩
  intro id hid
  by_contra htried
  exact hid (hstarving.untried htried)

theorem blocked_fullQueue : Blocked fullQueue 0 (List.range' 1 200) := by
  have hrows {row : Row} (hrow : row ∈ fullQueue.rows)
      : 1 ≤ row.id ∧ row.id < 202 ∧ row.deleteAt = 0 ∧ row.chatId = "777" := by
    rcases List.mem_map.mp hrow with ⟨id, hid, rfl⟩
    rw [List.mem_range'_1] at hid
    exact ⟨hid.1, hid.2, rfl, rfl⟩
  refine ⟨?_, fun row hrow _ => (hrows hrow).2.2.1.le, ?_, ?_⟩
  . intro id hid
    rw [List.mem_range'_1] at hid
    refine mem_ids.mpr ⟨⟨id, "777", id, 0⟩, List.mem_map.mpr ⟨id, ?_, rfl⟩, rfl⟩
    rw [List.mem_range'_1]
    omega
  . intro row hrow _
    rw [(hrows hrow).2.2.2]
    decide
  . intro row hrow hid other hother hnot
    have hrow := hrows hrow
    have hother := hrows hother
    rw [List.mem_range'_1] at hid hnot
    exact Or.inr ⟨hrow.2.2.1.trans hother.2.2.1.symm, by omega⟩

theorem never_attempted_of_blocked_fullQueue
    : ∃ s, Run.exec step (startCleanup fullQueue 0)
        (.enqueued ⟨500, "777", 500, deleteAtOf 0 0⟩ :: .elapsed 1000000 :: twoRounds) = some s ∧
          firstWaiting s.log 201 = none := by
  have hrun : (Run.exec step (startCleanup fullQueue 0)
      (.enqueued ⟨500, "777", 500, deleteAtOf 0 0⟩ :: .elapsed 1000000 :: twoRounds)).isSome := by decide +kernel
  have hstuck : Run.StepsMeet step (Stuck (List.range' 1 200)) (startCleanup fullQueue 0)
      (.enqueued ⟨500, "777", 500, deleteAtOf 0 0⟩ :: .elapsed 1000000 :: twoRounds) := by
    have hrest : ∀ s' ∈ step (startCleanup fullQueue 0) (.enqueued ⟨500, "777", 500, deleteAtOf 0 0⟩),
        Run.StepsMeet step (Stuck (List.range' 1 200)) s' (.elapsed 1000000 :: twoRounds) := by
      decide +kernel
    exact ⟨stuck_enqueued rfl, hrest⟩
  refine ⟨_, (Option.some_get hrun).symm, ?_⟩
  exact (never_attempted_of_blocked blocked_fullQueue List.nodup_range'
    (by rw [List.length_range']) hstuck (Option.some_get hrun).symm).1 201 (by decide +kernel)

end Cleanup

end AutoDelete
