import VoltykBot.AutoDelete.Starvation
import VoltykBot.Lib.Front

/-!
This module shows when `auto_cleanup_loop` comes to a row, and when a row leaves the queue: a row with few before it has
its turn in each round, no message is deleted before it is to be, and none is dropped unless it is gone.
-/

namespace AutoDelete

open Attempts

def deleteAtOf (now delayMinutes : Int) : Int := now + max delayMinutes 1 * 60000000

theorem lt_deleteAtOf (now delayMinutes : Int) : now < deleteAtOf now delayMinutes := by
  unfold deleteAtOf
  omega

theorem Row.precedes_total (a b : Row) : a.Precedes b ∨ b.Precedes a := by
  unfold Precedes
  omega

theorem Row.precedes_trans {a b c : Row} (hab : a.Precedes b) (hbc : b.Precedes c) : a.Precedes c := by
  unfold Precedes at *
  omega

instance : Std.Total Row.Precedes := ⟨Row.precedes_total⟩

instance : IsTrans Row Row.Precedes := ⟨fun _ _ _ => Row.precedes_trans⟩

theorem Row.precedes_refl (row : Row) : row.Precedes row := Or.inr ⟨rfl, Nat.le_refl _⟩

theorem mem_claimDueAutoDelete_of_few {queue : Queue} {row : Row} {now : Int} {locked : List Nat} {limit : Nat}
    (hrow : row ∈ queue.rows) (hdue : row.deleteAt ≤ now) (hfree : row.id ∉ locked)
    (hfew : (queue.rows.filter fun other => other.deleteAt ≤ now ∧ other.id ∉ locked ∧ other.Precedes row).length
      ≤ limit)
    : row ∈ claimDueAutoDelete queue now locked limit := by
  unfold claimDueAutoDelete
  apply Front.mem_take_of_few (List.pairwise_insertionSort _ _) row.precedes_refl
  . rw [List.mem_insertionSort, List.mem_filter, decide_eq_true_iff]
    exact ⟨hrow, hdue, hfree⟩
  . rw [((List.perm_insertionSort _ _).filter _).length_eq, List.filter_filter]
    refine le_of_eq_of_le (congrArg List.length (List.filter_congr ?_)) hfew
    intro other _
    rw [← Bool.decide_and, decide_eq_decide]
    tauto

namespace Cleanup

variable {s s' : Cleanup} {e : Event} {es : List Event} {id : Nat}

def Tried (base log : List (Entry Nat)) (id : Nat) : Prop :=
  ∃ added waiting, log = added ++ base ∧ .attempted id waiting ∈ added

theorem Tried.cons {base log : List (Entry Nat)} (h : Tried base log id) (entry : Entry Nat)
    : Tried base (entry :: log) id := by
  rcases h with ⟨added, waiting, rfl, hmem⟩
  exact ⟨entry :: added, waiting, rfl, List.mem_cons_of_mem _ hmem⟩

theorem tried_attempted {base log : List (Entry Nat)} (h : base <:+ log) (id : Nat) (waiting : List Nat)
    : Tried base (.attempted id waiting :: log) id := by
  rcases h with ⟨added, rfl⟩
  exact ⟨.attempted id waiting :: added, waiting, rfl, List.mem_cons_self⟩

structure Coming (base : List (Entry Nat)) (s : Cleanup) (id : Nat) : Prop where
  log : base <:+ s.log
  turn : Tried base s.log id ∨ id ∈ s.pc.rest ∨ s.pc = .returned

variable {base : List (Entry Nat)}

theorem Coming.attempted_of_rest {pc : Pc} (h : s.Coming base id) (hpc : s.pc = pc) (hrest : pc.rest = [])
    (hover : pc ≠ .returned) : Tried base s.log id := by
  subst hpc
  rcases h.turn with htried | hcoming | hreturned
  . exact htried
  . rw [hrest] at hcoming
    cases hcoming
  . exact absurd hreturned hover

theorem Coming.attempted {row : Row} {rest : List Row} {processedIds : List Nat} {pc' : Pc} (h : s.Coming base id)
    (hpc : s.pc = .batch (row :: rest) processedIds) (hrest : pc'.rest = rest.map Row.id)
    : Coming base { s with pc := pc', log := .attempted row.id s.dueIds :: s.log } id := by
  refine ⟨h.log.trans (List.suffix_cons _ _), ?_⟩
  by_cases heq : row.id = id
  . left
    subst heq
    exact tried_attempted h.log row.id s.dueIds
  . rcases h.turn with htried | hcoming | hreturned
    . exact Or.inl (htried.cons _)
    . rw [hpc, Pc.rest_batch, List.map_cons, List.mem_cons, or_iff_right (Ne.symm heq)] at hcoming
      exact Or.inr (Or.inl (hrest ▸ hcoming))
    . rw [hpc] at hreturned
      cases hreturned

theorem Coming.moves (h : s.Coming base id) (hmoves : Moves s e s') : s'.Coming base id := by
  cases hmoves with
  | elapsed us => exact ⟨h.log, h.turn⟩
  | enqueued hqueue => exact ⟨h.log, h.turn⟩
  | deleted ids => exact ⟨h.log.trans (List.suffix_cons _ _), h.turn.imp_left fun htried => htried.cons _⟩
  | silent hpc hover htaken hrest =>
    refine ⟨h.log, ?_⟩
    rcases h.turn with htried | hcoming | hreturned
    . exact Or.inl htried
    . rw [hpc, ← hrest] at hcoming
      exact Or.inr (Or.inl hcoming)
    . exact absurd (hpc.symm.trans hreturned) hover
  | claimed hpc => exact ⟨h.log, Or.inl (h.attempted_of_rest hpc rfl nofun)⟩
  | attempted hpc htaken hrest => exact h.attempted hpc hrest
  | failed hpc hfailed =>
    have hturn := h.turn
    rw [hpc] at hturn
    exact ⟨h.log, hturn.imp_right fun h => Or.inl (h.resolve_right nofun)⟩
  | committed hpc =>
    exact ⟨h.log.trans (List.suffix_cons _ _), Or.inl ((h.attempted_of_rest hpc rfl nofun).cons _)⟩
  | rolledBack hpc => exact ⟨h.log, Or.inl (h.attempted_of_rest hpc rfl nofun)⟩
  | cancelled => exact ⟨h.log, Or.inr (Or.inr rfl)⟩

/--
A row that is due has its turn in the round, whatever becomes of the others, if it is among the first ones that no
other transaction has locked.
-/
theorem attempted_of_few_before {row : Row} {locked : List Nat} (hrow : row ∈ s.queue.rows)
    (hdue : row.deleteAt ≤ s.now) (hfree : row.id ∉ locked)
    (hfew : (s.queue.rows.filter fun other => other.deleteAt ≤ s.now ∧ other.id ∉ locked ∧
      other.Precedes row).length ≤ 200)
    (hrun : Run.exec step s (.claimed locked :: es) = some s') (hover : s'.pc = .sleeping)
    : ∃ added waiting, s'.log = added ++ s.log ∧ .attempted row.id waiting ∈ added := by
  rcases Run.exec_cons_eq_some.mp hrun with ⟨t, hclaim, hrest⟩
  have hclaimed := mem_claimDueAutoDelete_of_few hrow hdue hfree hfew
  have hcoming : t.Coming s.log row.id := by
    change s.claimed locked = some t at hclaim
    unfold Cleanup.claimed at hclaim
    split at hclaim
    . cases hclaim
      refine ⟨List.suffix_rfl, Or.inr (Or.inl ?_)⟩
      rw [if_neg (List.ne_nil_of_mem hclaimed)]
      exact List.mem_map_of_mem hclaimed
    . cases hclaim
  have hlast := Run.invariant' (I := fun t => Coming s.log t row.id) (fun h hstep => h.moves (moves_of_step hstep))
    hcoming hrest
  exact hlast.attempted_of_rest hover rfl nofun

theorem attempted_of_few_before_twoRows
    : ∃ s s', Run.exec step (startCleanup twoRows 0) [.roundStarted] = some s ∧
        Run.exec step s [.claimed [], .rowTaken, .answered .raised, .rowTaken, .answered .deleted, .committed]
          = some s' ∧
          ∃ added waiting, s'.log = added ++ s.log ∧ .attempted 2 waiting ∈ added := by
  have hstart : (Run.exec step (startCleanup twoRows 0) [.roundStarted]).isSome := by decide +kernel
  have hrun : (Run.exec step (Option.get _ hstart)
      [.claimed [], .rowTaken, .answered .raised, .rowTaken, .answered .deleted, .committed]).isSome := by
    decide +kernel +revert
  refine ⟨_, _, (Option.some_get hstart).symm, (Option.some_get hrun).symm, ?_⟩
  have hrow : (⟨2, "777", 11, 0⟩ : Row) ∈ (Option.get _ hstart).queue.rows := by decide +kernel +revert
  exact attempted_of_few_before hrow (by decide +kernel +revert) (by decide) (by decide +kernel +revert)
    (Option.some_get hrun).symm (by decide +kernel +revert)

end Cleanup

def Pc.rows (pc : Pc) : List Row :=
  match pc with
  | .batch rest _ => rest
  | .deleting row rest _ => row :: rest
  | _ => []

namespace Cleanup

variable {s s' : Cleanup} {e : Event} {es : List Event} {id : Nat} {message : String × Int} {t : Int}

inductive Goes (s : Cleanup) : Event → Pc → Prop where
  | stays (e : Event) : Goes s e s.pc
  | leaves (e : Event) {pc : Pc} (hrows : pc.rows = []) (hprocessed : pc.processedIds = []) : Goes s e pc
  | claims (locked : List Nat)
    : Goes s (.claimed locked) (.batch (claimDueAutoDelete s.queue s.now locked 200) [])
  | takes {row : Row} {rest : List Row} {processedIds : List Nat} (hpc : s.pc = .batch (row :: rest) processedIds)
    : Goes s .rowTaken (.deleting row rest processedIds)
  | skips {row : Row} {rest : List Row} {processedIds : List Nat} (hpc : s.pc = .batch (row :: rest) processedIds)
      (hunreadable : PyText.parseInt row.chatId.toList = none)
    : Goes s .rowTaken (.batch rest (processedIds ++ [row.id]))
  | answers {row : Row} {rest : List Row} {processedIds : List Nat} (hpc : s.pc = .deleting row rest processedIds)
      (outcome : Outcome)
    : Goes s (.answered outcome)
        (.batch rest (if tryDelete outcome then processedIds ++ [row.id] else processedIds))

theorem goes_of_goto {pc pc' : Pc} (h : s.goto pc pc' = some s') (hrows : pc'.rows = [])
    (hprocessed : pc'.processedIds = []) : s.Goes e s'.pc := by
  unfold goto at h
  split at h
  . cases h
    exact .leaves e hrows hprocessed
  . cases h

theorem goes_of_claimed {locked : List Nat} (h : s.claimed locked = some s') : s.Goes (.claimed locked) s'.pc := by
  unfold claimed at h
  split at h
  . cases h
    dsimp only
    split
    . exact .leaves _ rfl rfl
    . exact .claims locked
  . cases h

theorem goes_of_rowTaken (h : s.rowTaken = some s') : s.Goes .rowTaken s'.pc := by
  unfold rowTaken at h
  split at h
  . next row rest processedIds hpc =>
    dsimp at h
    split at h
    . cases h
      exact .takes hpc
    . next hunreadable =>
      cases h
      exact .skips hpc hunreadable
  . cases h

theorem goes_of_step (h : s.step e = some s') : s.Goes e s'.pc := by
  cases e with
  | elapsed us =>
    cases h
    exact .stays _
  | enqueued row =>
    rcases Option.map_eq_some_iff.mp h with ⟨queue, -, rfl⟩
    exact .stays _
  | deleted ids =>
    cases h
    exact .stays _
  | roundStarted => exact goes_of_goto h rfl rfl
  | stopped => exact goes_of_goto h rfl rfl
  | claimed locked => exact goes_of_claimed h
  | claimFailed => exact goes_of_goto h rfl rfl
  | rowTaken => exact goes_of_rowTaken h
  | answered outcome =>
    change s.answered outcome = some s' at h
    unfold answered at h
    split at h
    . next hpc =>
      cases h
      exact .answers hpc outcome
    . cases h
  | committed =>
    change s.committed = some s' at h
    unfold committed at h
    split at h
    . cases h
      exact .leaves _ rfl rfl
    . cases h
  | rolledBack =>
    change s.rolledBack = some s' at h
    unfold rolledBack at h
    split at h
    . cases h
      exact .leaves _ rfl rfl
    . cases h
  | slept => exact goes_of_goto h rfl rfl
  | cancelled =>
    change s.cancelled = some s' at h
    unfold cancelled at h
    split at h
    . cases h
    . cases h
    . cases h
    . cases h
      exact .leaves _ rfl rfl

structure NotBefore (message : String × Int) (t : Int) (s : Cleanup) : Prop where
  queued : ∀ row ∈ s.queue.rows, row.message = message → t ≤ row.deleteAt
  batch : ∀ row ∈ s.pc.rows, row.message = message → t ≤ s.now

theorem queued_of_enqueue {queue queue' : Queue} {new : Row}
    (h : ∀ row ∈ queue.rows, row.message = message → t ≤ row.deleteAt) (hnew : new.message = message → t ≤ new.deleteAt)
    (hqueue : enqueueAutoDelete queue new = some queue')
    : ∀ row ∈ queue'.rows, row.message = message → t ≤ row.deleteAt := by
  unfold enqueueAutoDelete at hqueue
  split at hqueue
  . cases hqueue
  . split at hqueue
    . cases hqueue
      simp only [List.forall_mem_map]
      intro row hrow hmessage
      rw [Row.meet_message] at hmessage
      unfold Row.meet
      split
      . next heq => exact Int.le_min.mpr ⟨h row hrow hmessage, hnew (heq ▸ hmessage)⟩
      . exact h row hrow hmessage
    . cases hqueue
      rw [List.forall_mem_cons]
      exact ⟨hnew, h⟩

theorem NotBefore.step (h : NotBefore message t s) (he : ∀ row, e = .enqueued row → row.message = message →
    t ≤ row.deleteAt) (hstep : s.step e = some s') : NotBefore message t s' := by
  have hnow : s.now ≤ s'.now := by
    cases moves_of_step hstep with
    | elapsed us => exact Int.le_add_of_nonneg_right (Int.natCast_nonneg us)
    | _ => exact Int.le_refl _
  constructor
  . cases moves_of_step hstep with
    | enqueued hqueue => exact queued_of_enqueue h.queued (he _ rfl) hqueue
    | deleted ids => exact fun row hrow => h.queued row (mem_removeAutoDeleteEntries.mp hrow).1
    | committed hpc => exact fun row hrow => h.queued row (mem_removeAutoDeleteEntries.mp hrow).1
    | _ => exact h.queued
  . intro row hrow hmessage
    have hbatch {row : Row} (hrow : row ∈ s.pc.rows) (hmessage : row.message = message) : t ≤ s'.now :=
      (h.batch row hrow hmessage).trans hnow
    generalize hpc' : s'.pc = pc' at hrow
    have hgoes := goes_of_step hstep
    rw [hpc'] at hgoes
    cases hgoes with
    | stays => exact hbatch hrow hmessage
    | leaves e hrows hprocessed =>
      rw [hrows] at hrow
      cases hrow
    | claims locked =>
      have hclaimed := mem_claimDueAutoDelete hrow
      exact ((h.queued row hclaimed.1 hmessage).trans hclaimed.2.1).trans hnow
    | takes hpc =>
      apply hbatch _ hmessage
      rw [hpc]
      exact hrow
    | skips hpc hunreadable =>
      apply hbatch _ hmessage
      rw [hpc]
      exact List.mem_cons_of_mem _ hrow
    | answers hpc outcome =>
      apply hbatch _ hmessage
      rw [hpc]
      exact List.mem_cons_of_mem _ hrow

/--
No message is tried before the time it was queued for, however often it was queued.
-/
theorem not_tried_before {queue : Queue} {now : Int} {row : Row} {rest : List Row} {processedIds : List Nat}
    (hqueue : ∀ row ∈ queue.rows, row.message = message → t ≤ row.deleteAt)
    (hqueued : ∀ row, .enqueued row ∈ es → row.message = message → t ≤ row.deleteAt)
    (hrun : Run.exec step (startCleanup queue now) es = some s) (hpc : s.pc = .deleting row rest processedIds)
    (hmessage : row.message = message) : t ≤ s.now := by
  have hstart : NotBefore message t (startCleanup queue now) := ⟨hqueue, nofun⟩
  let Late (e : Event) : Prop := ∀ row, e = .enqueued row → row.message = message → t ≤ row.deleteAt
  have hsteps : Run.StepsMeet step (fun _ e => Late e) (startCleanup queue now) es :=
    Run.StepsMeet.of_events fun e he row heq => hqueued row (heq ▸ he)
  have hlast := Run.invariant (I := NotBefore message t) (fun h he hstep => h.step he hstep) hstart hsteps hrun
  apply hlast.batch row _ hmessage
  rw [hpc]
  exact List.mem_cons_self

theorem not_tried_before_twoRows
    : ∃ s row rest processedIds, Run.exec step (startCleanup twoRows (-1))
        [.enqueued ⟨3, "777", 12, deleteAtOf (-1) 2⟩, .elapsed 120000000, .roundStarted, .claimed [1, 2], .rowTaken]
          = some s ∧
        s.pc = .deleting row rest processedIds ∧ row.message = ("777", 12) ∧ deleteAtOf (-1) 2 ≤ s.now := by
  have hrun : (Run.exec step (startCleanup twoRows (-1))
      [.enqueued ⟨3, "777", 12, deleteAtOf (-1) 2⟩, .elapsed 120000000, .roundStarted, .claimed [1, 2],
        .rowTaken]).isSome := by decide +kernel
  have hpc : (Option.get _ hrun).pc = .deleting ⟨3, "777", 12, deleteAtOf (-1) 2⟩ [] [] := by
    decide +kernel +revert
  refine ⟨_, _, _, _, (Option.some_get hrun).symm, hpc, rfl, ?_⟩
  have hqueue : ∀ row ∈ twoRows.rows, row.message = ("777", 12) → deleteAtOf (-1) 2 ≤ row.deleteAt := by
    decide +kernel
  refine not_tried_before hqueue ?_ (Option.some_get hrun).symm hpc rfl
  intro row hrow _
  simp only [List.mem_cons, Event.enqueued.injEq, List.not_mem_nil, reduceCtorEq, or_false] at hrow
  exact hrow ▸ Int.le_refl _

def loses (s : Cleanup) (e : Event) : List Nat :=
  match e with
  | .deleted ids => ids
  | .rowTaken => ((s.pc.rows.take 1).filter fun row => PyText.parseInt row.chatId.toList = none).map Row.id
  | .answered outcome => if tryDelete outcome then s.pc.current else []
  | _ => []

theorem kept_of_enqueue {queue queue' : Queue} {new : Row} (h : id ∈ queue.ids)
    (hqueue : enqueueAutoDelete queue new = some queue') : id ∈ queue'.ids := by
  unfold enqueueAutoDelete at hqueue
  split at hqueue
  . cases hqueue
  . split at hqueue
    . cases hqueue
      unfold Queue.ids
      rw [map_map_meet new.meet_id]
      exact h
    . cases hqueue
      exact List.mem_cons_of_mem _ h

theorem notMem_processedIds_of_step (h : id ∉ s.pc.processedIds) (hlost : id ∉ s.loses e)
    (hstep : s.step e = some s') : id ∉ s'.pc.processedIds := by
  generalize hpc' : s'.pc = pc'
  have hgoes := goes_of_step hstep
  rw [hpc'] at hgoes
  cases hgoes with
  | stays => exact h
  | leaves e hrows hprocessed =>
    rw [hprocessed]
    exact List.not_mem_nil
  | claims locked => exact List.not_mem_nil
  | takes hpc =>
    rw [hpc] at h
    exact h
  | @skips row rest processedIds hpc hunreadable =>
    rw [hpc] at h
    simp only [loses] at hlost
    rw [hpc, Pc.rows, List.take_succ_cons, List.take_zero, List.filter_singleton, hunreadable] at hlost
    exact List.not_mem_append h hlost
  | @answers row rest processedIds hpc outcome =>
    rw [hpc] at h
    simp only [loses] at hlost
    by_cases hgone : tryDelete outcome = true
    . rw [if_pos hgone, hpc] at hlost
      rw [if_pos hgone]
      exact List.not_mem_append h hlost
    . rw [if_neg hgone]
      exact h

/--
A row stays in the queue until another transaction deletes it, its chat cannot be read, or its message is taken to be
gone.
-/
theorem kept_of_not_lost {queue : Queue} {now : Int} (hid : id ∈ queue.ids)
    (hlost : Run.StepsMeet step (fun s e => id ∉ s.loses e) (startCleanup queue now) es)
    (hrun : Run.exec step (startCleanup queue now) es = some s) : id ∈ s.queue.ids := by
  refine (Run.invariant (I := fun s => id ∈ s.queue.ids ∧ id ∉ s.pc.processedIds) ?_ ⟨hid, List.not_mem_nil⟩ hlost
    hrun).1
  intro s s' e h hlost hstep
  refine ⟨?_, notMem_processedIds_of_step h.2 hlost hstep⟩
  cases moves_of_step hstep with
  | enqueued hqueue => exact kept_of_enqueue h.1 hqueue
  | deleted ids => exact mem_ids_removeAutoDeleteEntries.mpr ⟨h.1, hlost⟩
  | committed hpc =>
    have hprocessed := h.2
    rw [hpc] at hprocessed
    exact mem_ids_removeAutoDeleteEntries.mpr ⟨h.1, hprocessed⟩
  | _ => exact h.1

theorem kept_of_not_lost_twoRows
    : ∃ s, Run.exec step (startCleanup twoRows 0)
        [.roundStarted, .claimed [], .rowTaken, .answered (.badRequest "Bad Request: chat not found"), .rowTaken,
          .answered (.badRequest "Bad Request: message to delete not found"), .committed] = some s ∧
        1 ∈ s.queue.ids := by
  have hrun : (Run.exec step (startCleanup twoRows 0)
      [.roundStarted, .claimed [], .rowTaken, .answered (.badRequest "Bad Request: chat not found"), .rowTaken,
        .answered (.badRequest "Bad Request: message to delete not found"), .committed]).isSome := by decide +kernel
  refine ⟨_, (Option.some_get hrun).symm, ?_⟩
  exact kept_of_not_lost (by decide) (by decide +kernel) (Option.some_get hrun).symm

end Cleanup

end AutoDelete
