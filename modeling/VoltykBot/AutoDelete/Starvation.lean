import VoltykBot.AutoDelete.Loop

/-!
This module shows when `auto_cleanup_loop` starves no row: a row that stays in the queue after its attempt must not be
ahead of one that was due at its first attempt and has not had its turn.
-/

namespace AutoDelete

open Attempts

namespace Cleanup

variable {s s' : Cleanup} {e : Event} {id : Nat}

def Ripe (s : Cleanup) (id : Nat) : Prop :=
  id ∈ s.queue.usedIds ∧ ∀ row ∈ s.queue.rows, row.id = id → row.deleteAt ≤ s.now

theorem Ripe.removeAutoDeleteEntries (h : s.Ripe id) (ids : List Nat) : (s.remove ids).Ripe id :=
  ⟨h.1, fun row hrow => h.2 row (mem_removeAutoDeleteEntries.mp hrow).1⟩

theorem Ripe.moves (h : s.Ripe id) (hmoves : Moves s e s') : s'.Ripe id := by
  cases hmoves with
  | elapsed us =>
    refine ⟨h.1, ?_⟩
    intro row hrow heq
    exact (h.2 row hrow heq).trans (Int.le_add_of_nonneg_right (Int.natCast_nonneg us))
  | enqueued hqueue =>
    refine ⟨usedIds_enqueueAutoDelete hqueue ▸ List.mem_cons_of_mem _ h.1, ?_⟩
    rintro row hrow rfl
    rcases mem_of_enqueueAutoDelete hqueue hrow with hnew | ⟨old, hold, hid, hle⟩
    . exact absurd h.1 hnew
    . exact Int.le_trans hle (h.2 old hold hid)
  | deleted ids => exact h.removeAutoDeleteEntries ids
  | committed hpc => exact h.removeAutoDeleteEntries _
  | silent => exact h
  | claimed => exact h
  | attempted => exact h
  | failed => exact h
  | rolledBack => exact h
  | cancelled => exact h

theorem ripe_of_claimed {locked : List Nat} {limit : Nat}
    (h : id ∈ (claimDueAutoDelete s.queue s.now locked limit).map Row.id) : s.Ripe id := by
  rcases List.mem_map.mp h with ⟨row, hrow, rfl⟩
  have hclaimed := mem_claimDueAutoDelete hrow
  refine ⟨s.queue.ids_used row hclaimed.1, ?_⟩
  intro row' hrow' heq
  rw [List.inj_on_of_nodup_map s.queue.ids_nodup hrow' hclaimed.1 heq]
  exact hclaimed.2.1

theorem held_of_moves (hmoves : Moves s e s')
    : s'.pc.held.Sublist s.pc.held ∨
        ∃ locked, s'.pc.held = (claimDueAutoDelete s.queue s.now locked 200).map Row.id := by
  cases hmoves with
  | elapsed us => exact Or.inl (List.Sublist.refl _)
  | enqueued hqueue => exact Or.inl (List.Sublist.refl _)
  | deleted ids => exact Or.inl (List.Sublist.refl _)
  | silent hpc hover htaken hrest =>
    unfold Pc.held
    rw [htaken, hrest, hpc]
    exact Or.inl (List.Sublist.refl _)
  | @claimed locked hpc => exact Or.inr ⟨locked, rfl⟩
  | attempted hpc htaken hrest =>
    unfold Pc.held
    rw [htaken, hrest, hpc, Pc.taken_batch, List.append_assoc]
    exact Or.inl (List.Sublist.refl _)
  | @failed row rest processedIds outcome hpc hfailed =>
    unfold Pc.held
    rw [hpc, Pc.taken_batch, Pc.taken_deleting]
    exact Or.inl ((List.sublist_append_left processedIds [row.id]).append_right _)
  | committed hpc => exact Or.inl (List.nil_sublist _)
  | rolledBack hpc => exact Or.inl (List.nil_sublist _)
  | cancelled => exact Or.inl (List.nil_sublist _)

theorem attempted_of_moves (hmoves : Moves s e s') (h : firstWaiting s'.log id ≠ none)
    : firstWaiting s.log id ≠ none ∨ id ∈ s.pc.held := by
  cases hmoves with
  | @attempted row rest processedIds pc' hpc htaken hrest =>
    by_cases heq : row.id = id
    . rw [hpc, ← heq]
      exact Or.inr (List.mem_append_right _ List.mem_cons_self)
    . rw [firstWaiting_attempted_ne heq] at h
      exact Or.inl h
  | elapsed us => exact Or.inl h
  | enqueued hqueue => exact Or.inl h
  | deleted ids => exact Or.inl h
  | silent => exact Or.inl h
  | claimed => exact Or.inl h
  | failed => exact Or.inl h
  | committed => exact Or.inl h
  | rolledBack => exact Or.inl h
  | cancelled => exact Or.inl h

structure Wf (s : Cleanup) : Prop where
  held_nodup : s.pc.held.Nodup
  ripe_of_held : ∀ id ∈ s.pc.held, s.Ripe id
  ripe_of_attempted : ∀ {id}, firstWaiting s.log id ≠ none → s.Ripe id
  settled : ∀ id ∈ s.pc.taken, Settled s.log id

theorem wf_startCleanup (queue : Queue) (now : Int) : (startCleanup queue now).Wf where
  held_nodup := List.nodup_nil
  ripe_of_held := nofun
  ripe_of_attempted := fun h => absurd rfl h
  settled := nofun

theorem settled_of_moves (h : ∀ id ∈ s.pc.taken, Settled s.log id) (hmoves : Moves s e s')
    : ∀ id ∈ s'.pc.taken, Settled s'.log id := by
  cases hmoves with
  | elapsed us => exact h
  | enqueued hqueue => exact h
  | deleted ids => exact fun id hid => settled_cons.mpr (Or.inr (h id hid))
  | silent hpc hover htaken hrest => rwa [htaken, ← hpc]
  | claimed => exact nofun
  | attempted hpc htaken hrest =>
    rw [hpc, Pc.taken_batch] at h
    rw [htaken]
    intro id hid
    rcases List.mem_append.mp hid with hid | hid
    . exact settled_cons.mpr (Or.inr (h id hid))
    . exact settled_cons.mpr (Or.inl (List.mem_singleton.mp hid).symm)
  | failed hpc hfailed =>
    rw [hpc, Pc.taken_deleting] at h
    rw [Pc.taken_batch]
    exact fun id hid => h id (List.mem_append_left _ hid)
  | committed hpc => exact nofun
  | rolledBack hpc => exact nofun
  | cancelled => exact nofun

theorem Wf.moves (h : s.Wf) (hmoves : Moves s e s') : s'.Wf where
  held_nodup := by
    rcases held_of_moves hmoves with hsub | ⟨locked, heq⟩
    . exact h.held_nodup.sublist hsub
    . rw [heq]
      exact nodup_claimDueAutoDelete
  ripe_of_held := by
    intro id hid
    apply Ripe.moves _ hmoves
    rcases held_of_moves hmoves with hsub | ⟨locked, heq⟩
    . exact h.ripe_of_held id (hsub.subset hid)
    . exact ripe_of_claimed (heq ▸ hid)
  ripe_of_attempted := by
    intro id hid
    apply Ripe.moves _ hmoves
    rcases attempted_of_moves hmoves hid with hattempted | hheld
    . exact h.ripe_of_attempted hattempted
    . exact h.ripe_of_held id hheld
  settled := settled_of_moves h.settled hmoves

theorem Wf.exec {es : List Event} (h : s.Wf) (hrun : Run.exec step s es = some s') : s'.Wf :=
  Run.invariant' (fun h hstep => h.moves (moves_of_step hstep)) h hrun

def keeps (s : Cleanup) (e : Event) : List Nat :=
  match e with
  | .answered outcome => if tryDelete outcome then [] else s.pc.current
  | .rolledBack => s.pc.processedIds
  | _ => []

theorem keeps_of_failed {row : Row} {rest : List Row} {processedIds : List Nat} {outcome : Outcome}
    (hpc : s.pc = .deleting row rest processedIds) (hfailed : tryDelete outcome = false)
    : s.keeps (.answered outcome) = [row.id] := by
  simp only [keeps]
  rw [hfailed, hpc]
  rfl

/--
Of what was due at the first attempt of a row that stays, all the rest comes later in the same batch.
-/
def HoldsUpNobody (s : Cleanup) (e : Event) : Prop :=
  ∀ id ∈ s.keeps e, id ∈ s.queue.ids → OwesOnly s.log s.pc.rest id

instance (s : Cleanup) (e : Event) : Decidable (s.HoldsUpNobody e) :=
  inferInstanceAs (Decidable (∀ id ∈ s.keeps e, id ∈ s.queue.ids → OwesOnly s.log s.pc.rest id))

structure Fair (s : Cleanup) : Prop where
  notStarved : NotStarved s.log
  rest : ∀ id ∈ s.pc.rest, OwesOnly s.log [] id
  /-- A cleanup that has returned may leave rows of its batch behind. -/
  queue : s.pc ≠ .returned → ∀ id ∈ s.queue.ids, id ∉ s.pc.taken → OwesOnly s.log s.pc.rest id

theorem fair_startCleanup (queue : Queue) (now : Int) : (startCleanup queue now).Fair where
  notStarved := trivial
  rest := nofun
  queue := fun _ _ _ _ => owesOnly_of_none rfl

theorem Fair.owes (h : s.Fair) {pc : Pc} (hpc : s.pc = pc) (hover : pc ≠ .returned) (hid : id ∈ s.queue.ids)
    (hnot : id ∉ pc.taken) : OwesOnly s.log pc.rest id := by
  subst hpc
  exact h.queue hover id hid hnot

theorem Fair.attempted (h : s.Fair) (hwf : s.Wf) {row : Row} {rest : List Row} {processedIds : List Nat} {pc' : Pc}
    (hpc : s.pc = .batch (row :: rest) processedIds) (htaken : pc'.taken = processedIds ++ [row.id])
    (hrest : pc'.rest = rest.map Row.id)
    : Fair { s with pc := pc', log := .attempted row.id s.dueIds :: s.log } := by
  have hcoming : s.pc.rest = row.id :: rest.map Row.id := by
    rw [hpc]
    rfl
  refine ⟨⟨h.rest row.id (hcoming ▸ List.mem_cons_self), h.notStarved⟩, ?_, ?_⟩
  . intro id hid
    have hid : id ∈ rest.map Row.id := hrest ▸ hid
    have hnodup : (row.id :: rest.map Row.id).Nodup := hcoming ▸ (List.nodup_append.mp hwf.held_nodup).2.1
    have hne : row.id ≠ id := ne_of_mem_of_not_mem hid (List.nodup_cons.mp hnodup).1 |>.symm
    have howes := h.rest id (hcoming ▸ List.mem_cons_of_mem _ hid)
    exact (howes.mono (List.nil_subset _)).attempted hne
  . intro hover id hid hnot
    have hnot : id ∉ processedIds ++ [row.id] := htaken ▸ hnot
    rw [List.mem_append, not_or, List.mem_singleton] at hnot
    have howes := h.owes hpc nofun hid (Pc.taken_batch.symm ▸ hnot.1)
    exact hrest ▸ OwesOnly.attempted howes (Ne.symm hnot.2)

theorem Fair.failed {outcome : Outcome} (h : s.Fair) (hnobody : s.HoldsUpNobody (.answered outcome)) {row : Row}
    {rest : List Row} {processedIds : List Nat} (hpc : s.pc = .deleting row rest processedIds)
    (hfailed : tryDelete outcome = false) : Fair { s with pc := .batch rest processedIds } := by
  refine ⟨h.notStarved, ?_, ?_⟩
  . have hrest := h.rest
    rw [hpc] at hrest
    exact hrest
  . intro _ id hid hnot
    rw [Pc.taken_batch] at hnot
    by_cases heq : id = row.id
    . have hkept : id ∈ s.keeps (.answered outcome) := by
        rw [keeps_of_failed hpc hfailed, heq]
        exact List.mem_singleton_self row.id
      have howes := hnobody id hkept hid
      rw [hpc] at howes
      exact howes
    . apply h.owes hpc nofun hid
      rw [Pc.taken_deleting, List.mem_append, not_or, List.mem_singleton]
      exact ⟨hnot, heq⟩

theorem Fair.moves (h : s.Fair) (hwf : s.Wf) (hnobody : s.HoldsUpNobody e) (hmoves : Moves s e s') : s'.Fair := by
  cases hmoves with
  | elapsed us => exact ⟨h.notStarved, h.rest, h.queue⟩
  | enqueued hqueue =>
    refine ⟨h.notStarved, h.rest, ?_⟩
    intro hover id hid hnot
    rcases mem_ids.mp hid with ⟨row, hrow, rfl⟩
    rcases mem_of_enqueueAutoDelete hqueue hrow with hnew | ⟨old, hold, heq, _⟩
    . -- A new row was never attempted.
      apply owesOnly_of_none
      by_contra hattempted
      exact hnew (hwf.ripe_of_attempted hattempted).1
    . exact h.queue hover row.id (mem_ids.mpr ⟨old, hold, heq⟩) hnot
  | deleted ids =>
    refine ⟨h.notStarved, fun id hid => (h.rest id hid).removed _, ?_⟩
    intro hover id hid hnot
    exact (h.queue hover id (mem_ids_removeAutoDeleteEntries.mp hid).1 hnot).removed _
  | silent hpc hover htaken hrest =>
    subst hpc
    refine ⟨h.notStarved, hrest ▸ h.rest, ?_⟩
    intro _ id hid hnot
    exact hrest ▸ h.queue hover id hid (htaken ▸ hnot)
  | claimed hpc =>
    have hall {id : Nat} (hid : id ∈ s.queue.ids) : OwesOnly s.log [] id := h.owes hpc nofun hid List.not_mem_nil
    refine ⟨h.notStarved, ?_, ?_⟩
    . intro id hid
      rcases List.mem_map.mp hid with ⟨row, hrow, rfl⟩
      exact hall (mem_ids.mpr ⟨row, (mem_claimDueAutoDelete hrow).1, rfl⟩)
    . intro _ id hid _
      exact (hall hid).mono (List.nil_subset _)
  | attempted hpc htaken hrest => exact h.attempted hwf hpc htaken hrest
  | failed hpc hfailed => exact h.failed hnobody hpc hfailed
  | committed hpc =>
    refine ⟨h.notStarved, nofun, ?_⟩
    intro _ id hid _
    have hid := mem_ids_removeAutoDeleteEntries.mp hid
    exact (h.owes hpc nofun hid.1 (Pc.taken_batch.symm ▸ hid.2)).removed _
  | @rolledBack processedIds hpc =>
    refine ⟨h.notStarved, nofun, ?_⟩
    intro _ id hid _
    by_cases hprocessed : id ∈ processedIds
    . have hkept : id ∈ s.keeps .rolledBack := by
        simp only [keeps]
        rw [hpc]
        exact hprocessed
      have howes := hnobody id hkept hid
      rw [hpc] at howes
      exact howes
    . have howes := h.owes hpc nofun hid (Pc.taken_batch.symm ▸ hprocessed)
      exact howes
  | cancelled => exact ⟨h.notStarved, nofun, fun hover => absurd rfl hover⟩

theorem notStarved_of_stepsMeet {queue : Queue} {now : Int} {es : List Event}
    (hnobody : Run.StepsMeet step HoldsUpNobody (startCleanup queue now) es)
    (hrun : Run.exec step (startCleanup queue now) es = some s) : NotStarved s.log :=
  (Run.invariant (I := fun s => Wf s ∧ Fair s)
    (fun h hnobody hstep =>
      have hmoves := moves_of_step hstep
      ⟨h.1.moves hmoves, h.2.moves h.1 hnobody hmoves⟩)
    ⟨wf_startCleanup queue now, fair_startCleanup queue now⟩ hnobody hrun).2.notStarved

def CanStarve (s : Cleanup) : Prop := ∃ es s', Run.exec step s es = some s' ∧ ¬ NotStarved s'.log

theorem CanStarve.of_step (hstep : s.step e = some s') (h : s'.CanStarve) : s.CanStarve := by
  rcases h with ⟨es, t, hrun, hstarved⟩
  exact ⟨e :: es, t, Run.exec_cons_eq_some.mpr ⟨s', hstep, hrun⟩, hstarved⟩

structure HeldUp (s : Cleanup) (id other : Nat) : Prop where
  waiting : other ∈ (firstWaiting s.log id).getD []
  unsettled : ¬ Settled s.log other
  due : ∃ row ∈ s.queue.rows, row.id = id ∧ row.deleteAt ≤ s.now

variable {other : Nat}

theorem HeldUp.setPc (h : s.HeldUp id other) (pc' : Pc) : HeldUp { s with pc := pc' } id other :=
  ⟨h.waiting, h.unsettled, h.due⟩

theorem HeldUp.attempted (h : s.HeldUp id other) {row : Row} (hne : row.id ≠ other) (pc' : Pc)
    : HeldUp { s with pc := pc', log := .attempted row.id s.dueIds :: s.log } id other where
  waiting := by
    rw [firstWaiting_cons (firstWaiting_ne_none h.waiting)]
    exact h.waiting
  unsettled := by
    rw [settled_cons, not_or]
    exact ⟨hne, h.unsettled⟩
  due := h.due

theorem HeldUp.remove (h : s.HeldUp id other) {ids : List Nat} (hid : id ∉ ids) (hother : other ∉ ids)
    : (s.remove ids).HeldUp id other where
  waiting := h.waiting
  unsettled := by
    unfold Cleanup.remove
    rw [settled_cons, not_or]
    exact ⟨fun hmem => hother (of_decide_eq_true (List.mem_filter.mp hmem).2), h.unsettled⟩
  due := by
    rcases h.due with ⟨row, hrow, rfl, hdue⟩
    exact ⟨row, mem_removeAutoDeleteEntries.mpr ⟨hrow, hid⟩, rfl, hdue⟩

theorem exists_rowTaken {row : Row} {rest : List Row} {processedIds : List Nat}
    (hpc : s.pc = .batch (row :: rest) processedIds)
    : ∃ pc', s.step .rowTaken = some { s with pc := pc', log := .attempted row.id s.dueIds :: s.log } ∧
        (pc' = .deleting row rest processedIds ∨ pc' = .batch rest (processedIds ++ [row.id])) := by
  simp only [step, rowTaken]
  rw [hpc]
  dsimp
  split
  . exact ⟨_, rfl, Or.inl rfl⟩
  . exact ⟨_, rfl, Or.inr rfl⟩

theorem HeldUp.canStarve_of_next {row : Row} (h : s.HeldUp row.id other) {rest : List Row} {processedIds : List Nat}
    (hpc : s.pc = .batch (row :: rest) processedIds) : s.CanStarve := by
  rcases exists_rowTaken hpc with ⟨pc', hstep, -⟩
  refine ⟨[.rowTaken], _, Run.exec_cons_eq_some.mpr ⟨_, hstep, rfl⟩, ?_⟩
  intro hnot
  rcases hnot.1 other h.waiting with hsettled | hcoming
  . exact h.unsettled hsettled
  . cases hcoming

theorem HeldUp.canStarve_of_claiming (h : s.HeldUp id other) (hpc : s.pc = .claiming) : s.CanStarve := by
  let locked := s.queue.ids.filter fun id' => id' ≠ id
  rcases h.due with ⟨row, hrow, rfl, hdue⟩
  have hclaimed : claimDueAutoDelete s.queue s.now locked 200 ≠ [] := by
    apply claimDueAutoDelete_ne_nil hrow hdue _ (by decide)
    intro hmem
    exact of_decide_eq_true (List.mem_filter.mp hmem).2 rfl
  have hstep : s.step (.claimed locked) =
      some { s with pc := .batch (claimDueAutoDelete s.queue s.now locked 200) [] } := by
    simp only [step, claimed]
    rw [hpc]
    dsimp
    rw [if_neg hclaimed]
  apply CanStarve.of_step hstep
  rcases List.exists_cons_of_ne_nil hclaimed with ⟨first, rest, heq⟩
  have hfirst := mem_claimDueAutoDelete (heq ▸ List.mem_cons_self)
  have hid : first.id = row.id := by
    by_contra hne
    apply hfirst.2.2
    rw [List.mem_filter, decide_eq_true_iff]
    exact ⟨mem_ids.mpr ⟨first, hfirst.1, rfl⟩, hne⟩
  have hnext := (hid.symm ▸ h).setPc (.batch (claimDueAutoDelete s.queue s.now locked 200) [])
  exact hnext.canStarve_of_next (by rw [heq])

theorem HeldUp.canStarve_of_looping (h : s.HeldUp id other) (hpc : s.pc = .looping) : s.CanStarve := by
  have hstep : s.step .roundStarted = some { s with pc := .claiming } := goto_of_pc hpc .claiming
  apply CanStarve.of_step hstep
  exact (h.setPc .claiming).canStarve_of_claiming rfl

theorem HeldUp.canStarve_of_sleeping (h : s.HeldUp id other) (hpc : s.pc = .sleeping) : s.CanStarve := by
  have hstep : s.step .slept = some { s with pc := .looping } := goto_of_pc hpc .looping
  apply CanStarve.of_step hstep
  exact (h.setPc .looping).canStarve_of_looping rfl

theorem HeldUp.canStarve_of_batch {rest : List Row} {processedIds : List Nat} (h : s.HeldUp id other)
    (hpc : s.pc = .batch rest processedIds) (hid : id ∉ processedIds ++ rest.map Row.id)
    (hother : other ∉ processedIds ++ rest.map Row.id) : s.CanStarve := by
  induction rest generalizing s processedIds with
  | nil =>
    rw [List.map_nil, List.append_nil] at hid hother
    have hstep : s.step .committed =
        some { (if processedIds = [] then s else s.remove processedIds) with pc := .sleeping } := by
      simp only [step, committed]
      rw [hpc]
    have hleft : HeldUp (if processedIds = [] then s else s.remove processedIds) id other := by
      split
      . exact h
      . exact h.remove hid hother
    apply CanStarve.of_step hstep
    exact (hleft.setPc .sleeping).canStarve_of_sleeping rfl
  | cons row rest ih =>
    rw [List.map_cons, ← List.singleton_append, ← List.append_assoc] at hid hother
    have hne : row.id ≠ other := by
      rintro rfl
      exact hother (List.mem_append_left _ (List.mem_append_right _ (List.mem_singleton_self row.id)))
    have hnext := ih (h.attempted hne (.batch rest (processedIds ++ [row.id]))) rfl hid hother
    rcases exists_rowTaken hpc with ⟨pc', hstep, rfl | rfl⟩
    . exact (hnext.of_step (e := .answered .deleted) rfl).of_step hstep
    . exact hnext.of_step hstep

theorem keeps_cases (hstep : s.step e = some s') (hkept : id ∈ s.keeps e)
    : (∃ row rest processedIds, s.pc = .deleting row rest processedIds ∧ row.id = id ∧
        s' = { s with pc := .batch rest processedIds }) ∨
      ∃ processedIds, s.pc = .batch [] processedIds ∧ s' = { s with pc := .sleeping } := by
  cases e with
  | answered outcome =>
    change s.answered outcome = some s' at hstep
    unfold answered at hstep
    split at hstep
    . next row rest processedIds hpc =>
      cases hstep
      simp only [keeps] at hkept
      rw [hpc] at hkept
      by_cases hgone : tryDelete outcome = true
      . rw [if_pos hgone] at hkept
        cases hkept
      . rw [if_neg hgone] at hkept
        rw [if_neg hgone]
        exact Or.inl ⟨row, rest, processedIds, hpc, (List.mem_singleton.mp hkept).symm, rfl⟩
    . cases hstep
  | rolledBack =>
    change s.rolledBack = some s' at hstep
    unfold rolledBack at hstep
    split at hstep
    . next processedIds hpc =>
      cases hstep
      exact Or.inr ⟨processedIds, hpc, rfl⟩
    . cases hstep
  | _ => cases hkept

theorem Wf.canStarve (hwf : s.Wf) (hstep : s.step e = some s') (hholds : ¬ s.HoldsUpNobody e) : s'.CanStarve := by
  unfold HoldsUpNobody OwesOnly at hholds
  push Not at hholds
  rcases hholds with ⟨id, hkept, hqueue, other, hwaiting, hunsettled, hrest⟩
  have hheld : s.HeldUp id other := by
    rcases mem_ids.mp hqueue with ⟨row, hrow, rfl⟩
    have hripe := hwf.ripe_of_attempted (firstWaiting_ne_none hwaiting)
    exact ⟨hwaiting, hunsettled, row, hrow, rfl, hripe.2 row hrow rfl⟩
  have hother : other ∉ s.pc.taken := fun hmem => hunsettled (hwf.settled other hmem)
  rcases keeps_cases hstep hkept with ⟨row, rest, processedIds, hpc, rfl, rfl⟩ | ⟨processedIds, hpc, rfl⟩
  . rw [hpc, Pc.rest_deleting] at hrest
    rw [hpc, Pc.taken_deleting] at hother
    have hnodup := hwf.held_nodup
    unfold Pc.held at hnodup
    rw [hpc, Pc.taken_deleting, Pc.rest_deleting, List.append_assoc, List.singleton_append, List.nodup_middle,
      List.nodup_cons] at hnodup
    apply (hheld.setPc (.batch rest processedIds)).canStarve_of_batch rfl hnodup.1
    intro hmem
    rcases List.mem_append.mp hmem with hmem | hmem
    . exact hother (List.mem_append_left _ hmem)
    . exact hrest hmem
  . exact (hheld.setPc .sleeping).canStarve_of_sleeping rfl

/--
`auto_cleanup_loop` starves no row as long as none is held up by one that stays, and any step that breaks this may
be followed by steps that starve a row.
-/
theorem notStarved_of_holdsUpNobody {queue : Queue} {now : Int} {es : List Event} {s : Cleanup}
    (hrun : Run.exec step (startCleanup queue now) es = some s)
    : (Run.StepsMeet step HoldsUpNobody (startCleanup queue now) es → NotStarved s.log) ∧
        ∀ e s', s.step e = some s' → ¬ s.HoldsUpNobody e → s'.CanStarve := by
  constructor
  . intro hnobody
    exact notStarved_of_stepsMeet hnobody hrun
  . intro e s' hstep hholds
    exact ((wf_startCleanup queue now).exec hrun).canStarve hstep hholds

def twoRows : Queue where
  rows := [⟨1, "777", 10, 0⟩, ⟨2, "777", 11, 0⟩]
  usedIds := [1, 2]
  ids_nodup := by decide
  messages_nodup := by decide
  ids_used := by decide

theorem notStarved_of_holdsUpNobody_twoRows
    : (∃ s, Run.exec step (startCleanup twoRows 0)
          [.roundStarted, .claimed [], .rowTaken, .answered .raised, .rowTaken, .answered .deleted, .committed, .slept,
            .roundStarted, .claimed [], .rowTaken] = some s ∧ NotStarved s.log) ∧
        ∃ s s', Run.exec step (startCleanup twoRows 0) [.roundStarted, .claimed [2], .rowTaken] = some s ∧
          s.step (.answered .raised) = some s' ∧ s'.CanStarve := by
  constructor
  . have hrun : (Run.exec step (startCleanup twoRows 0)
        [.roundStarted, .claimed [], .rowTaken, .answered .raised, .rowTaken, .answered .deleted, .committed, .slept,
          .roundStarted, .claimed [], .rowTaken]).isSome := by decide +kernel
    refine ⟨_, (Option.some_get hrun).symm, ?_⟩
    exact (notStarved_of_holdsUpNobody (Option.some_get hrun).symm).1 (by decide +kernel)
  . have hrun : (Run.exec step (startCleanup twoRows 0) [.roundStarted, .claimed [2], .rowTaken]).isSome := by
      decide +kernel
    have hstep : (step (Option.get _ hrun) (.answered .raised)).isSome := by decide +kernel +revert
    refine ⟨_, _, (Option.some_get hrun).symm, (Option.some_get hstep).symm, ?_⟩
    exact (notStarved_of_holdsUpNobody (Option.some_get hrun).symm).2 _ _ (Option.some_get hstep).symm
      (by decide +kernel +revert)

def fullQueue : Queue where
  rows := (List.range' 1 201).map fun id => ⟨id, "777", id, 0⟩
  usedIds := List.range' 1 201
  ids_nodup := by
    rw [List.map_map]
    exact List.Nodup.map (fun id id' h => h) List.nodup_range'
  messages_nodup := by
    rw [List.map_map]
    exact List.Nodup.map (fun id id' h => Int.ofNat.inj (congrArg Prod.snd h)) List.nodup_range'
  ids_used := by
    intro row hrow
    rcases List.mem_map.mp hrow with ⟨id, hid, rfl⟩
    exact hid

def chatNotFound : Outcome := .badRequest "Telegram server says - Bad Request: chat not found"

def twoRounds : List Event :=
  [.roundStarted, .claimed []] ++ (List.replicate 200 [.rowTaken, .answered chatNotFound]).flatten ++
    [.committed, .slept, .roundStarted, .claimed [], .rowTaken]

theorem starved_fullQueue
    : ∃ s, Run.exec step (startCleanup fullQueue 0) twoRounds = some s ∧ ¬ NotStarved s.log := by
  have hrun : ∃ s ∈ Run.exec step (startCleanup fullQueue 0) twoRounds, ¬ NotStarved s.log := by decide +kernel
  exact hrun

end Cleanup

end AutoDelete
