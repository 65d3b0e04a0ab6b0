import VoltykBot.Handlers.BroadcastRun
import Mathlib.Data.List.Induction

/-!
This module contains the progress messages of a broadcast. One is due after every user as long as the number of
texts that were sent is a multiple of `_PROGRESS_EVERY`, so that a user who is not reached repeats it.
-/

namespace BroadcastRun

def reports (sent : Nat) (outcomes : List Counter) : List Nat :=
  match outcomes with
  | [] => []
  | outcome :: outcomes =>
    let sent := sent + [outcome].count .sent
    (if Due sent then [sent] else []) ++ reports sent outcomes

def repeats (sent : Nat) (outcomes : List Counter) : Nat :=
  match outcomes with
  | [] => 0
  | outcome :: outcomes =>
    (if outcome ≠ .sent ∧ Due sent then 1 else 0) + repeats (sent + [outcome].count .sent) outcomes

def blockReports (sent : Nat) : List Nat :=
  (List.range (sent / progressEvery)).map fun block => (block + 1) * progressEvery

theorem reports_concat (sent : Nat) (outcomes : List Counter) (outcome : Counter)
    : reports sent (outcomes ++ [outcome])
        =
      reports sent outcomes ++
        if Due (sent + (outcomes ++ [outcome]).count .sent) then
          [sent + (outcomes ++ [outcome]).count .sent]
        else
          [] := by
  induction outcomes generalizing sent with
  | nil =>
    rw [List.nil_append, reports, reports]
    exact List.append_nil _
  | cons first outcomes ih =>
    have hcount : sent + [first].count .sent + (outcomes ++ [outcome]).count .sent =
        sent + (first :: (outcomes ++ [outcome])).count .sent := by
      rw [Nat.add_assoc, ← List.count_append]
      rfl
    rw [List.cons_append, reports, ih, hcount, reports, List.append_assoc]

theorem repeats_concat (sent : Nat) (outcomes : List Counter) (outcome : Counter)
    : repeats sent (outcomes ++ [outcome])
        =
      repeats sent outcomes + if outcome ≠ .sent ∧ Due (sent + outcomes.count .sent) then 1 else 0 := by
  induction outcomes generalizing sent with
  | nil =>
    rw [List.nil_append, repeats, repeats]
    exact Nat.add_comm _ _
  | cons first outcomes ih =>
    have hcount : sent + [first].count .sent + outcomes.count .sent = sent + (first :: outcomes).count .sent := by
      rw [Nat.add_assoc, ← List.count_append]
      rfl
    rw [List.cons_append, repeats, ih, hcount, repeats, Nat.add_assoc]

theorem count_concat (outcomes : List Counter) (outcome : Counter)
    : (outcomes ++ [outcome]).count .sent = outcomes.count .sent + if outcome = .sent then 1 else 0 := by
  rw [List.count_append]
  cases outcome with
  | sent => rfl
  | failed => rfl
  | blocked => rfl

theorem div_of_due {sent : Nat} (h : Due (sent + 1)) : (sent + 1) / progressEvery = sent / progressEvery + 1 := by
  unfold Due progressEvery at h
  unfold progressEvery
  omega

theorem div_of_not_due {sent : Nat} (h : ¬ Due (sent + 1)) : (sent + 1) / progressEvery = sent / progressEvery := by
  unfold Due progressEvery at h
  unfold progressEvery
  omega

theorem length_reports (outcomes : List Counter)
    : (reports 0 outcomes).length = outcomes.count .sent / progressEvery + repeats 0 outcomes := by
  induction outcomes using List.reverseRecOn with
  | nil => rfl
  | append_singleton outcomes outcome ih =>
    rw [reports_concat, List.length_append, ih, repeats_concat, Nat.zero_add, Nat.zero_add, count_concat]
    by_cases hsent : outcome = .sent
    . have hnever : ¬ (outcome ≠ .sent ∧ Due (outcomes.count .sent)) := fun h => h.1 hsent
      rw [if_pos hsent, if_neg hnever]
      by_cases hdue : Due (outcomes.count .sent + 1)
      . rw [if_pos hdue, div_of_due hdue, List.length_singleton]
        omega
      . rw [if_neg hdue, div_of_not_due hdue, List.length_nil]
        rfl
    . rw [if_neg hsent, Nat.add_zero]
      by_cases hdue : Due (outcomes.count .sent)
      . rw [if_pos hdue, if_pos ⟨hsent, hdue⟩, List.length_singleton, Nat.add_assoc]
      . have hnever : ¬ (outcome ≠ .sent ∧ Due (outcomes.count .sent)) := fun h => hdue h.2
        rw [if_neg hdue, if_neg hnever, List.length_nil]
        rfl

theorem blockReports_succ {sent : Nat} (h : Due (sent + 1))
    : blockReports (sent + 1) = blockReports sent ++ [sent + 1] := by
  have hblock : (sent / progressEvery + 1) * progressEvery = sent + 1 := by
    have hdiv := div_of_due h
    unfold Due progressEvery at *
    omega
  unfold blockReports
  rw [div_of_due h, List.range_succ, List.map_append, List.map_singleton, hblock]

theorem reports_of_repeats {outcomes : List Counter} (h : repeats 0 outcomes = 0)
    : reports 0 outcomes = blockReports (outcomes.count .sent) := by
  induction outcomes using List.reverseRecOn with
  | nil => rfl
  | append_singleton outcomes outcome ih =>
    rw [repeats_concat, Nat.zero_add, Nat.add_eq_zero_iff] at h
    rw [reports_concat, ih h.1, Nat.zero_add, count_concat]
    by_cases hsent : outcome = .sent
    . rw [if_pos hsent]
      by_cases hdue : Due (outcomes.count .sent + 1)
      . rw [if_pos hdue, blockReports_succ hdue]
      . unfold blockReports
        rw [if_neg hdue, div_of_not_due hdue, List.append_nil]
    . rw [if_neg hsent, Nat.add_zero]
      have hdue : ¬ Due (outcomes.count .sent) := by
        intro hdue
        rw [if_pos ⟨hsent, hdue⟩] at h
        cases h.2
      rw [if_neg hdue, List.append_nil]

theorem reports_eq_iff (outcomes : List Counter)
    : reports 0 outcomes = blockReports (outcomes.count .sent) ↔ repeats 0 outcomes = 0 := by
  constructor
  . intro h
    have hlength := length_reports outcomes
    rw [h, blockReports, List.length_map, List.length_range] at hlength
    omega
  . exact reports_of_repeats

namespace Call

def outcomes (call : Call) : List Counter := call.counted.map Prod.snd

def isPending (call : Call) : Bool :=
  match call.pc with
  | .user _ _ _ .deactivating => true
  | .user _ _ _ .reporting => true
  | _ => false

structure Reported (call : Call) : Prop where
  settled : call.isPending = false → call.progress = reports 0 call.outcomes
  pending : call.isPending = true →
    call.progress ++ (if Due call.sent then [call.sent] else []) = reports 0 call.outcomes
  due : ∀ batch rest user, call.pc = .user batch rest user .reporting → Due call.sent

section Reported

variable {maxRetries : Nat} {call call' : Call} {own : Bool}

theorem Reported.settle (h : Reported call) {call' : Call} (hpending : call.isPending = false)
    (hprogress : call'.progress = call.progress) (hcounted : call'.counted = call.counted)
    (hpending' : call'.isPending = false) : Reported call' := by
  have hsettled : call'.progress = reports 0 call'.outcomes := by
    unfold outcomes
    rw [hprogress, hcounted]
    exact h.settled hpending
  refine ⟨fun _ => hsettled, ?_, ?_⟩
  . intro hnot
    rw [hpending'] at hnot
    cases hnot
  . intro batch rest user hpc
    unfold isPending at hpending'
    rw [hpc] at hpending'
    cases hpending'

theorem reported_afterAttempts {batch rest : List User} {user : User}
    (hreports : call.progress ++ (if Due call.sent then [call.sent] else []) = reports 0 call.outcomes)
    : Reported (call.afterAttempts batch rest user) := by
  unfold afterAttempts
  by_cases hdue : Due call.sent
  . rw [if_pos hdue]
    exact ⟨nofun, fun _ => hreports, fun _ _ _ _ => hdue⟩
  . rw [if_neg hdue]
    rw [if_neg hdue, List.append_nil] at hreports
    exact ⟨fun _ => hreports, nofun, nofun⟩

theorem Reported.bump (h : Reported call) (hbooks : Books call) {batch rest : List User} {user : User}
    {attempt : Nat} (hpc : call.pc = .user batch rest user (.sending attempt)) (counter : Counter)
    : call.progress ++
        (if Due (call.bump user counter).sent then [(call.bump user counter).sent] else [])
        =
      reports 0 (call.bump user counter).outcomes := by
  have hsettled : call.progress = reports 0 call.outcomes := by
    apply h.settled
    unfold isPending
    rw [hpc]
  have hsent : call.sent + [counter].count .sent = (call.outcomes ++ [counter]).count .sent := by
    rw [List.count_append, hbooks.sent]
    rfl
  have houtcomes : (call.bump user counter).outcomes = call.outcomes ++ [counter] := by
    unfold outcomes
    rw [bump_eq, List.map_append]
    rfl
  rw [houtcomes, reports_concat, Nat.zero_add, ← hsettled, bump_eq, ← hsent]

theorem Reported.moves (h : Reported call) (hbooks : Books call) (hmoves : Moves maxRetries call own call')
    : Reported call' := by
  cases hmoves with
  | environment hmono => exact ⟨h.settled, h.pending, h.due⟩
  | @waited batch rest user pc pc' hpc hattempting hattempting' hleft hless =>
    apply h.settle
    . unfold isPending
      rw [hpc]
      cases pc with
      | deactivating => cases hattempting
      | reporting => cases hattempting
      | _ => rfl
    . rfl
    . rfl
    . unfold isPending
      cases pc' with
      | deactivating => cases hattempting'
      | reporting => cases hattempting'
      | _ => rfl
  | @counted batch rest user attempt ids counter hpc hids =>
    have hreports := h.bump hbooks hpc counter
    apply reported_afterAttempts
    rw [bump_eq] at hreports ⊢
    exact hreports
  | @blocked batch rest user attempt hpc =>
    have hreports := h.bump hbooks hpc .blocked
    rw [bump_eq] at hreports ⊢
    exact ⟨nofun, fun _ => hreports, nofun⟩
  | @deactivated batch rest user hpc =>
    apply reported_afterAttempts
    apply h.pending
    unfold isPending
    rw [hpc]
  | @progressSent batch rest user hpc =>
    have hreports : call.progress ++ (if Due call.sent then [call.sent] else []) = reports 0 call.outcomes := by
      apply h.pending
      unfold isPending
      rw [hpc]
    rw [if_pos (h.due batch rest user hpc)] at hreports
    exact ⟨fun _ => hreports, nofun, nofun⟩
  | roundStarted hpc | stopped hpc _ | exhausted hpc _ | pageRead hpc _ | userTaken hpc | batchDone hpc _
    | summarySent hpc =>
    apply h.settle
    . unfold isPending
      rw [hpc]
    . rfl
    . rfl
    . rfl

end Reported

section Runs

variable {maxRetries : Nat} {table : Users} {es : List Event} {call : Call}

theorem reported_run (hregular : ∀ e ∈ es, e.isRegular = true)
    (hrun : Run.exec (step maxRetries) (startCall table) es = some call) : Reported call := by
  have hboth := Run.invariant (I := fun call => Sound maxRetries call ∧ Reported call)
    (C := fun _ e => e.isRegular = true)
    (fun h hregular hstep =>
      ⟨h.1.step hregular hstep, h.2.moves h.1.books (moves_of_step hregular h.1.retries hstep)⟩)
    ⟨sound_start table, fun _ => rfl, nofun, nofun⟩ (Run.StepsMeet.of_events hregular) hrun
  exact hboth.2

theorem length_progress (hregular : ∀ e ∈ es, e.isRegular = true)
    (hrun : Run.exec (step maxRetries) (startCall table) es = some call) (hpending : call.isPending = false)
    : call.progress.length = call.sent / progressEvery + repeats 0 call.outcomes := by
  have hsent : call.sent = call.outcomes.count .sent := (sound_run hregular hrun).books.sent
  rw [(reported_run hregular hrun).settled hpending, hsent, length_reports]

def OncePerBlock (call : Call) : Prop :=
  call.progress.length ≤ call.sent / progressEvery ∧ call.progress = blockReports call.sent

/--
The progress messages of an uninterrupted run are one for each multiple and one more for each user that was not
reached right behind a multiple.
-/
theorem oncePerBlock_iff (hregular : ∀ e ∈ es, e.isRegular = true)
    (hrun : Run.exec (step maxRetries) (startCall table) es = some call) (hpending : call.isPending = false)
    : (OncePerBlock call ↔ repeats 0 call.outcomes = 0) ∧
        call.progress.length = call.sent / progressEvery + repeats 0 call.outcomes := by
  have hlength := length_progress hregular hrun hpending
  have hsent : call.sent = call.outcomes.count .sent := (sound_run hregular hrun).books.sent
  refine ⟨?_, hlength⟩
  unfold OncePerBlock
  rw [hlength, (reported_run hregular hrun).settled hpending, hsent, reports_eq_iff]
  constructor
  . exact And.right
  . intro hrepeats
    refine ⟨?_, hrepeats⟩
    rw [hrepeats]
    exact Nat.le_refl _

def oneUser (id : Nat) : User := { id := id + 1, telegramId := 0, isActive := true }

def oneUserTable (id : Nat) : Users where
  rows := [oneUser id]
  ids_nodup := List.nodup_singleton _
  ids_pos row hrow := by
    rw [List.mem_singleton.mp hrow]
    exact Nat.succ_pos id

def answersOf (outcome : Counter) : List Event :=
  match outcome with
  | .sent => [.answered .delivered]
  | .failed => [.answered (.raised false)]
  | .blocked => [.answered .forbidden, .deactivated]

theorem page_oneUser (id : Nat) : getActiveUserIdsCursor (oneUserTable id) batchSize id = [oneUser id] := by
  unfold getActiveUserIdsCursor Keyset.page Keyset.beyond oneUserTable
  rw [List.filter_cons, if_pos (by simp [oneUser]), List.filter_nil]
  rfl

theorem exec_toUser (hpc : call.pc = .looping) (hcancel : call.cancelled = false)
    : Run.exec (step maxRetries) call
        [.tableChanged (oneUserTable call.lastId), .roundStarted, .pageRead, .userTaken, .acquired]
        =
      some { call with
        table := oneUserTable call.lastId
        pc := .user [oneUser call.lastId] [] (oneUser call.lastId) (.sending 0)
        attempted := call.attempted ++ [oneUser call.lastId] } := by
  simp only [Run.exec, step, roundStarted, pageRead, userTaken, acquired, hpc, hcancel, page_oneUser, if_neg,
    Bool.false_eq_true, not_false_eq_true, List.cons_ne_nil]

theorem exec_answersOf {batch rest : List User} {user : User}
    (hpc : call.pc = .user batch rest user (.sending 0)) (outcome : Counter)
    : ∃ ids, Run.exec (step maxRetries) call (answersOf outcome)
        =
      some (({ call with arrived := call.arrived ++ ids } : Call).bump user outcome |>.afterAttempts batch rest user)
    := by
  cases outcome with
  | sent =>
    refine ⟨[user.id], ?_⟩
    simp only [answersOf, Run.exec, step, answered, hpc, Answer.arrivals]
  | failed =>
    refine ⟨[], ?_⟩
    simp only [answersOf, Run.exec, step, answered, hpc, Answer.arrivals]
  | blocked =>
    refine ⟨[], ?_⟩
    simp only [answersOf, Run.exec, step, answered, deactivated, hpc, Answer.arrivals]
    rfl

theorem exec_toLooping {batch : List User} {user : User}
    (hpc : call.pc = .user batch [] user .reporting ∨ call.pc = .users batch [])
    : ∃ es call', (∀ e ∈ es, e.isRegular = true) ∧ Run.exec (step maxRetries) call es = some call' ∧
        call'.pc = .looping ∧ call'.cancelled = call.cancelled ∧ call'.counted = call.counted := by
  rcases hpc with hpc | hpc
  . let looping : Call :=
      { call with
        pc := .looping
        lastId := batch.getLast?.elim call.lastId User.id
        progress := call.progress ++ [call.sent] }
    refine ⟨[.progressSent, .userTaken], looping, ?_, ?_, rfl, rfl, rfl⟩
    . simp [Event.isRegular]
    . simp only [Run.exec, step, progressSent, userTaken, hpc, ite_self]
      rfl
  . let looping : Call :=
      { call with pc := .looping, lastId := batch.getLast?.elim call.lastId User.id }
    refine ⟨[.userTaken], looping, ?_, ?_, rfl, rfl, rfl⟩
    . simp [Event.isRegular]
    . simp only [Run.exec, step, userTaken, hpc, ite_self]
      rfl

theorem exists_userRun (maxRetries : Nat) (hpc : call.pc = .looping) (hcancel : call.cancelled = false)
    (outcome : Counter)
    : ∃ es call', (∀ e ∈ es, e.isRegular = true) ∧ Run.exec (step maxRetries) call es = some call' ∧
        call'.pc = .looping ∧ call'.cancelled = false ∧ call'.outcomes = call.outcomes ++ [outcome] := by
  let user := oneUser call.lastId
  let sending : Call :=
    { call with
      table := oneUserTable call.lastId
      pc := .user [user] [] user (.sending 0)
      attempted := call.attempted ++ [user] }
  have htaken : Run.exec (step maxRetries) call
      [.tableChanged (oneUserTable call.lastId), .roundStarted, .pageRead, .userTaken, .acquired] =
        some sending :=
    exec_toUser hpc hcancel
  have hsending : sending.pc = .user [user] [] user (.sending 0) := rfl
  obtain ⟨ids, hanswers⟩ := exec_answersOf hsending outcome
  obtain ⟨es, call', hregular, hrun, hpc', hcancel', hcounted⟩ :=
    exec_toLooping (afterAttempts_pc
      (({ sending with arrived := sending.arrived ++ ids } : Call).bump user outcome) [user] [] user)
  refine ⟨[.tableChanged (oneUserTable call.lastId), .roundStarted, .pageRead, .userTaken, .acquired] ++
    (answersOf outcome ++ es), call', ?_, ?_, hpc', ?_, ?_⟩
  . cases outcome with
    | _ => simpa [answersOf, Event.isRegular] using hregular
  . rw [Run.exec_append, htaken, Option.bind_some, Run.exec_append, hanswers]
    exact hrun
  . rw [hcancel', bump_eq]
    exact hcancel
  . unfold outcomes
    rw [hcounted, bump_eq]
    exact List.map_append

theorem exists_run (maxRetries : Nat) (table : Users) (outcomes : List Counter)
    : ∃ es call, (∀ e ∈ es, e.isRegular = true) ∧ Run.exec (step maxRetries) (startCall table) es = some call ∧
        call.pc = .looping ∧ call.cancelled = false ∧ call.outcomes = outcomes := by
  induction outcomes using List.reverseRecOn with
  | nil => exact ⟨[], startCall table, nofun, rfl, rfl, rfl, rfl⟩
  | append_singleton outcomes outcome ih =>
    obtain ⟨es, call, hregular, hrun, hpc, hcancel, rfl⟩ := ih
    obtain ⟨es', call', hregular', hrun', hpc', hcancel', houtcomes⟩ :=
      exists_userRun maxRetries hpc hcancel outcome
    refine ⟨es ++ es', call', ?_, ?_, hpc', hcancel', houtcomes⟩
    . exact List.forall_mem_append.mpr ⟨hregular, hregular'⟩
    . rw [Run.exec_append, hrun]
      exact hrun'

theorem oncePerBlock_iff_unreached
    : ∃ call, (OncePerBlock call ↔ repeats 0 call.outcomes = 0) ∧
        call.outcomes = [Counter.sent, Counter.failed, Counter.blocked] := by
  obtain ⟨es, call, hregular, hrun, hpc, _, houtcomes⟩ := exists_run 3 twoUsers [.sent, .failed, .blocked]
  have hpending : call.isPending = false := by
    unfold isPending
    rw [hpc]
  exact ⟨call, (oncePerBlock_iff hregular hrun hpending).1, houtcomes⟩

theorem not_oncePerBlock_blocked
    : ¬ ∀ (table : Users) (es : List Event) (call : Call), (∀ e ∈ es, e.isRegular = true) →
        Run.exec (step 3) (startCall table) es = some call → call.isPending = false → OncePerBlock call := by
  intro honce
  obtain ⟨es, call, hregular, hrun, hpc, _, houtcomes⟩ :=
    exists_run 3 twoUsers (List.replicate progressEvery .sent ++ [.blocked])
  have hpending : call.isPending = false := by
    unfold isPending
    rw [hpc]
  have hlength := length_progress hregular hrun hpending
  have hdue : Due (0 + (List.replicate progressEvery Counter.sent).count .sent) := by
    rw [List.count_replicate_self]
    decide
  rw [houtcomes, repeats_concat, if_pos ⟨by decide, hdue⟩] at hlength
  have hle := (honce twoUsers es call hregular hrun hpending).1
  omega

end Runs

end Call

end BroadcastRun
