import VoltykBot.Reminders.Routines

/-!
This module contains when a reminder is sent once only, although the two routines check, send and mark in
separate transactions.
-/

namespace Scheduler.Reminders

namespace Routines

/--
The marks of everything that was sent are in the table or with a routine, and what a routine has found
unsent was not sent and is not with the other one.
-/
structure Inv (m : Routines) : Prop where
  nodup : m.sentLog.Nodup
  logged : ∀ key ∈ m.sentLog, recorded m.table key = true ∨ ∃ r, key ∈ (m.pc r).toMark
  marks : ∀ r, ∀ key ∈ (m.pc r).toMark, key ∈ m.sentLog
  unsent : ∀ r, ∀ key ∈ (m.pc r).unsent, key ∉ m.sentLog
  unsentNodup : ∀ r, (m.pc r).unsent.Nodup
  apart : ∀ r, ∀ key ∈ (m.pc r).unsent, key ∉ (m.pc r.other).unsent

theorem Inv.init : Inv {} where
  nodup := List.nodup_nil
  logged := nofun
  marks _ := nofun
  unsent _ := nofun
  unsentNodup _ := List.nodup_nil
  apart _ := nofun

theorem unsent_sublist {m m' : Routines} {r : Routine} {pc : Pc} (hpc : m'.pc = Function.update m.pc r pc)
    (hunsent : pc.unsent.Sublist (m.pc r).unsent) (q : Routine)
    : (m'.pc q).unsent.Sublist (m.pc q).unsent :=
  forall_routine (fun q pc => pc.unsent.Sublist (m.pc q).unsent) hpc hunsent (List.Sublist.refl _) q

theorem Inv.shrunk {m m' : Routines} (h : Inv m) {r : Routine} {pc : Pc}
    (hpc : m'.pc = Function.update m.pc r pc) (hunsent : pc.unsent.Sublist (m.pc r).unsent)
    (hnodup : m'.sentLog.Nodup)
    (hlogged : ∀ key ∈ m'.sentLog, recorded m'.table key = true ∨ ∃ q, key ∈ (m'.pc q).toMark)
    (hmarks : ∀ q, ∀ key ∈ (m'.pc q).toMark, key ∈ m'.sentLog)
    (hnew : ∀ q, ∀ key ∈ (m'.pc q).unsent, key ∉ m'.sentLog) : Inv m' where
  nodup := hnodup
  logged := hlogged
  marks := hmarks
  unsent := hnew
  unsentNodup q := (h.unsentNodup q).sublist (unsent_sublist hpc hunsent q)
  apart q key hkey hother := by
    have hsub := unsent_sublist hpc hunsent
    exact h.apart q key ((hsub q).subset hkey) ((hsub q.other).subset hother)

theorem Inv.moved {m m' : Routines} (h : Inv m) {r : Routine} {pc : Pc} (htable : m'.table = m.table)
    (hlog : m'.sentLog = m.sentLog) (hpc : m'.pc = Function.update m.pc r pc)
    (hmarks : pc.toMark = (m.pc r).toMark) (hunsent : pc.unsent.Sublist (m.pc r).unsent)
    : Inv m' := by
  have htoMark (q : Routine) : (m'.pc q).toMark = (m.pc q).toMark := by
    rw [hpc]
    by_cases hq : q = r
    . subst hq
      rw [Function.update_self, hmarks]
    . rw [Function.update_of_ne hq]
  apply h.shrunk hpc hunsent
  . rw [hlog]
    exact h.nodup
  . rw [hlog, htable]
    simp only [htoMark]
    exact h.logged
  . intro q key hkey
    rw [htoMark] at hkey
    rw [hlog]
    exact h.marks q key hkey
  . intro q key hkey
    rw [hlog]
    exact h.unsent q key ((unsent_sublist hpc hunsent q).subset hkey)

theorem Inv.goes {m : Routines} (h : Inv m) {r : Routine} {pc pc' : Pc} (hpc : m.pc r = pc)
    (hmarks : pc'.toMark = pc.toMark) (hunsent : pc'.unsent.Sublist pc.unsent)
    : Inv (m.goto r pc') := by
  subst hpc
  exact h.moved rfl rfl rfl hmarks hunsent

theorem Inv.retracked {m : Routines} (h : Inv m) {r : Routine} {pc : Pc} (tid : TelegramId) (ok : Bool)
    (write : Tracking → Tracking) (hmarks : pc.toMark = (m.pc r).toMark)
    (hunsent : pc.unsent.Sublist (m.pc r).unsent)
    : Inv ((m.updateTracking tid ok write).goto r pc) := by
  apply h.moved _ _ _ hmarks hunsent
  . exact table_updateTracking m tid ok write
  . exact sentLog_updateTracking m tid ok write
  . exact pc_goto_updateTracking m tid ok write r pc

theorem Inv.checked {m : Routines} (h : Inv m) {r : Routine} {pc : Pc}
    (hmarks : (m.pc r).toMark = []) (htoMark : pc.toMark = [])
    (hnew : ∀ key ∈ pc.unsent, recorded m.table key = false)
    (hnodup : pc.unsent.Nodup)
    (hother : ∀ key ∈ pc.unsent, key ∉ (m.pc r.other).toMark ++ (m.pc r.other).unsent)
    : Inv (m.goto r pc) := by
  have hself : (m.goto r pc).pc r = pc := pc_self rfl
  have hne : (m.goto r pc).pc r.other = m.pc r.other := pc_other rfl
  have htoMark (q : Routine) : ((m.goto r pc).pc q).toMark = (m.pc q).toMark := by
    rcases eq_or_eq_other r q with rfl | rfl
    . rw [hself, hmarks, htoMark]
    . rw [hne]
  constructor
  . exact h.nodup
  . simp only [htoMark]
    exact h.logged
  . intro q key hkey
    rw [htoMark] at hkey
    exact h.marks q key hkey
  . intro q key hkey
    rcases eq_or_eq_other r q with rfl | rfl
    . rw [hself] at hkey
      intro hlogged
      rcases h.logged key hlogged with hrecorded | ⟨q', hmark⟩
      . rw [hnew key hkey] at hrecorded
        cases hrecorded
      . rcases eq_or_eq_other q q' with rfl | rfl
        . rw [hmarks] at hmark
          cases hmark
        . exact hother key hkey (List.mem_append_left _ hmark)
    . rw [hne] at hkey
      exact h.unsent _ key hkey
  . exact forall_routine (fun _ pc => pc.unsent.Nodup) rfl hnodup (h.unsentNodup _)
  . intro q key hkey hboth
    rcases eq_or_eq_other r q with rfl | rfl
    . rw [hself] at hkey
      rw [hne] at hboth
      exact hother key hkey (List.mem_append_right _ hboth)
    . rw [hne] at hkey
      rw [other_other, hself] at hboth
      exact hother key hboth (List.mem_append_right _ hkey)

theorem Inv.sent {m m' : Routines} (h : Inv m) {r : Routine} {pc : Pc} {key : Key}
    (htable : m'.table = m.table) (hlog : m'.sentLog = key :: m.sentLog)
    (hpc : m'.pc = Function.update m.pc r pc) (hmarks : pc.toMark = (m.pc r).toMark ++ [key])
    (hunsent : (m.pc r).unsent = key :: pc.unsent) : Inv m' := by
  have hself := pc_self hpc
  have hne := pc_other hpc
  have hfirst : key ∈ (m.pc r).unsent := by
    rw [hunsent]
    exact List.mem_cons_self
  have hshrinks : pc.unsent.Sublist (m.pc r).unsent := by
    rw [hunsent]
    exact List.sublist_cons_self key _
  apply h.shrunk hpc hshrinks
  . rw [hlog]
    exact List.nodup_cons.mpr ⟨h.unsent r key hfirst, h.nodup⟩
  . intro k hk
    rw [hlog, List.mem_cons] at hk
    rw [htable]
    rcases hk with rfl | hk
    . right
      refine ⟨r, ?_⟩
      rw [hself, hmarks]
      exact List.mem_append_right _ (List.mem_singleton_self k)
    . rcases h.logged k hk with hrecorded | ⟨q, hq⟩
      . exact .inl hrecorded
      . right
        refine ⟨q, ?_⟩
        rcases eq_or_eq_other r q with rfl | rfl
        . rw [hself, hmarks]
          exact List.mem_append_left _ hq
        . rw [hne]
          exact hq
  . intro q k hk
    rw [hlog, List.mem_cons]
    rcases eq_or_eq_other r q with rfl | rfl
    . rw [hself, hmarks, List.mem_append, List.mem_singleton] at hk
      rcases hk with hk | rfl
      . exact .inr (h.marks q k hk)
      . exact .inl rfl
    . rw [hne] at hk
      exact .inr (h.marks _ k hk)
  . intro q k hk
    rw [hlog, List.mem_cons, not_or]
    refine ⟨?_, h.unsent q k ((unsent_sublist hpc hshrinks q).subset hk)⟩
    rintro rfl
    rcases eq_or_eq_other r q with rfl | rfl
    . rw [hself] at hk
      have hnodup := h.unsentNodup q
      rw [hunsent] at hnodup
      exact (List.nodup_cons.mp hnodup).1 hk
    . rw [hne] at hk
      exact h.apart r k hfirst hk

theorem Inv.marked {m m' : Routines} (h : Inv m) {r : Routine} {pc : Pc} {pair : Pair}
    {createdAt : Key → Int} (htable : m'.table = markAll m.table pair createdAt (m.pc r).toMark)
    (hlog : m'.sentLog = m.sentLog) (hpc : m'.pc = Function.update m.pc r pc)
    (hmarks : pc.toMark = []) (hunsent : pc.unsent = []) : Inv m' := by
  have hself := pc_self hpc
  have hne := pc_other hpc
  have hshrinks : pc.unsent.Sublist (m.pc r).unsent := by
    rw [hunsent]
    exact List.nil_sublist _
  apply h.shrunk hpc hshrinks
  . rw [hlog]
    exact h.nodup
  . intro key hkey
    rw [hlog] at hkey
    rw [htable, recorded_markAll]
    rcases h.logged key hkey with hrecorded | ⟨q, hq⟩
    . exact .inl (.inl hrecorded)
    . rcases eq_or_eq_other r q with rfl | rfl
      . exact .inl (.inr hq)
      . right
        refine ⟨r.other, ?_⟩
        rw [hne]
        exact hq
  . intro q key hkey
    rw [hlog]
    rcases eq_or_eq_other r q with rfl | rfl
    . rw [hself, hmarks] at hkey
      cases hkey
    . rw [hne] at hkey
      exact h.marks _ key hkey
  . intro q key hkey
    rw [hlog]
    exact h.unsent q key ((unsent_sublist hpc hshrinks q).subset hkey)

/--
No step raises, and the process is not restarted. A message that cannot be sent and an id that cannot be
stored do no harm here.
-/
def Event.succeeds (e : Event) : Bool :=
  match e with
  | .acted _ .raised => false
  | .restarted => false
  | _ => true

def found (m : Routines) (e : Event) : List (Routine × Key) :=
  match e with
  | .acted r .checked =>
    match m.pc r with
    | .checking work batch =>
      ((targetKeys work.next batch).filter fun key => !recorded m.table key).map (r, ·)
    | _ => []
  | _ => []

/--
Nothing that a batch check finds unsent is in the batch twice, or about to be sent, or sent and not yet marked, by
the other routine.
-/
def BatchesApart (m : Routines) (e : Event) : Prop :=
  (found m e).Nodup ∧ ∀ p ∈ found m e, p.2 ∉ (m.pc p.1.other).toMark ++ (m.pc p.1.other).unsent

instance : DecidableRel BatchesApart :=
  fun m e => inferInstanceAs (Decidable ((found m e).Nodup ∧ ∀ p ∈ found m e, _))

theorem targetKeys_unrecorded (table : List SentReminder) (next : NextEvent) (batch : List Send)
    : targetKeys next (batch.filter fun send => !recorded table (send.key next)) =
        (targetKeys next batch).filter fun key => !recorded table key := by
  unfold targetKeys
  rw [List.filter_map, List.filter_filter, List.filter_filter]
  simp only [Function.comp_def, Bool.and_comm]

theorem targetKeys_tail (next : NextEvent) (send : Send) (todo : List Send)
    : (targetKeys next todo).Sublist (targetKeys next (send :: todo)) :=
  ((List.sublist_cons_self send todo).filter _).map _

theorem targetKeys_cons_of_sent {next : NextEvent} {send : Send} {outcome : Outcome}
    (h : sent next.type send outcome = true) (todo : List Send)
    : targetKeys next (send :: todo) = send.key next :: targetKeys next todo := by
  unfold targetKeys
  rw [List.filter_cons_of_pos (targeted_of_sent h), List.map_cons]

theorem Inv.checks {m : Routines} (h : Inv m) {r : Routine} {work : Work} {batch : List Send}
    (hpc : m.pc r = .checking work batch) (hapart : BatchesApart m (.acted r .checked))
    : Inv (m.goto r
        (proceed work [] (batch.filter fun send => !recorded m.table (send.key work.next)))) := by
  have hunsent : (proceed work [] (batch.filter fun send => !recorded m.table (send.key work.next))).unsent =
      (targetKeys work.next batch).filter fun key => !recorded m.table key := by
    rw [unsent_proceed, targetKeys_unrecorded]
  have hfound : found m (.acted r .checked) =
      ((targetKeys work.next batch).filter fun key => !recorded m.table key).map (r, ·) := by
    unfold found
    dsimp only
    rw [hpc]
  apply h.checked
  . rw [hpc]
    rfl
  . exact toMark_proceed work [] _
  . intro key hkey
    rw [hunsent, List.mem_filter, Bool.not_eq_true'] at hkey
    exact hkey.2
  . rw [hunsent]
    have hnodup := hapart.1
    rw [hfound] at hnodup
    exact hnodup.of_map _
  . intro key hkey
    rw [hunsent] at hkey
    apply hapart.2 (r, key)
    rw [hfound]
    exact List.mem_map_of_mem hkey

theorem Inv.answered {m : Routines} (h : Inv m) {r : Routine} {work : Work} {toMark : List Key}
    {send : Send} {todo : List Send} {outcome : Outcome}
    (hpc : m.pc r = .awaiting work toMark send todo)
    (hsent : Reminders.sent work.next.type send outcome = true)
    : Inv ({ m with sentLog := send.key work.next :: m.sentLog }.goto r
        (.storing work toMark send todo outcome)) := by
  refine h.sent rfl rfl rfl ?_ ?_
  . rw [hpc]
    rfl
  . rw [hpc]
    exact targetKeys_cons_of_sent hsent todo

theorem Inv.unanswered {m : Routines} (h : Inv m) {r : Routine} {work : Work} {toMark : List Key}
    {send : Send} {todo : List Send} (hpc : m.pc r = .awaiting work toMark send todo)
    : Inv (m.goto r (proceed work toMark todo)) := by
  refine h.goes hpc (toMark_proceed work toMark todo) ?_
  rw [unsent_proceed]
  exact targetKeys_tail work.next send todo

theorem Inv.storing {m : Routines} (h : Inv m) {r : Routine} {work : Work} {toMark : List Key}
    {send : Send} {todo : List Send} {outcome : Outcome}
    (hpc : m.pc r = .storing work toMark send todo outcome) (ok : Bool)
    : Inv ((m.updateTracking send.user.telegramId ok (storeIds work.next send outcome)).goto r
        (proceed work (toMark ++ [send.key work.next]) todo)) := by
  apply h.retracked
  . rw [toMark_proceed, hpc]
    rfl
  . rw [unsent_proceed, hpc]
    exact List.Sublist.refl _

theorem inv_act {m m' : Routines} {r : Routine} {a : Action} (h : Inv m)
    (hsucceeds : (Event.acted r a).succeeds = true) (hapart : BatchesApart m (.acted r a))
    (hact : m.act r a = some m') : Inv m' := by
  unfold act at hact
  split at hact
  -- the cleanup, which has no keys in hand
  . next hpc =>
    split at hact
    . cases hact
      exact h.goes hpc rfl (List.nil_sublist _)
    . cases hact
  . next hpc =>
    split at hact
    . cases hact
      exact h.goes hpc rfl (List.nil_sublist _)
    . cases hact
  . next hpc =>
    split at hact
    . cases hact
      exact h.goes hpc rfl (List.nil_sublist _)
    . cases hact
  . next hpc =>
    split at hact
    . cases hact
      exact h.goes hpc rfl (List.nil_sublist _)
    . cases hact
      exact h.moved rfl rfl rfl (by rw [hpc]; rfl) (List.nil_sublist _)
  . next hpc =>
    cases hact
    exact h.goes hpc rfl (List.nil_sublist _)
  . next hpc =>
    cases hact
    exact h.goes hpc rfl (List.nil_sublist _)
  . next hpc =>
    cases hact
    apply h.retracked
    . rw [hpc]
      rfl
    . exact List.nil_sublist _
  -- the pairs
  . next pair sched now users hpc =>
    split at hact
    . cases hact
      exact h
    . cases hact
      refine h.goes hpc (toMark_nextBatch _) ?_
      rw [unsent_nextBatch]
      exact List.nil_sublist _
  . next hpc =>
    cases hact
    exact h.goes hpc rfl (List.nil_sublist _)
  -- a batch
  . next hpc =>
    cases hact
    exact h.checks hpc hapart
  . next work toMark send todo hasChannel hpc =>
    split at hact
    . cases hact
      exact h.goes hpc rfl (List.Sublist.refl _)
    . cases hact
      exact h.goes hpc rfl (List.Sublist.refl _)
  . next work toMark send todo hpc =>
    cases hact
    exact h.goes hpc rfl (List.Sublist.refl _)
  . next work toMark send todo loaded hasChannel ok hpc =>
    cases hact
    apply h.retracked
    . rw [hpc]
      rfl
    . rw [hpc]
      exact List.Sublist.refl _
  . next hpc =>
    split at hact
    . next hsent =>
      cases hact
      exact h.answered hpc hsent
    . cases hact
      exact h.unanswered hpc
  . next ok hpc =>
    cases hact
    exact h.storing hpc ok
  . next work toMark createdAt clock hpc =>
    split at hact
    . cases hact
      have htable : markAll m.table work.pair createdAt toMark =
          markAll m.table work.pair createdAt (m.pc r).toMark := by
        rw [hpc]
        rfl
      exact h.marked htable rfl rfl (toMark_nextBatch work) (unsent_nextBatch work)
    . cases hact
  -- a step that raises is excluded
  . cases hsucceeds
  . cases hsucceeds
  . cases hsucceeds
  . cases hsucceeds
  . cases hsucceeds
  . cases hact

theorem inv_step {m m' : Routines} {e : Event} (h : Inv m) (hsucceeds : e.succeeds = true)
    (hapart : BatchesApart m e) (hstep : step m e = some m') : Inv m' := by
  cases e with
  | acted r a => exact inv_act h hsucceeds hapart hstep
  | registered tid =>
    unfold step at hstep
    dsimp only at hstep
    split at hstep
    . cases hstep
      exact h
    . cases hstep
      exact h.moved (r := .checker) rfl rfl (Function.update_eq_self .checker m.pc).symm rfl
        (List.Sublist.refl _)
  | unregistered tid =>
    cases hstep
    exact h.moved (r := .checker) rfl rfl (Function.update_eq_self .checker m.pc).symm rfl
      (List.Sublist.refl _)
  | restarted => cases hsucceeds

/--
In a run that loses no marks each reminder is sent at most once, if the batch checks of the two routines
stay apart.
-/
theorem sent_once {es : List Event} (hsucceeds : ∀ e ∈ es, e.succeeds = true)
    (hapart : Run.StepsMeet step BatchesApart {} es)
    : Run.Always step (fun m => m.sentLog.Nodup) {} es := by
  apply Run.always_of_stepsMeet (I := Inv) (C := fun m e => e.succeeds = true ∧ BatchesApart m e)
  . intro m m' e h hmeets hstep
    exact inv_step h hmeets.1 hmeets.2 hstep
  . intro m h
    exact h.nodup
  . exact Inv.init
  . exact (Run.StepsMeet.of_events hsucceeds).and hapart

def tickAfterMarks : List Event :=
  [.registered "777", .acted .catchUp .started, pairAtSix .catchUp, .acted .catchUp .checked,
    .acted .checker (.anchorsRead sixSharp 0), .acted .checker .cleanupEnded, pairAtSix .checker] ++
  sendOf .catchUp 1 ++
  [.acted .catchUp (.marked (fun _ => 1) 1), .acted .checker .checked, .acted .catchUp .ended]

theorem sent_once_tickAfterMarks
    : Run.Always step (fun m => m.sentLog.Nodup) {} tickAfterMarks :=
  sent_once (by decide +kernel) (by decide +kernel)

/--
The tick and the catch-up both check before either of them marks.
-/
def bothChecked : List Event :=
  [.registered "777", .acted .catchUp .started, pairAtSix .catchUp, .acted .catchUp .checked,
    .acted .checker (.anchorsRead sixSharp 0), .acted .checker .cleanupEnded, pairAtSix .checker,
    .acted .checker .checked] ++
  sendOf .catchUp 1 ++ sendOf .checker 2

theorem not_sent_once_bothChecked
    : (∀ e ∈ bothChecked, e.succeeds = true) ∧
        (Run.exec step {} bothChecked).map (·.sentLog) =
          some [⟨"777", ⟨1, 13, 7200⟩, .m30⟩, ⟨"777", ⟨1, 13, 7200⟩, .m30⟩] ∧
        ¬ Run.Always step (fun m => m.sentLog.Nodup) {} bothChecked := by
  have hsucceeds : ∀ e ∈ bothChecked, e.succeeds = true := by decide +kernel
  have hlog : (Run.exec step {} bothChecked).map (·.sentLog) =
      some [⟨"777", ⟨1, 13, 7200⟩, .m30⟩, ⟨"777", ⟨1, 13, 7200⟩, .m30⟩] := by
    decide +kernel
  refine ⟨hsucceeds, hlog, ?_⟩
  intro halways
  rcases Option.map_eq_some_iff.mp hlog with ⟨m, hrun, hm⟩
  have hnodup := halways.last hrun
  rw [hm] at hnodup
  revert hnodup
  decide

end Routines
end Scheduler.Reminders
