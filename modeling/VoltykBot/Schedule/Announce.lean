import VoltykBot.Schedule.Check

/-!
This module contains the agreement between what a pair was told last and the hash that is stored for it,
over all runs of cycles and flushes.
-/

namespace Scheduler

variable {Hash : Type}

def RowsLoad (store : Store Hash) : Prop :=
  ∀ row ∈ store.pending, ∀ pair, row.toBlast pair ≠ none

theorem toBlast_toPending (blast : Blast) (createdAt : Int) (pair : Pair)
    : (blast.toPending createdAt).toBlast pair ≠ none := by
  unfold Blast.toPending PendingNotification.toBlast loadsOr
  split <;> simp [JsonText.loads]

theorem RowsLoad.mark {store : Store Hash} (h : RowsLoad store) (pair : Pair)
    : RowsLoad (store.markPendingNotificationsSent pair) := by
  intro row hrow
  obtain ⟨row', hrow', rfl⟩ := List.mem_map.mp hrow
  have hloads := h row' hrow'
  split
  . exact hloads
  . exact hloads

theorem RowsLoad.save {store : Store Hash} (h : RowsLoad store) (blast : Blast) (createdAt : Int)
    : RowsLoad (store.savePendingNotification (blast.toPending createdAt)) := by
  intro row hrow
  cases List.mem_append.mp hrow with
  | inl hold => exact h row hold
  | inr hnew =>
    rw [List.mem_singleton] at hnew
    rw [hnew]
    exact toBlast_toPending blast createdAt

theorem RowsLoad.deleteOld {store : Store Hash} (h : RowsLoad store) (cutoff : Int)
    : RowsLoad (store.deleteOldPendingNotifications cutoff) :=
  fun row hrow => h row (List.mem_filter.mp hrow).1

structure PairCall (calculateScheduleHash : List ScheduleEvent → Hash) (store store' : Store Hash)
    (pair : Pair) (blast : Option Blast) : Prop where
  lastHash_ne : ∀ {pair'}, pair' ≠ pair → store'.lastHash pair' = store.lastHash pair'
  hasPending_ne : ∀ {pair'}, pair' ≠ pair → (store'.HasPending pair' ↔ store.HasPending pair')
  blast_pair : ∀ {b}, blast = some b → b.pair = pair
  sent : ∀ {b}, blast = some b → store'.lastHash pair = some (calculateScheduleHash b.sched.events)
  quiet : blast = none → store'.HasPending pair ∨
    (store'.lastHash pair = store.lastHash pair ∧ ¬ store.HasPending pair)
  rowsLoad : RowsLoad store → RowsLoad store'

theorem PairCall.of_same {calculateScheduleHash : List ScheduleEvent → Hash}
    {store store' : Store Hash} (pair : Pair) (hhash : store'.lastHash = store.lastHash)
    (hpending : store'.pending = store.pending)
    : PairCall calculateScheduleHash store store' pair none := by
  have hwaits (pair' : Pair) : store'.HasPending pair' ↔ store.HasPending pair' := by
    unfold Store.HasPending
    rw [hpending]
  constructor
  . intro pair' _
    rw [hhash]
  . intro pair' _
    exact hwaits pair'
  . intro b hb
    cases hb
  . intro b hb
    cases hb
  . intro _
    by_cases hp : store.HasPending pair
    . exact .inl ((hwaits pair).mpr hp)
    . exact .inr ⟨by rw [hhash], hp⟩
  . intro hloads row hrow
    exact hloads row (hpending ▸ hrow)

theorem PairCall.of_blast {calculateScheduleHash : List ScheduleEvent → Hash}
    {store store' : Store Hash} {pair : Pair} {blast : Blast} (hpair : blast.pair = pair)
    (hhash : store'.lastHash =
      Function.update store.lastHash pair (some (calculateScheduleHash blast.sched.events)))
    (hpending : ∀ {pair'}, pair' ≠ pair → (store'.HasPending pair' ↔ store.HasPending pair'))
    (hloads : RowsLoad store → RowsLoad store')
    : PairCall calculateScheduleHash store store' pair (some blast) := by
  constructor
  . intro pair' hne
    rw [hhash, Function.update_of_ne hne]
  . exact hpending
  . intro b hb
    cases hb
    exact hpair
  . intro b hb
    cases hb
    rw [hhash, Function.update_self]
  . intro hb
    cases hb
  . exact hloads

theorem PairCall.of_save {calculateScheduleHash : List ScheduleEvent → Hash} {store : Store Hash}
    {pair : Pair} {blast : Blast} {createdAt : Int} {hash : Hash} {date : Date}
    {row : DailySnapshot Hash} (hpair : blast.pair = pair)
    : PairCall calculateScheduleHash store
        (((store.setLastHash pair hash).upsertDailySnapshot pair date row).savePendingNotification
          (blast.toPending createdAt)) pair none := by
  have hwaits (pair' : Pair) : (blast.toPending createdAt).waits pair' = true ↔ pair' = pair := by
    simp only [PendingNotification.waits, Blast.toPending, decide_eq_true_eq, and_true, hpair]
    exact eq_comm
  constructor
  . intro pair' hne
    exact Function.update_of_ne hne _ _
  . intro pair' hne
    rw [Store.hasPending_savePendingNotification, hwaits]
    exact or_iff_left hne
  . intro b hb
    cases hb
  . intro b hb
    cases hb
  . intro _
    left
    rw [Store.hasPending_savePendingNotification, hwaits]
    exact .inr rfl
  . intro hloads
    exact RowsLoad.save hloads blast createdAt

theorem pairCall_flushPair (calculateScheduleHash : List ScheduleEvent → Hash) (store : Store Hash)
    (pair : Pair) (inPendingSet : Bool) (sched : Option Sched) (reads : FlushReads)
    : PairCall calculateScheduleHash store
        (flushPair calculateScheduleHash store pair inPendingSet sched reads).1 pair
        (flushPair calculateScheduleHash store pair inPendingSet sched reads).2 := by
  unfold flushPair
  split
  . next row _ =>
    split
    . exact .of_same pair rfl rfl
    . next blast hblast =>
      have hpair : blast.pair = pair := by
        simp only [PendingNotification.toBlast, Option.bind_eq_bind, Option.bind_eq_some_iff] at hblast
        obtain ⟨_, _, _, _, _, _, hblast⟩ := hblast
        cases hblast
        rfl
      apply PairCall.of_blast hpair rfl
      . intro pair' hne
        have hmark : (store.markPendingNotificationsSent pair).HasPending pair' ↔ _ :=
          Store.hasPending_markPendingNotificationsSent
        exact hmark.trans (and_iff_right hne)
      . intro hloads
        exact hloads.mark pair
  . unfold flushDailyPlanned
    split
    . exact .of_same pair rfl rfl
    . exact .of_blast rfl rfl (fun _ => Iff.rfl) id

theorem not_hasPending_flushPair {calculateScheduleHash : List ScheduleEvent → Hash}
    {store : Store Hash} {pair : Pair} {inPendingSet : Bool} {sched : Option Sched}
    {reads : FlushReads} (hloads : RowsLoad store)
    (hset : store.HasPending pair → inPendingSet = true)
    : ¬ (flushPair calculateScheduleHash store pair inPendingSet sched reads).1.HasPending pair := by
  unfold flushPair
  split
  . next row hrow =>
    split
    . next hnone => exact absurd hnone (hloads row (Store.mem_of_getLatestPendingNotification hrow).1 pair)
    . next blast hblast =>
      intro hp
      have hmark : (store.markPendingNotificationsSent pair).HasPending pair := hp
      exact (Store.hasPending_markPendingNotificationsSent.mp hmark).1 rfl
  . next hnone =>
    have hnot : ¬ store.HasPending pair := by
      intro hp
      obtain ⟨row, hrow⟩ :=
        Option.isSome_iff_exists.mp (Store.getLatestPendingNotification_isSome.mpr hp)
      exact hnone row (hset hp) hrow
    unfold flushDailyPlanned
    split
    . exact hnot
    . exact hnot

variable [DecidableEq Hash]

theorem pairCall_checkSingleQueue (calculateScheduleHash : List ScheduleEvent → Hash)
    (store : Store Hash) (pair : Pair) (sched : Option Sched) (reads : CheckReads) (createdAt : Int)
    : PairCall calculateScheduleHash store
        (checkSingleQueue calculateScheduleHash store pair sched reads createdAt).1 pair
        (checkSingleQueue calculateScheduleHash store pair sched reads createdAt).2 := by
  unfold checkSingleQueue
  split
  . exact .of_same pair rfl rfl
  . next sched =>
    split
    . unfold refreshSnapshot
      split
      . exact .of_same pair rfl rfl
      . exact .of_same pair rfl rfl
    . generalize hblast : changeBlast calculateScheduleHash store pair sched reads = blast
      have hpair : blast.pair = pair := by
        rw [← hblast]
        rfl
      dsimp only
      split
      . next hquiet =>
        have hwrite : writeChange calculateScheduleHash store blast reads createdAt =
            ((store.setLastHash blast.pair (calculateScheduleHash blast.sched.events)).upsertDailySnapshot
              blast.pair reads.todayDate (snapshotRow calculateScheduleHash (.dumped blast.sched)
                blast.sched.events reads.todayDate
                reads.tomorrowDate)).savePendingNotification (blast.toPending createdAt) := by
          unfold writeChange
          rw [if_pos hquiet]
        rw [hwrite, hpair]
        exact .of_save hpair
      . next hday =>
        have hwrite : writeChange calculateScheduleHash store blast reads createdAt =
            (store.setLastHash blast.pair (calculateScheduleHash blast.sched.events)).upsertDailySnapshot
              blast.pair reads.todayDate (snapshotRow calculateScheduleHash (.dumped blast.sched)
                blast.sched.events reads.todayDate reads.tomorrowDate) := by
          unfold writeChange
          rw [if_neg hday]
        rw [hwrite, hpair]
        apply PairCall.of_blast hpair rfl
        . intro pair' hne
          exact Store.hasPending_markPendingNotificationsSent.trans (and_iff_right hne)
        . intro hloads
          exact RowsLoad.mark hloads pair

theorem lastHash_ne_of_blast {calculateScheduleHash : List ScheduleEvent → Hash} {store : Store Hash}
    {pair : Pair} {sched : Option Sched} {reads : CheckReads} {createdAt : Int} {blast : Blast}
    (h : (checkSingleQueue calculateScheduleHash store pair sched reads createdAt).2 = some blast)
    : store.lastHash pair ≠ some (calculateScheduleHash blast.sched.events) := by
  unfold checkSingleQueue at h
  split at h
  . cases h
  . split at h
    . cases h
    . next hchanged =>
      dsimp only at h
      split at h
      . cases h
      . cases h
        exact hchanged

namespace Announcer

variable (calculateScheduleHash : List ScheduleEvent → Hash) (pair : Pair)

def ToldStored (m : Announcer Hash) : Prop :=
  ¬ m.store.HasPending pair → ∀ hash, m.store.lastHash pair = some hash →
    ∃ sched, m.lastSent pair = some sched ∧ calculateScheduleHash sched.events = hash

/--
Between cycles and flushes the pair was told the stored schedule, and each change that the checker
announced was one.
-/
structure Agreement (m : Announcer Hash) : Prop where
  told : m.phase = .idle → ToldStored calculateScheduleHash pair m
  changed : ∀ item ∈ m.changeBlasts, item.2 ≠ some (calculateScheduleHash item.1.sched.events)

def FlushesPair (e : Event) : Prop :=
  match e with
  | .flushStarted pairs => pair ∈ pairs
  | _ => True

def FlushCovers (m : Announcer Hash) : Prop :=
  match m.phase with
  | .flushing pendingSet todo => m.store.HasPending pair → pair ∈ pendingSet ∧ pair ∈ todo
  | .purging => ¬ m.store.HasPending pair
  | _ => True

structure AgreementInv (m : Announcer Hash) : Prop where
  told : ToldStored calculateScheduleHash pair m
  changed : ∀ item ∈ m.changeBlasts, item.2 ≠ some (calculateScheduleHash item.1.sched.events)
  covers : FlushCovers pair m
  rowsLoad : RowsLoad m.store

variable {calculateScheduleHash : List ScheduleEvent → Hash} {pair : Pair}

omit [DecidableEq Hash] in
theorem ToldStored.of_pairCall {m m' : Announcer Hash} {callPair : Pair} {blast : Option Blast}
    (h : ToldStored calculateScheduleHash pair m)
    (hcall : PairCall calculateScheduleHash m.store m'.store callPair blast)
    (hsent : m'.lastSent = (m.recordSent blast).lastSent)
    : ToldStored calculateScheduleHash pair m' := by
  intro hpending hash hhash
  rw [hsent]
  by_cases hpair : pair = callPair
  . subst hpair
    cases blast with
    | none =>
      obtain ⟨hsame, hpending⟩ := (hcall.quiet rfl).resolve_left hpending
      exact h hpending hash (hsame ▸ hhash)
    | some b =>
      refine ⟨b.sched, ?_, ?_⟩
      . dsimp only [recordSent]
        rw [hcall.blast_pair rfl, Function.update_self]
      . rw [hcall.sent rfl] at hhash
        exact Option.some.inj hhash
  . rw [hcall.lastHash_ne hpair] at hhash
    rw [hcall.hasPending_ne hpair] at hpending
    have htold := h hpending hash hhash
    cases blast with
    | none => exact htold
    | some b =>
      dsimp only [recordSent]
      rwa [hcall.blast_pair rfl, Function.update_of_ne hpair]

theorem agreementInv_checkPair {m : Announcer Hash} {callPair : Pair} {todo : List Pair}
    {sched : Option Sched} {reads : CheckReads} {createdAt : Int}
    (h : AgreementInv calculateScheduleHash pair m)
    : AgreementInv calculateScheduleHash pair
        { m.checkPair calculateScheduleHash callPair sched reads createdAt with
          phase := .checking todo } := by
  have hcall := pairCall_checkSingleQueue calculateScheduleHash m.store callPair sched reads createdAt
  have hblast : ∀ {blast : Blast},
      (checkSingleQueue calculateScheduleHash m.store callPair sched reads createdAt).2 = some blast →
        m.store.lastHash callPair ≠ some (calculateScheduleHash blast.sched.events) :=
    lastHash_ne_of_blast
  unfold checkPair
  generalize checkSingleQueue calculateScheduleHash m.store callPair sched reads createdAt = r
    at hcall hblast ⊢
  obtain ⟨store', blast⟩ := r
  dsimp only at hcall hblast ⊢
  constructor
  . refine h.told.of_pairCall (?_ : PairCall calculateScheduleHash m.store _ callPair blast) ?_
    . cases blast <;> exact hcall
    . cases blast <;> rfl
  . intro item hitem
    cases blast with
    | none => exact h.changed item hitem
    | some b =>
      cases List.mem_cons.mp hitem with
      | inl heq =>
        subst heq
        exact hblast rfl
      | inr hold => exact h.changed item hold
  . exact trivial
  . cases blast <;> exact hcall.rowsLoad h.rowsLoad

omit [DecidableEq Hash] in
theorem agreementInv_flushPair {m : Announcer Hash} {callPair : Pair} {pendingSet todo : List Pair}
    {sched : Option Sched} {reads : FlushReads} (h : AgreementInv calculateScheduleHash pair m)
    (hphase : m.phase = .flushing pendingSet (callPair :: todo))
    : AgreementInv calculateScheduleHash pair
        { m.flushPair calculateScheduleHash callPair pendingSet sched reads with
          phase := .flushing pendingSet todo } := by
  have hcovers := h.covers
  rw [FlushCovers, hphase] at hcovers
  have hcall := pairCall_flushPair calculateScheduleHash m.store callPair
    (decide (callPair ∈ pendingSet)) sched reads
  have hflushed : pair = callPair →
      ¬ (Scheduler.flushPair calculateScheduleHash m.store callPair
        (decide (callPair ∈ pendingSet)) sched reads).1.HasPending pair := by
    rintro rfl
    apply not_hasPending_flushPair h.rowsLoad
    intro hp
    exact decide_eq_true (hcovers hp).1
  unfold flushPair
  dsimp only
  generalize Scheduler.flushPair calculateScheduleHash m.store callPair
    (decide (callPair ∈ pendingSet)) sched reads = r at hcall hflushed ⊢
  obtain ⟨store', blast⟩ := r
  dsimp only at hcall hflushed ⊢
  constructor
  . refine h.told.of_pairCall (?_ : PairCall calculateScheduleHash m.store _ callPair blast) ?_
    . cases blast <;> exact hcall
    . cases blast <;> rfl
  . cases blast <;> exact h.changed
  . have hstore : ({ m with store := store' }.recordSent blast).store = store' := by
      cases blast <;> rfl
    intro hp
    dsimp only at hp
    rw [hstore] at hp
    by_cases hpair : pair = callPair
    . exact absurd hp (hflushed hpair)
    . rw [hcall.hasPending_ne hpair] at hp
      obtain ⟨hset, htodo⟩ := hcovers hp
      exact ⟨hset, (List.mem_cons.mp htodo).resolve_left hpair⟩
  . cases blast <;> exact hcall.rowsLoad h.rowsLoad

theorem agreementInv_step {m m' : Announcer Hash} {e : Event}
    (h : AgreementInv calculateScheduleHash pair m) (hflushes : FlushesPair pair e)
    (hstep : m.step calculateScheduleHash e = some m')
    : AgreementInv calculateScheduleHash pair m' := by
  unfold step at hstep
  split at hstep
  . cases hstep
    exact ⟨h.told, h.changed, trivial, h.rowsLoad⟩
  . cases hstep
    exact agreementInv_checkPair h
  . cases hstep
    exact ⟨h.told, h.changed, trivial, h.rowsLoad⟩
  . cases hstep
    refine ⟨h.told, h.changed, ?_, h.rowsLoad⟩
    intro hp
    exact ⟨Store.hasPending_iff.mp hp, hflushes⟩
  . next hphase =>
    cases hstep
    exact agreementInv_flushPair h hphase
  . next hphase =>
    cases hstep
    have hcovers := h.covers
    rw [FlushCovers, hphase] at hcovers
    refine ⟨h.told, h.changed, ?_, h.rowsLoad⟩
    intro hp
    exact List.not_mem_nil (hcovers hp).2
  . next cutoff hphase =>
    cases hstep
    have hcovers := h.covers
    rw [FlushCovers, hphase] at hcovers
    refine ⟨?_, h.changed, trivial, h.rowsLoad.deleteOld cutoff⟩
    intro _
    exact h.told hcovers
  . cases hstep

omit [DecidableEq Hash] in
theorem agreement_of_inv {m : Announcer Hash} (h : AgreementInv calculateScheduleHash pair m)
    : Agreement calculateScheduleHash pair m where
  told _ := h.told
  changed := h.changed

omit [DecidableEq Hash] in
theorem agreementInv_start : AgreementInv calculateScheduleHash pair {} where
  told _ hash hhash := by cases hhash
  changed := List.forall_mem_nil _
  covers := trivial
  rowsLoad := List.forall_mem_nil _

/--
In every run of cycles and flushes in which the pair is always among the active ones, it has been told
the stored schedule whenever nothing waits for the flush, and the checker announces changes only.
-/
theorem agreement_of_flushesPair {es : List Event}
    (hactive : ∀ e ∈ es, FlushesPair pair e)
    : Run.Always (step calculateScheduleHash) (Agreement calculateScheduleHash pair) {} es :=
  Run.always_of_stepsMeet (C := fun _ e => FlushesPair pair e) agreementInv_step agreement_of_inv
    agreementInv_start (Run.StepsMeet.of_events hactive)

def overnightRun : List Event :=
  let sched : Sched := { hasData := true, events := [], queue := "1.1", dtekUpdatedAt := none }
  [
    .cycleStarted [("kyiv", "1.1")],
    .pairChecked (some sched)
      { today := hourUs, yesterday := hourUs, tomorrow := hourUs, quiet := hourUs } 0,
    .cycleEnded,
    .flushStarted [("kyiv", "1.1")],
    .pairFlushed none { today := 6 * hourUs, tomorrow := 6 * hourUs },
    .bodyEnded,
    .purged 0]

theorem agreement_of_flushesPair_overnightRun
    : Run.Always (step (id : List ScheduleEvent → List ScheduleEvent)) (Agreement id ("kyiv", "1.1")) {}
        overnightRun :=
  agreement_of_flushesPair (by simp [overnightRun, FlushesPair])

example : (Run.exec (step (id : List ScheduleEvent → List ScheduleEvent)) {} overnightRun).map
    (fun m => (m.phase, (m.lastSent ("kyiv", "1.1")).map (·.queue))) = some (.idle, some "1.1") := by
  decide +kernel

end Announcer
end Scheduler
