import VoltykBot.Power.Flush

/-!
This module contains what a restart restores of the last flush of a user: all of it or nothing, and it
depends on when the row of the user was inserted.
-/

namespace PowerMonitor

namespace Monitor

def committedIds (m : Monitor) (e : Event) : List TelegramId :=
  match e with
  | .flushCommitted i _ => m.flushes[i]?.toList.flatMap fun flush => flush.rows.map (·.1)
  | _ => []

def SparesRow (tid : TelegramId) (m : Monitor) (e : Event) : Prop :=
  tid ∉ m.committedIds e

instance (tid : TelegramId) (m : Monitor) (e : Event) : Decidable (SparesRow tid m e) :=
  inferInstanceAs (Decidable (¬ _))

theorem lookup_userPowerStates_step {cfg : Settings} {m m' : Monitor} {e : Event}
    {tid : TelegramId} (hwf : Wf m) (hspares : SparesRow tid m e) (hstep : m.step cfg e = some m')
    : m'.userPowerStates.lookup tid = m.userPowerStates.lookup tid := by
  by_cases he : e.saves = false
  . rw [(marks_step hwf he hstep).rows]
  cases e with
  | flushStarted =>
    cases hstep
    rw [flushStarted_eq]
  | flushCommitted i txnAt =>
    obtain ⟨flush, hflush, _, rfl⟩ := flushCommitted_eq_some hstep
    apply lookup_batchUpsert_notMem
    intro htid
    apply hspares
    exact List.mem_flatMap.mpr ⟨flush, Option.mem_toList.mpr hflush, htid⟩
  | flushCleared i =>
    obtain ⟨_, _, _, rfl⟩ := flushCleared_eq_some hstep
    rfl
  | restarted val =>
    cases hstep
    rw [(restart_restarted m val).rest]
  | _ => exact absurd rfl he

def RowsUnique (m : Monitor) : Prop :=
  ∀ flush ∈ m.flushes, ∀ tid fields fields', (tid, fields) ∈ flush.rows →
    (tid, fields') ∈ flush.rows → fields = fields'

theorem RowsUnique.of_subset {m m' : Monitor} (h : RowsUnique m)
    (hsub : ∀ flush ∈ m'.flushes, ∃ flush₀ ∈ m.flushes, flush.rows = flush₀.rows)
    : RowsUnique m' := by
  intro flush hflush
  obtain ⟨flush₀, hflush₀, heq⟩ := hsub flush hflush
  rw [heq]
  exact h flush₀ hflush₀

theorem rowsUnique_flushStarted {m : Monitor} (h : RowsUnique m) : RowsUnique m.flushStarted := by
  intro flush hflush tid fields fields' hrow hrow'
  cases mem_rows_flushStarted hflush with
  | inl hold => exact h flush hold tid fields fields' hrow hrow'
  | inr hnew =>
    obtain ⟨_, ref, href, rfl⟩ := hnew.2.2 hrow
    obtain ⟨_, ref', href', rfl⟩ := hnew.2.2 hrow'
    rw [Option.some.inj (href.symm.trans href')]

theorem rowsUnique_step {cfg : Settings} {m m' : Monitor} {e : Event} (h : RowsUnique m)
    (hwf : Wf m) (hstep : m.step cfg e = some m') : RowsUnique m' := by
  by_cases he : e.saves = false
  . have hmarks := marks_step hwf he hstep
    exact h.of_subset fun flush hflush => ⟨flush, hmarks.flushes hflush, rfl⟩
  cases e with
  | flushStarted =>
    cases hstep
    exact rowsUnique_flushStarted h
  | flushCommitted i txnAt =>
    obtain ⟨flush, hflush, _, rfl⟩ := flushCommitted_eq_some hstep
    apply h.of_subset
    intro flush' hflush'
    cases List.mem_or_eq_of_mem_set hflush' with
    | inl hold => exact ⟨flush', hold, rfl⟩
    | inr heq => exact ⟨flush, List.mem_of_getElem? hflush, heq ▸ rfl⟩
  | flushCleared i =>
    obtain ⟨_, _, _, rfl⟩ := flushCleared_eq_some hstep
    exact h.of_subset fun flush hflush => ⟨flush, List.mem_of_mem_eraseIdx hflush, rfl⟩
  | restarted val =>
    cases hstep
    rw [RowsUnique, (restart_restarted m val).rest]
    exact List.forall_mem_nil _
  | _ => exact absurd rfl he

theorem rowsUnique_initial (now : Time) (rows : AList (fun _ : TelegramId => UserPowerStateRow))
    (tracking : TelegramId → Option PowerTracking) (val : Option (Option Int))
    : RowsUnique (initial now rows tracking val) := by
  unfold initial RowsUnique
  dsimp only
  rw [(restart_restarted _ val).rest]
  exact List.forall_mem_nil _

theorem lookup_flushCommitted {m m' : Monitor} {i : Nat} {txnAt : Time} {flush : Flush}
    {tid : TelegramId} {st : UserState} (hunique : RowsUnique m) (hflush : m.flushes[i]? = some flush)
    (hst : (tid, st) ∈ flush.snapshot) (hstep : m.flushCommitted i txnAt = some m')
    : m'.userPowerStates.lookup tid = some {
        fields := st.savedFields
        updatedAt := ((m.userPowerStates.lookup tid).map (·.updatedAt)).getD txnAt } := by
  obtain ⟨flush', hflush', _, rfl⟩ := flushCommitted_eq_some hstep
  obtain rfl : flush = flush' := Option.some.inj (hflush.symm.trans hflush')
  have hrow : (tid, st.savedFields) ∈ flush.rows := List.mem_map_of_mem hst
  obtain ⟨fields, hfields, hlookup⟩ :=
    lookup_batchUpsert_mem m.userPowerStates txnAt (List.mem_map_of_mem hrow)
  dsimp only
  rw [hlookup,
    hunique flush (List.mem_of_getElem? hflush) tid fields st.savedFields hfields hrow]

def RestoredAs (m : Monitor) (tid : TelegramId) (st : UserState) : Prop :=
  ∃ ref, m.userStates.lookup tid = some ref ∧
    (m.heap ref).savedFields = st.savedFields ∧
    (m.heap ref).originalChangeTime = st.pendingStateTime

theorem restoredAs_restarted_iff {m : Monitor} {tid : TelegramId} {st : UserState}
    {row : UserPowerStateRow} (val : Option (Option Int))
    (hrow : m.userPowerStates.lookup tid = some row) (hfields : row.fields = st.savedFields)
    : RestoredAs (m.restarted val) tid st ↔ m.now < row.updatedAt + seconds 3600 := by
  have hrestart := restart_restarted m val
  rw [← Int.sub_lt_iff]
  constructor
  . rintro ⟨ref, href, _⟩
    obtain ⟨_, _, row', hrow', _⟩ := hrestart.entry href
    obtain ⟨hlookup, hrecent⟩ := mem_getRecentUserPowerStates.mp hrow'
    obtain rfl : row = row' := Option.some.inj (hrow.symm.trans hlookup)
    exact hrecent
  . intro hrecent
    obtain ⟨ref, href, hheap⟩ := hrestart.found (mem_getRecentUserPowerStates.mpr ⟨hrow, hrecent⟩)
    refine ⟨ref, href, ?_, ?_⟩
    . rw [hheap]
      exact (savedFields_restored row).trans hfields
    . rw [hheap]
      exact congrArg SavedFields.pendingStateTime hfields

def insertedAt (m : Monitor) (tid : TelegramId) (txnAt : Time) : Time :=
  ((m.userPowerStates.lookup tid).map (·.updatedAt)).getD txnAt

/--
The state of a user that was committed last is restored if and only if the process restarts within an
hour of the insert of the row, however late the last commit was.
-/
theorem restoredAs_iff_insertedAt {cfg : Settings} {now : Time}
    {rows : AList (fun _ : TelegramId => UserPowerStateRow)}
    {tracking : TelegramId → Option PowerTracking} {val : Option (Option Int)}
    {es es' : List Event} {m m₁ m₂ : Monitor} {i : Nat} {txnAt : Time} {flush : Flush}
    {tid : TelegramId} {st : UserState} (val' : Option (Option Int))
    (hrun : Run.exec (step cfg) (initial now rows tracking val) es = some m)
    (hflush : m.flushes[i]? = some flush) (hst : (tid, st) ∈ flush.snapshot)
    (hcommit : m.step cfg (.flushCommitted i txnAt) = some m₁)
    (hlast : Run.StepsMeet (step cfg) (SparesRow tid) m₁ es')
    (hrun' : Run.exec (step cfg) m₁ es' = some m₂)
    : RestoredAs (m₂.restarted val') tid st
        ↔
      m₂.now < m.insertedAt tid txnAt + seconds 3600 := by
  have hinv : Wf m ∧ RowsUnique m :=
    Run.invariant' (I := fun m => Wf m ∧ RowsUnique m)
      (fun h hstep => ⟨wf_step h.1 hstep, rowsUnique_step h.2 h.1 hstep⟩)
      ⟨wf_initial now rows tracking val, rowsUnique_initial now rows tracking val⟩ hrun
  have hrow := lookup_flushCommitted hinv.2 hflush hst hcommit
  -- no later commit touches the row
  have hkept : Wf m₂ ∧ m₂.userPowerStates.lookup tid = m₁.userPowerStates.lookup tid :=
    Run.invariant (I := fun m => Wf m ∧ m.userPowerStates.lookup tid = m₁.userPowerStates.lookup tid)
      (fun h hspares hstep =>
        ⟨wf_step h.1 hstep, (lookup_userPowerStates_step h.1 hspares hstep).trans h.2⟩)
      ⟨wf_step hinv.1 hcommit, rfl⟩ hlast hrun'
  exact restoredAs_restarted_iff val' (hkept.2.trans hrow) rfl

theorem restoredAs_iff_insertedAt_outageRun
    : ∃ m m₁ m₂,
        Run.exec (step {}) (initial 0 (savedOn "777") (fun _ => none) none)
          (outageRun ++ [.flushStarted]) = some m ∧
        m.step {} (.flushCommitted 0 60000000) = some m₁ ∧
        Run.exec (step {}) m₁ [.flushCleared 0, .tick 1000000] = some m₂ ∧
        (RestoredAs (m₂.restarted none) "777" (m.heap 0)
            ↔
          m₂.now < m.insertedAt "777" 60000000 + seconds 3600) := by
  have hrun : (Run.exec (step {}) (initial 0 (savedOn "777") (fun _ => none) none)
      (outageRun ++ [.flushStarted])).isSome := by
    decide +kernel +revert
  have hflush : ((Option.get _ hrun).flushes[0]?).isSome := by decide +kernel +revert
  have hcommit : ((Option.get _ hrun).step {} (.flushCommitted 0 60000000)).isSome := by
    decide +kernel +revert
  have hrun' : (Run.exec (step {}) (Option.get _ hcommit)
      [.flushCleared 0, .tick 1000000]).isSome := by
    decide +kernel +revert
  have hst : ("777", (Option.get _ hrun).heap 0) ∈ (Option.get _ hflush).snapshot := by
    decide +kernel +revert
  refine ⟨_, _, _, (Option.some_get hrun).symm, (Option.some_get hcommit).symm,
    (Option.some_get hrun').symm, ?_⟩
  exact restoredAs_iff_insertedAt none (Option.some_get hrun).symm (Option.some_get hflush).symm hst
    (Option.some_get hcommit).symm (by decide +kernel +revert) (Option.some_get hrun').symm

theorem not_restoredAs_outageRun
    : ∃ m m₁ m₂ flush st,
        Run.exec (step {}) (initial (seconds 7200) (savedOn "777") (fun _ => none) none)
          (outageRun.take 7 ++ [.flushStarted]) = some m ∧
        m.flushes[0]? = some flush ∧
        ("777", st) ∈ flush.snapshot ∧
        m.step {} (.flushCommitted 0 (seconds 7200)) = some m₁ ∧
        Run.StepsMeet (step {}) (SparesRow "777") m₁ [.flushCleared 0, .tick 1000000] ∧
        Run.exec (step {}) m₁ [.flushCleared 0, .tick 1000000] = some m₂ ∧
        m₂.now < m.now + seconds 3600 ∧
        ¬ RestoredAs (m₂.restarted none) "777" st := by
  have hrun : (Run.exec (step {}) (initial (seconds 7200) (savedOn "777") (fun _ => none) none)
      (outageRun.take 7 ++ [.flushStarted])).isSome := by
    decide +kernel +revert
  have hflush : ((Option.get _ hrun).flushes[0]?).isSome := by decide +kernel +revert
  have hcommit : ((Option.get _ hrun).step {} (.flushCommitted 0 (seconds 7200))).isSome := by
    decide +kernel +revert
  have hrun' : (Run.exec (step {}) (Option.get _ hcommit)
      [.flushCleared 0, .tick 1000000]).isSome := by
    decide +kernel +revert
  have hst : ("777", (Option.get _ hrun).heap 0) ∈ (Option.get _ hflush).snapshot := by
    decide +kernel +revert
  refine ⟨_, _, _, _, _, (Option.some_get hrun).symm, (Option.some_get hflush).symm, hst,
    (Option.some_get hcommit).symm, by decide +kernel +revert, (Option.some_get hrun').symm,
    by decide +kernel +revert, ?_⟩
  rintro ⟨ref, href, _⟩
  have hgone : ((Option.get _ hrun').restarted none).userStates.lookup "777" = none := by
    decide +kernel +revert
  rw [hgone] at href
  cases href

end Monitor
end PowerMonitor
