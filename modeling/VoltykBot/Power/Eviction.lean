import VoltykBot.Power.Restart

/-!
This module contains what `_evict_stale_entries` does to the map of the states, the dirty set and the debounce
tasks: which entries go in its two passes, and that nothing else does.
-/

namespace PowerMonitor

def UserState.touchedAt (st : UserState) : Option Time :=
  (st.lastChangeAt.bind Stamp.timestamp).or (st.lastPingTime.bind Stamp.timestamp)

theorem stateLastTouchTs_eq (st : UserState) : stateLastTouchTs st = st.touchedAt.getD 0 := by
  unfold stateLastTouchTs UserState.touchedAt
  cases st.lastChangeAt.bind Stamp.timestamp with
  | some t => rfl
  | none =>
    cases st.lastPingTime.bind Stamp.timestamp with
    | some t => rfl
    | none => rfl

namespace Monitor

theorem kerase_eq_filter (tid : TelegramId) {entries : List (Σ _ : TelegramId, Ref)}
    (hkeys : entries.NodupKeys) : entries.kerase tid = entries.filter fun e => e.1 ≠ tid := by
  induction entries with
  | nil => rfl
  | cons e entries ih =>
    rcases List.nodupKeys_cons.mp hkeys with ⟨hnot, hkeys⟩
    by_cases he : tid = e.1
    . subst he
      have hrest : entries.filter (fun e' => e'.1 ≠ e.1) = entries := by
        rw [List.filter_eq_self]
        intro e' he'
        have hne : e'.1 ≠ e.1 := fun heq => hnot (heq ▸ List.mem_keys_of_mem he')
        simpa using hne
      rw [List.kerase_cons_eq rfl, List.filter_cons_of_neg (by simp), hrest]
    . rw [List.kerase_cons_ne he, List.filter_cons_of_pos (by simpa using Ne.symm he), ih hkeys]

theorem entries_foldl_erase (tids : List TelegramId) (states : AList (fun _ : TelegramId => Ref))
    : (tids.foldl (fun states tid => states.erase tid) states).entries
        =
      states.entries.filter fun e => e.1 ∉ tids := by
  induction tids generalizing states with
  | nil => simp
  | cons tid tids ih =>
    have herase : (states.erase tid).entries = states.entries.filter fun e => e.1 ≠ tid :=
      kerase_eq_filter tid states.nodupKeys
    rw [List.foldl_cons, ih, herase, List.filter_filter]
    apply List.filter_congr
    intro e _
    simp [Bool.and_comm]

theorem items_evict (m : Monitor) (tids : List TelegramId)
    : (m.evict tids).items = m.items.filter fun item => item.1 ∉ tids := by
  unfold evict
  dsimp only
  rw [foldl_cancelTaskOf_eq]
  unfold items
  dsimp only
  rw [entries_foldl_erase, List.filter_map, List.filter_reverse]
  rfl

theorem nodup_keys_items (m : Monitor) : (m.items.map (·.1)).Nodup := by
  have hkeys : m.items.map (·.1) = m.userStates.keys.reverse := by
    unfold items AList.keys List.keys
    rw [List.map_map, List.map_reverse]
    rfl
  rw [hkeys, List.nodup_reverse]
  exact m.userStates.keys_nodup

def Removed (m m' : Monitor) (item : TelegramId × Ref) : Prop := item ∈ m.items ∧ item ∉ m'.items

theorem removed_evict {m : Monitor} {tids : List TelegramId} {item : TelegramId × Ref}
    : Removed m (m.evict tids) item ↔ item ∈ m.items ∧ item.1 ∈ tids := by
  unfold Removed
  rw [items_evict, List.mem_filter]
  constructor
  . rintro ⟨hitem, hgone⟩
    refine ⟨hitem, ?_⟩
    by_contra hnot
    exact hgone ⟨hitem, by simpa using hnot⟩
  . rintro ⟨hitem, htid⟩
    refine ⟨hitem, ?_⟩
    rintro ⟨_, hkept⟩
    exact absurd htid (by simpa using hkept)

structure Passes (cfg : Settings) (m : Monitor) (stale capped kept : List (TelegramId × Ref)) : Prop where
  perm : m.items.Perm (stale ++ (capped ++ kept))
  stale : ∀ item ∈ stale, m.lastTouch item ≠ 0 ∧ m.lastTouch item < m.now - cfg.userStatesStaleAfter
  fresh : ∀ item ∈ capped ++ kept, m.lastTouch item = 0 ∨ m.now - cfg.userStatesStaleAfter ≤ m.lastTouch item
  oldest : ∀ item ∈ capped, ∀ item' ∈ kept, m.lastTouch item ≤ m.lastTouch item'
  overflow : capped.length = (capped ++ kept).length - cfg.userStatesMax

theorem exists_passes (cfg : Settings) (m : Monitor)
    : ∃ stale capped kept, Passes cfg m stale capped kept ∧
        m.evictStaleEntries cfg = m.evict ((stale ++ capped).map (·.1)) := by
  let isStale := fun item => m.lastTouch item ≠ 0 ∧ m.lastTouch item < m.now - cfg.userStatesStaleAfter
  let stale := m.items.filter fun item => isStale item
  let rest := m.items.filter fun item => ¬ isStale item
  let overflow := rest.length - cfg.userStatesMax
  let sortable := rest.insertionSort fun a b => m.lastTouch a ≤ m.lastTouch b
  have hsplit : (stale ++ rest).Perm m.items := by
    have hneg : rest = m.items.filter fun item => !decide (isStale item) := by
      apply List.filter_congr
      intro item _
      exact decide_not
    rw [hneg]
    exact List.filter_append_perm _ m.items
  have hrest : (sortable.take overflow ++ sortable.drop overflow).Perm rest := by
    rw [List.take_append_drop]
    exact List.perm_insertionSort _ _
  have hsorted : sortable.Pairwise fun a b => m.lastTouch a ≤ m.lastTouch b := by
    have : Std.Total fun a b => m.lastTouch a ≤ m.lastTouch b := ⟨fun a b => Int.le_total _ _⟩
    have : IsTrans _ fun a b => m.lastTouch a ≤ m.lastTouch b := ⟨fun _ _ _ => Int.le_trans⟩
    exact List.pairwise_insertionSort _ _
  refine ⟨stale, sortable.take overflow, sortable.drop overflow, ?_, rfl⟩
  constructor
  case perm => exact hsplit.symm.trans (hrest.symm.append_left stale)
  case stale =>
    intro item hitem
    exact of_decide_eq_true (List.mem_filter.mp hitem).2
  case fresh =>
    intro item hitem
    have hnot : ¬ isStale item := of_decide_eq_true (List.mem_filter.mp (hrest.mem_iff.mp hitem)).2
    rw [not_and_or, not_not, Int.not_lt] at hnot
    exact hnot
  case oldest =>
    rw [← List.take_append_drop overflow sortable] at hsorted
    exact (List.pairwise_append.mp hsorted).2.2
  case overflow =>
    rw [hrest.length_eq, List.length_take, List.length_insertionSort]
    exact Nat.min_eq_left (Nat.sub_le _ _)

theorem Passes.perm_kept {cfg : Settings} {m : Monitor} {stale capped kept : List (TelegramId × Ref)}
    (h : Passes cfg m stale capped kept)
    : (m.evict ((stale ++ capped).map (·.1))).items.Perm kept := by
  have hkeys := (h.perm.map (·.1)).nodup_iff.mp (nodup_keys_items m)
  have hperm := h.perm
  rw [← List.append_assoc] at hkeys hperm
  rw [List.map_append, List.nodup_append'] at hkeys
  rw [items_evict]
  refine (hperm.filter _).trans ?_
  have hgone : (stale ++ capped).filter (fun item => item.1 ∉ (stale ++ capped).map (·.1)) = [] := by
    rw [List.filter_eq_nil_iff]
    intro item hitem
    rw [decide_eq_true_iff, not_not]
    exact List.mem_map_of_mem hitem
  have hleft : kept.filter (fun item => item.1 ∉ (stale ++ capped).map (·.1)) = kept := by
    rw [List.filter_eq_self]
    intro item hitem
    rw [decide_eq_true_iff]
    intro hgone
    exact hkeys.2.2 hgone (List.mem_map_of_mem hitem)
  rw [List.filter_append, hgone, hleft]
  rfl

/--
Whatever can be read as the time an entry was last touched, the entry is not older than the TTL.
-/
def KeepsNoStale (cfg : Settings) (m m' : Monitor) : Prop :=
  ∀ item ∈ m'.items, ∀ t, (m.heap item.2).touchedAt = some t → m.now - cfg.userStatesStaleAfter ≤ t

/--
What an eviction may do. `stale` and `capped` are the entries the two passes remove; to `_state_last_touch_ts`
an entry without a time and one from the epoch are the same.
-/
structure SoundlyEvicted (cfg : Settings) (m m' : Monitor) : Prop where
  atMostMax : m'.items.length ≤ cfg.userStatesMax
  noneStale : ∀ item ∈ m'.items, ∀ t, (m.heap item.2).touchedAt = some t → t ≠ 0 →
    m.now - cfg.userStatesStaleAfter ≤ t
  passes : ∃ stale capped, m.items.Perm (stale ++ (capped ++ m'.items)) ∧
    (∀ item ∈ stale, ∃ t, (m.heap item.2).touchedAt = some t ∧ t < m.now - cfg.userStatesStaleAfter) ∧
    (∀ item ∈ capped, ∀ item' ∈ m'.items, m.lastTouch item ≤ m.lastTouch item') ∧
    (capped ≠ [] → m'.items.length = cfg.userStatesMax)
  survivors : m'.items.Sublist m.items ∧ ∀ item ∈ m'.items, m'.heap item.2 = m.heap item.2
  dirtyStates : ∀ tid, tid ∈ m'.dirtyStates ↔ tid ∈ m.dirtyStates ∧ ¬ ∃ ref, Removed m m' (tid, ref)
  tasks : ∀ k, m.tasks k ≠ none →
    (m'.tasks k = none ↔ ∃ item, Removed m m' item ∧ (m.heap item.2).debounceTask = some k)
  tasks_kept : ∀ {k}, m'.tasks k ≠ none → m'.tasks k = m.tasks k
  rest : m' = { m with userStates := m'.userStates, dirtyStates := m'.dirtyStates, tasks := m'.tasks }

section Soundness

variable {cfg : Settings} {m : Monitor} {stale capped kept : List (TelegramId × Ref)}

theorem lastTouch_eq (m : Monitor) (item : TelegramId × Ref)
    : m.lastTouch item = (m.heap item.2).touchedAt.getD 0 :=
  stateLastTouchTs_eq _

theorem mem_map_of_removed {tids : List TelegramId} (htids : ∀ tid ∈ tids, ∃ ref, (tid, ref) ∈ m.items)
    {tid : TelegramId} : tid ∈ tids ↔ ∃ ref, Removed m (m.evict tids) (tid, ref) := by
  constructor
  . intro htid
    rcases htids tid htid with ⟨ref, hitem⟩
    exact ⟨ref, removed_evict.mpr ⟨hitem, htid⟩⟩
  . rintro ⟨ref, hremoved⟩
    exact (removed_evict.mp hremoved).2

theorem Passes.mem_items (h : Passes cfg m stale capped kept)
    : ∀ tid ∈ (stale ++ capped).map (·.1), ∃ ref, (tid, ref) ∈ m.items := by
  intro tid htid
  rcases List.mem_map.mp htid with ⟨item, hitem, rfl⟩
  refine ⟨item.2, h.perm.mem_iff.mpr ?_⟩
  rw [← List.append_assoc]
  exact List.mem_append_left kept hitem

theorem Passes.length_kept (h : Passes cfg m stale capped kept)
    : kept.length ≤ cfg.userStatesMax ∧ (capped ≠ [] → kept.length = cfg.userStatesMax) := by
  have hoverflow := h.overflow
  rw [List.length_append] at hoverflow
  constructor
  . omega
  . intro hcapped
    have := List.length_pos_iff.mpr hcapped
    omega

theorem tasks_evict (m : Monitor) (tids : List TelegramId) (k : TaskId) (hk : m.tasks k ≠ none)
    : (m.evict tids).tasks k = none
        ↔
      ∃ item, Removed m (m.evict tids) item ∧ (m.heap item.2).debounceTask = some k := by
  have hevicted := evicted_evict m tids
  constructor
  . intro hcancelled
    by_contra hnone
    apply hk
    rw [← hcancelled, hevicted.kept_of]
    intro tid htid ref href hdebounce
    exact hnone ⟨(tid, ref), removed_evict.mpr ⟨mem_items.mpr href, htid⟩, hdebounce⟩
  . rintro ⟨item, hremoved, hdebounce⟩
    rcases removed_evict.mp hremoved with ⟨hitem, htid⟩
    exact hevicted.gone htid (mem_items.mp hitem) hdebounce

theorem evictStaleEntries_sound (cfg : Settings) (m : Monitor)
    : SoundlyEvicted cfg m (m.evictStaleEntries cfg) := by
  rcases exists_passes cfg m with ⟨stale, capped, kept, hpasses, heq⟩
  rw [heq]
  have hkept := hpasses.perm_kept
  have hevicted := evicted_evict m ((stale ++ capped).map (·.1))
  constructor
  case atMostMax =>
    rw [hkept.length_eq]
    exact hpasses.length_kept.1
  case noneStale =>
    intro item hitem t htouched ht
    have hitem := List.mem_append_right capped (hkept.mem_iff.mp hitem)
    have hlast : m.lastTouch item = t := by rw [lastTouch_eq, htouched, Option.getD_some]
    have hfresh := hpasses.fresh item hitem
    rw [hlast] at hfresh
    exact hfresh.resolve_left ht
  case passes =>
    refine ⟨stale, capped, ?_, ?_, ?_, ?_⟩
    . exact hpasses.perm.trans ((hkept.symm.append_left capped).append_left stale)
    . intro item hitem
      rcases hpasses.stale item hitem with ⟨hne, hlt⟩
      rw [lastTouch_eq] at hne hlt
      cases htouched : (m.heap item.2).touchedAt with
      | none => exact absurd (by rw [htouched]; rfl) hne
      | some t =>
        rw [htouched] at hlt
        exact ⟨t, rfl, hlt⟩
    . intro item hitem item' hitem'
      exact hpasses.oldest item hitem item' (hkept.mem_iff.mp hitem')
    . intro hcapped
      rw [hkept.length_eq]
      exact hpasses.length_kept.2 hcapped
  case survivors =>
    constructor
    . rw [items_evict]
      exact List.filter_sublist
    . intro item _
      rw [hevicted.rest]
  case dirtyStates =>
    intro tid
    rw [← mem_map_of_removed hpasses.mem_items, hevicted.rest, List.mem_filter, decide_eq_true_iff]
  case tasks => exact tasks_evict m _
  case tasks_kept => exact hevicted.kept
  case rest =>
    have hdirty : (m.evict ((stale ++ capped).map (·.1))).dirtyStates = _ :=
      congrArg Monitor.dirtyStates hevicted.rest
    rw [hdirty]
    exact hevicted.rest

end Soundness

def epochMonitor : Monitor :=
  let st : UserState := { lastChangeAt := some (.datetime 0) }
  ({ now := seconds 1704067200 } : Monitor).createEntry "777" st

theorem not_keepsNoStale_epochMonitor : ¬ KeepsNoStale {} epochMonitor (epochMonitor.evictStaleEntries {}) := by
  intro hkeeps
  have hitem : ("777", 0) ∈ (epochMonitor.evictStaleEntries {}).items := by decide
  have hfresh : epochMonitor.now - ({} : Settings).userStatesStaleAfter ≤ 0 := hkeeps ("777", 0) hitem 0 rfl
  exact absurd hfresh (by decide)

end Monitor
end PowerMonitor
