import VoltykBot.Schedule.Charts

/-!
This module contains the condition under which no outdated chart is served, the invariant that shows that
it is enough, and what happens without it.
-/

namespace Scheduler.Charts

section Condition

variable (env : ChartEnv) (charts : Charts)

def planOf (e : ChartEvent) : Option Plan :=
  match e with
  | .fetched _ pair none => some (charts.plan env pair none none (charts.dueEvents pair none))
  | .fetched _ pair (some sched) =>
    match charts.sourceUpdateCache.fresh (sourcePath pair) queueSourceUpdateTtl charts.now with
    | some sourceUpdatedAt =>
      some (charts.plan env pair (some sched) sourceUpdatedAt (charts.dueEvents pair (some sched)))
    | none => none
  | .sourceAnswered id answer =>
    match charts.tasks id with
    | some (.askingSource pair sched cached due) =>
      some (charts.plan env pair (some sched) (answeredSource env cached answer) due)
    | _ => none
  | _ => none

/--
Every PNG drawn from other events than `due` that Redis was given under the key of the call has been gone
from Redis since `t`: it has expired, or this very key was deleted or written to.
-/
def OutdatedGone (l : Lookup) (t : WallTime) : Prop :=
  match l.due with
  | some events => charts.redis.KeepsOnly l.key (fun png => png.drawnFrom.events = events) t
  | none => True

/--
The key of a call for the current schedule tells it from the earlier ones: outdated PNGs under it are
gone from Redis when it reads Redis, and were gone before the entries that are fresh in `_image_cache`
could be made when it looks there. A downloaded PNG shows the events as well.
-/
def KeyTellsEvents (e : ChartEvent) : Prop :=
  match charts.planOf env e with
  | some (.looks l) => charts.OutdatedGone l (charts.now - cacheTtl)
  | _ =>
    match e with
    | .redisRead id =>
      match charts.tasks id with
      | some (.reading l) => charts.OutdatedGone l charts.now
      | _ => True
    | .downloaded id (some png) =>
      match charts.tasks id with
      | some (.downloading l) => ∀ events ∈ l.due, png.drawnFrom.events = events
      | _ => True
    | _ => True

instance (l : Lookup) (t : WallTime) : Decidable (charts.OutdatedGone l t) := by
  unfold OutdatedGone
  split
  . infer_instance
  . infer_instance

instance (e : ChartEvent) : Decidable (charts.KeyTellsEvents env e) := by
  unfold KeyTellsEvents
  split
  . infer_instance
  . split
    . split
      . infer_instance
      . infer_instance
    . split
      . infer_instance
      . infer_instance
    . infer_instance

end Condition

structure LookupSound (now : WallTime) (l : Lookup) : Prop where
  past : l.now ≤ now
  sched : ∀ events ∈ l.due, ∀ sched ∈ l.sched, sched.events = events

def TaskSound (redis : TtlCache.Store ChartKey Png) (now : WallTime) (task : ChartTask) : Prop :=
  match task with
  | .askingSource _ sched _ due => ∀ events ∈ due, sched.events = events
  | .drawingOnDemand sched due => ∀ events ∈ due, sched.events = events
  | .reading l => LookupSound now l
  | .hit l png =>
    LookupSound now l ∧ redis.KeptSince l.key png l.now ∧ ∀ events ∈ l.due, png.drawnFrom.events = events
  | .drawing l => LookupSound now l
  | .storing l png => LookupSound now l ∧ ∀ events ∈ l.due, png.drawnFrom.events = events
  | .stored l png =>
    LookupSound now l ∧ redis.KeptSince l.key png l.now ∧ ∀ events ∈ l.due, png.drawnFrom.events = events
  | .downloading l => LookupSound now l
  | .deleting _ => True
  | .prerendering _ => True
  | .prestoring _ _ => True
  | .prestored _ => True

structure Sound (charts : Charts) : Prop where
  redis : charts.redis.Recorded
  imageCache : ∀ entry ∈ charts.imageCache,
    entry.cachedAt ≤ charts.now ∧ charts.redis.KeptSince entry.key entry.value entry.cachedAt
  tasks : ∀ id task, charts.tasks id = some task → TaskSound charts.redis charts.now task
  served : charts.ServesCurrent

variable {env : ChartEnv} {charts charts' : Charts}

theorem LookupSound.later {now now' : WallTime} {l : Lookup} (h : LookupSound now l) (hle : now ≤ now')
    : LookupSound now' l :=
  { past := Int.le_trans h.past hle, sched := h.sched }

theorem TaskSound.later {redis redis' : TtlCache.Store ChartKey Png} {now now' : WallTime}
    {task : ChartTask} (h : TaskSound redis now task) (hle : now ≤ now')
    (hkept : ∀ key png t, t ≤ now → redis.KeptSince key png t → redis'.KeptSince key png t)
    : TaskSound redis' now' task := by
  cases task with
  | askingSource pair sched cached due => exact h
  | drawingOnDemand sched due => exact h
  | reading l => exact LookupSound.later h hle
  | hit l png => exact ⟨h.1.later hle, hkept _ _ _ h.1.past h.2.1, h.2.2⟩
  | drawing l => exact LookupSound.later h hle
  | storing l png => exact ⟨h.1.later hle, h.2⟩
  | stored l png => exact ⟨h.1.later hle, hkept _ _ _ h.1.past h.2.1, h.2.2⟩
  | downloading l => exact LookupSound.later h hle
  | deleting change => trivial
  | prerendering change => trivial
  | prestoring change png => trivial
  | prestored change => trivial

theorem sound_start (now : WallTime) : (start now).Sound := by
  constructor
  . exact TtlCache.Store.recorded_empty
  . exact List.forall_mem_nil _
  . intro _ _ h
    cases h
  . exact List.forall_mem_nil _

theorem Sound.setTask (h : charts.Sound) {id : Nat} {task : Option ChartTask}
    (htask : ∀ t ∈ task, TaskSound charts.redis charts.now t) : (charts.setTask id task).Sound := by
  constructor
  . exact h.redis
  . exact h.imageCache
  . intro id' task' htask'
    unfold Charts.setTask at htask'
    dsimp only at htask'
    by_cases heq : id' = id
    . subst heq
      rw [Function.update_self] at htask'
      exact htask task' htask'
    . rw [Function.update_of_ne heq] at htask'
      exact h.tasks id' task' htask'
  . exact h.served

theorem Sound.setSome (h : charts.Sound) {id : Nat} {task : ChartTask}
    (htask : TaskSound charts.redis charts.now task) : (charts.setTask id (some task)).Sound := by
  apply h.setTask
  intro _ hnew
  injection hnew with hnew
  rw [← hnew]
  exact htask

theorem Sound.clearTask (h : charts.Sound) (id : Nat) : (charts.setTask id none).Sound := by
  apply h.setTask
  intro _ hnone
  cases hnone

theorem Sound.serve (h : charts.Sound) {due : Option (List ScheduleEvent)} {png : Png}
    (hpng : ∀ events ∈ due, png.drawnFrom.events = events) : (charts.serve due png).Sound := by
  constructor
  . exact h.redis
  . exact h.imageCache
  . exact h.tasks
  . intro answer hanswer
    rcases List.mem_cons.mp hanswer with rfl | hbefore
    . exact hpng
    . exact h.served answer hbefore

theorem Sound.sourceUpdateCache (h : charts.Sound) (front : TtlCache.Front String (Option String))
    : { charts with sourceUpdateCache := front }.Sound :=
  { redis := h.redis, imageCache := h.imageCache, tasks := h.tasks, served := h.served }

theorem Sound.current (h : charts.Sound) (current : Pair → Current)
    : { charts with current }.Sound :=
  { redis := h.redis, imageCache := h.imageCache, tasks := h.tasks, served := h.served }

theorem Sound.imageCache_of_subset (h : charts.Sound) {front : TtlCache.Front ChartKey Png}
    (hsubset : ∀ entry ∈ front, entry ∈ charts.imageCache) : { charts with imageCache := front }.Sound :=
  {
    redis := h.redis
    imageCache := fun entry hentry => h.imageCache entry (hsubset entry hentry)
    tasks := h.tasks
    served := h.served
  }

theorem Sound.l1Store (h : charts.Sound) {key : ChartKey} {now : WallTime} {png : Png}
    (hpast : now ≤ charts.now) (hkept : charts.redis.KeptSince key png now)
    : (charts.l1Store key now png).Sound := by
  constructor
  . exact h.redis
  . intro entry hentry
    rcases TtlCache.Front.eq_or_mem_of_mem_put hentry with rfl | hold
    . exact ⟨hpast, hkept⟩
    . apply h.imageCache entry
      split at hold
      . exact List.mem_of_mem_tail hold
      . exact hold
  . exact h.tasks
  . exact h.served

theorem Sound.redisSet (h : charts.Sound) {key : ChartKey} {png : Png}
    : { charts with redis := charts.redis.set key png charts.now chartTtl }.Sound := by
  constructor
  . exact h.redis.set
  . intro entry hentry
    have hold := h.imageCache entry hentry
    exact ⟨hold.1, hold.2.set hold.1⟩
  . intro id task htask
    apply (h.tasks id task htask).later (Int.le_refl _)
    intro _ _ _ hpast hkept
    exact hkept.set hpast
  . exact h.served

theorem Sound.redisDelete (h : charts.Sound) {key : ChartKey}
    : { charts with redis := charts.redis.delete key charts.now }.Sound := by
  constructor
  . exact h.redis.delete
  . intro entry hentry
    have hold := h.imageCache entry hentry
    exact ⟨hold.1, hold.2.delete hold.1⟩
  . intro id task htask
    apply (h.tasks id task htask).later (Int.le_refl _)
    intro _ _ _ hpast hkept
    exact hkept.delete hpast
  . exact h.served

theorem Sound.elapsed (h : charts.Sound) (us : Nat) : { charts with now := charts.now + us }.Sound := by
  have hle : charts.now ≤ charts.now + us := Int.le_add_of_nonneg_right (Int.natCast_nonneg us)
  constructor
  . exact h.redis
  . intro entry hentry
    have hold := h.imageCache entry hentry
    exact ⟨Int.le_trans hold.1 hle, hold.2⟩
  . intro id task htask
    apply (h.tasks id task htask).later hle
    intro _ _ _ _ hkept
    exact hkept
  . exact h.served

theorem Sound.restarted (h : charts.Sound) : charts.restarted.Sound := by
  constructor
  . exact h.redis
  . exact List.forall_mem_nil _
  . intro _ _ htask
    cases htask
  . exact h.served

section Plan

variable {pair : Pair} {sched : Option Sched} {sourceUpdatedAt : Option String}
  {due : Option (List ScheduleEvent)} {l : Lookup}

theorem dueEvents_sound
    : ∀ events ∈ charts.dueEvents pair sched, ∀ sched' ∈ sched, sched'.events = events := by
  intro events hevents sched' hsched
  rw [hsched] at hevents
  unfold dueEvents at hevents
  split at hevents
  . next heq =>
    injection heq with heq
    subst heq
    split at hevents
    . injection hevents
    . cases hevents
  . cases hevents

theorem events_withSource (sched : Sched) (sourceUpdatedAt : Option String)
    : (sched.withSource sourceUpdatedAt).events = sched.events := by
  unfold Sched.withSource
  split
  . rfl
  . rfl

theorem events_normalizeScheduleChartMetadata {now : WallTime} {sched sched' : Sched}
    (h : normalizeScheduleChartMetadata env now sched = some sched') : sched'.events = sched.events := by
  unfold normalizeScheduleChartMetadata at h
  split at h
  . cases h
  . injection h with h
    rw [← h]
  . injection h with h
    rw [← h]

def PlanSound (now : WallTime) (plan : Plan) : Prop :=
  match plan with
  | .raises => True
  | .drawsOnDemand sched due => ∀ events ∈ due, sched.events = events
  | .looks l => LookupSound now l

theorem plan_sound (hdue : ∀ events ∈ due, ∀ sched' ∈ sched, sched'.events = events)
    : PlanSound charts.now (charts.plan env pair sched sourceUpdatedAt due) := by
  unfold plan
  split
  . exact { past := Int.le_refl _, sched := fun _ _ _ hnone => by cases hnone }
  . next sched =>
    -- neither the time of the source nor the normalization changes the events
    have hsource : ∀ events ∈ due, (sched.withSource sourceUpdatedAt).events = events := by
      intro events hevents
      rw [events_withSource]
      exact hdue events hevents sched rfl
    split
    . trivial
    . next sched' hnormalized =>
      have hevents := events_normalizeScheduleChartMetadata hnormalized
      split
      . trivial
      . split
        . intro events hdue'
          rw [hevents]
          exact hsource events hdue'
        . refine { past := Int.le_refl _, sched := ?_ }
          intro events hdue' sched'' hsched
          injection hsched with hsched
          rw [← hsched, hevents]
          exact hsource events hdue'

theorem OutdatedGone.keepsOnly {t : WallTime} (h : charts.OutdatedGone l t) {events : List ScheduleEvent}
    (hdue : events ∈ l.due)
    : charts.redis.KeepsOnly l.key (fun png => png.drawnFrom.events = events) t := by
  unfold OutdatedGone at h
  rw [hdue] at h
  exact h

theorem Sound.events_of_fresh (h : charts.Sound) (hgone : charts.OutdatedGone l (charts.now - cacheTtl))
    {png : Png} (hfresh : charts.imageCache.fresh l.key cacheTtl charts.now = some png)
    : ∀ events ∈ l.due, png.drawnFrom.events = events := by
  intro events hdue
  rcases TtlCache.Front.exists_of_fresh hfresh with ⟨entry, hentry, hkey, hvalue, hage⟩
  have hkept := (h.imageCache entry hentry).2
  rw [hkey, hvalue] at hkept
  apply (hgone.keepsOnly hdue).of_keptSince hkept
  exact Int.sub_lt_of_sub_lt hage

theorem Sound.follow (h : charts.Sound) {id : Nat} {plan : Plan} (hplan : PlanSound charts.now plan)
    (hgone : ∀ l, plan = .looks l → charts.OutdatedGone l (charts.now - cacheTtl))
    : (charts.follow id plan).Sound := by
  unfold Charts.follow
  split
  . exact h.clearTask id
  . next sched due =>
    apply h.setSome
    exact hplan
  . next l =>
    split
    . next png hfresh =>
      have htouched : { charts with imageCache := charts.imageCache.touch l.key }.Sound :=
        h.imageCache_of_subset fun entry => TtlCache.Front.mem_of_mem_touch
      exact (htouched.clearTask id).serve (h.events_of_fresh (hgone l rfl) hfresh)
    . apply h.setSome
      exact hplan

end Plan

section Steps

variable {id : Nat}

theorem Sound.fetched (h : charts.Sound) {pair : Pair} {sched : Option Sched}
    (hkey : charts.KeyTellsEvents env (.fetched id pair sched))
    (hstep : charts.fetched env id pair sched = some charts') : charts'.Sound := by
  unfold KeyTellsEvents planOf at hkey
  unfold Charts.fetched at hstep
  split at hstep
  . cases hstep
  . cases sched with
    | none =>
      injection hstep with hstep
      rw [← hstep]
      apply h.follow (plan_sound dueEvents_sound)
      intro l hl
      dsimp only at hkey
      rw [hl] at hkey
      exact hkey
    | some sched =>
      dsimp only at hstep hkey
      split at hstep
      . next sourceUpdatedAt hfresh =>
        injection hstep with hstep
        rw [← hstep]
        have hplan : PlanSound charts.now (charts.plan env pair (some sched) sourceUpdatedAt
            (charts.dueEvents pair (some sched))) := plan_sound dueEvents_sound
        refine Sound.follow (h.sourceUpdateCache _) hplan ?_
        intro l hl
        rw [hfresh] at hkey
        dsimp only at hkey
        rw [hl] at hkey
        exact hkey
      . injection hstep with hstep
        rw [← hstep]
        apply h.setSome
        intro events hevents
        exact dueEvents_sound events hevents sched rfl

theorem Sound.storeSource (h : charts.Sound) (pair : Pair) (cached : Option String)
    (answer : SourceAnswer) : (charts.storeSource env pair cached answer).Sound := by
  unfold Charts.storeSource
  split
  . exact h.sourceUpdateCache _
  . exact h
  . split
    . exact h
    . exact h.sourceUpdateCache _

theorem storeSource_eq (env : ChartEnv) (charts : Charts) (pair : Pair) (cached : Option String)
    (answer : SourceAnswer)
    : (charts.storeSource env pair cached answer).now = charts.now
        ∧ (charts.storeSource env pair cached answer).redis = charts.redis := by
  unfold storeSource
  split
  . exact ⟨rfl, rfl⟩
  . exact ⟨rfl, rfl⟩
  . split
    . exact ⟨rfl, rfl⟩
    . exact ⟨rfl, rfl⟩

theorem Sound.sourceAnswered (h : charts.Sound) {answer : SourceAnswer}
    (hkey : charts.KeyTellsEvents env (.sourceAnswered id answer))
    (hstep : charts.sourceAnswered env id answer = some charts') : charts'.Sound := by
  unfold KeyTellsEvents planOf at hkey
  unfold Charts.sourceAnswered at hstep
  split at hstep
  . next pair sched cached due htask =>
    injection hstep with hstep
    have hdue := h.tasks id _ htask
    have ⟨hnow, hredis⟩ := storeSource_eq env charts pair cached answer
    rw [← hstep]
    apply (h.storeSource pair cached answer).follow
    . rw [hnow]
      apply plan_sound
      intro events hevents sched' hsched
      injection hsched with hsched
      rw [← hsched]
      exact hdue events hevents
    . intro l hl
      dsimp only at hkey
      rw [htask] at hkey
      dsimp only at hkey
      rw [hl] at hkey
      unfold OutdatedGone
      rw [hnow, hredis]
      exact hkey
  . cases hstep

theorem Sound.changed (h : charts.Sound) {pair : Pair} {sched : Sched}
    (hstep : charts.changed env id pair sched = some charts') : charts'.Sound := by
  have hinvalidated : (charts.invalidateImageCache pair).Sound :=
    h.imageCache_of_subset fun entry => TtlCache.Front.mem_of_mem_erase
  unfold Charts.changed at hstep
  split at hstep
  . cases hstep
  . dsimp only at hstep
    split at hstep
    . injection hstep with hstep
      rw [← hstep]
      apply Sound.current
      apply hinvalidated.setSome
      trivial
    . injection hstep with hstep
      rw [← hstep]
      exact hinvalidated.current _

theorem Sound.prerendered (h : charts.Sound) {change : Change} : (charts.prerendered id change).Sound := by
  unfold Charts.prerendered
  dsimp only
  split
  . exact (h.clearTask id).current _
  . exact h.clearTask id

theorem Sound.redisDeleted (h : charts.Sound) (hstep : charts.redisDeleted id = some charts')
    : charts'.Sound := by
  unfold Charts.redisDeleted at hstep
  split at hstep
  . injection hstep with hstep
    rw [← hstep]
    apply h.redisDelete.setSome
    trivial
  . cases hstep

theorem Sound.redisRead (h : charts.Sound) (hkey : charts.KeyTellsEvents env (.redisRead id))
    (hstep : charts.redisRead id = some charts') : charts'.Sound := by
  unfold KeyTellsEvents planOf at hkey
  unfold Charts.redisRead at hstep
  split at hstep
  . next l htask =>
    have hl : LookupSound charts.now l := h.tasks id _ htask
    dsimp only at hkey
    rw [htask] at hkey
    split at hstep
    . next png hget =>
      injection hstep with hstep
      rw [← hstep]
      apply h.setSome
      refine ⟨hl, h.redis.keptSince_of_get hget hl.past, ?_⟩
      intro events hdue
      exact (OutdatedGone.keepsOnly hkey hdue).of_get h.redis hget (Int.le_refl _)
    . injection hstep with hstep
      rw [← hstep]
      apply h.setSome
      exact hl
    . injection hstep with hstep
      rw [← hstep]
      apply h.setSome
      exact hl
  . cases hstep

theorem Sound.redisStored (h : charts.Sound) (hstep : charts.redisStored id = some charts')
    : charts'.Sound := by
  unfold Charts.redisStored at hstep
  split at hstep
  . next l png htask =>
    have hl : LookupSound charts.now l ∧ ∀ events ∈ l.due, png.drawnFrom.events = events :=
      h.tasks id _ htask
    injection hstep with hstep
    rw [← hstep]
    apply h.redisSet.setSome
    exact ⟨hl.1, TtlCache.Store.keptSince_set hl.1.past (by decide), hl.2⟩
  . injection hstep with hstep
    rw [← hstep]
    apply h.redisSet.setSome
    trivial
  . cases hstep

theorem Sound.drawn (h : charts.Sound) {ok : Bool} (hstep : charts.drawn id ok = some charts')
    : charts'.Sound := by
  unfold Charts.drawn at hstep
  split at hstep
  . next sched due htask =>
    have hdue := h.tasks id _ htask
    injection hstep with hstep
    rw [← hstep]
    split
    . exact (h.clearTask id).serve hdue
    . exact h.clearTask id
  . next l htask =>
    have hl : LookupSound charts.now l := h.tasks id _ htask
    split at hstep
    . next sched hsched =>
      injection hstep with hstep
      rw [← hstep]
      apply h.setSome
      exact ⟨hl, fun events hdue => hl.sched events hdue sched hsched⟩
    . injection hstep with hstep
      rw [← hstep]
      apply h.setSome
      exact hl
  . split at hstep
    . injection hstep with hstep
      rw [← hstep]
      apply h.setSome
      trivial
    . injection hstep with hstep
      rw [← hstep]
      exact h.prerendered
  . cases hstep

theorem Sound.downloaded (h : charts.Sound) {png : Option Png}
    (hkey : charts.KeyTellsEvents env (.downloaded id png))
    (hstep : charts.downloaded id png = some charts') : charts'.Sound := by
  unfold KeyTellsEvents planOf at hkey
  unfold Charts.downloaded at hstep
  split at hstep
  . next l htask =>
    have hl : LookupSound charts.now l := h.tasks id _ htask
    cases png with
    | none =>
      injection hstep with hstep
      rw [← hstep]
      exact h.clearTask id
    | some png =>
      dsimp only at hkey
      rw [htask] at hkey
      injection hstep with hstep
      rw [← hstep]
      apply h.setSome
      exact ⟨hl, hkey⟩
  . cases hstep

theorem Sound.resumed (h : charts.Sound) (hstep : charts.resumed id = some charts') : charts'.Sound := by
  unfold Charts.resumed at hstep
  split at hstep
  . next l png htask =>
    have hl := h.tasks id _ htask
    injection hstep with hstep
    rw [← hstep]
    exact ((h.l1Store hl.1.past hl.2.1).clearTask id).serve hl.2.2
  . next l png htask =>
    have hl := h.tasks id _ htask
    injection hstep with hstep
    rw [← hstep]
    exact ((h.l1Store hl.1.past hl.2.1).clearTask id).serve hl.2.2
  . injection hstep with hstep
    rw [← hstep]
    exact h.prerendered
  . cases hstep

theorem Sound.step (h : charts.Sound) {e : ChartEvent} (hkey : charts.KeyTellsEvents env e)
    (hstep : charts.step env e = some charts') : charts'.Sound := by
  cases e with
  | elapsed us =>
    injection hstep with hstep
    rw [← hstep]
    exact h.elapsed us
  | renderModeSet onDemand =>
    injection hstep with hstep
    rw [← hstep]
    exact { redis := h.redis, imageCache := h.imageCache, tasks := h.tasks, served := h.served }
  | restarted =>
    injection hstep with hstep
    rw [← hstep]
    exact h.restarted
  | changed id pair sched => exact h.changed hstep
  | fetched id pair sched => exact h.fetched hkey hstep
  | sourceAnswered id answer => exact h.sourceAnswered hkey hstep
  | redisDeleted id => exact h.redisDeleted hstep
  | redisRead id => exact h.redisRead hkey hstep
  | redisStored id => exact h.redisStored hstep
  | drawn id ok => exact h.drawn hstep
  | downloaded id png => exact h.downloaded hkey hstep
  | resumed id => exact h.resumed hstep

end Steps

/--
If the keys tell the events of the current schedules from earlier ones, in every run of calls, changes,
restarts and clock advances, no call for the current schedule of a pair returns a PNG drawn from other
events.
-/
theorem servesCurrent_of_keyTellsEvents (env : ChartEnv) (now : WallTime) (es : List ChartEvent)
    (hkeys : Run.StepsMeet (step env) (KeyTellsEvents env) (start now) es)
    : Run.Always (step env) ServesCurrent (start now) es :=
  Run.always_of_stepsMeet (fun h hkey hstep => Sound.step h hkey hstep) (fun h => Sound.served h)
    (sound_start now) hkeys

/-
What happens to a call whose key does not tell the events.
-/

theorem not_servesCurrent_serve {due : Option (List ScheduleEvent)} {png : Png}
    {events : List ScheduleEvent} (hdue : events ∈ due) (hpng : png.drawnFrom.events ≠ events)
    : ¬ (charts.serve due png).ServesCurrent := by
  intro h
  exact hpng (h (due, png) List.mem_cons_self events hdue)

theorem exists_not_servesCurrent_of_redis {id : Nat} {l : Lookup} {png : Png}
    {events : List ScheduleEvent} (htask : charts.tasks id = some (.reading l)) (hdue : events ∈ l.due)
    (hget : charts.redis.get l.key charts.now = some png) (hpng : png.drawnFrom.events ≠ events)
    : ∃ charts', Run.exec (step env) charts [.redisRead id, .resumed id] = some charts'
        ∧ ¬ charts'.ServesCurrent := by
  have hread : charts.redisRead id = some (charts.setTask id (some (.hit l png))) := by
    unfold redisRead
    rw [htask]
    dsimp only
    rw [hget]
  have hresumed : (charts.setTask id (some (.hit l png))).resumed id
      = some ((((charts.setTask id (some (.hit l png))).l1Store l.key l.now png).setTask id none).serve
          l.due png) := by
    unfold resumed
    have : (charts.setTask id (some (.hit l png))).tasks id = some (.hit l png) :=
      Function.update_self ..
    rw [this]
  have hrest : Run.exec (step env) (charts.setTask id (some (.hit l png))) [.resumed id] = some _ :=
    Run.exec_cons_eq_some.mpr ⟨_, hresumed, Run.exec_nil _⟩
  exact ⟨_, Run.exec_cons_eq_some.mpr ⟨_, hread, hrest⟩, not_servesCurrent_serve hdue hpng⟩

theorem not_servesCurrent_of_imageCache {id : Nat} {l : Lookup} {png : Png}
    {events : List ScheduleEvent} (hdue : events ∈ l.due)
    (hfresh : charts.imageCache.fresh l.key cacheTtl charts.now = some png)
    (hpng : png.drawnFrom.events ≠ events) : ¬ (charts.follow id (.looks l)).ServesCurrent := by
  unfold follow
  dsimp only
  rw [hfresh]
  exact not_servesCurrent_serve hdue hpng

/-
A region whose commit time is cached when the schedule changes.
-/

def sampleEnv : ChartEnv :=
  {
    normalizeDtekUpdatedAt := fun value =>
      match value with
      | .str "2024-03-05T08:00:00Z" => some (some "05.03.2024 10:00")
      | .str "2024-03-05T08:04:00Z" => some (some "05.03.2024 10:04")
      | .str text => some (some text)
      | _ => some none
    kyivText := fun _ => "05.03.2024 10:00"
    sha256 := id
  }

def outage (half : Nat) : ScheduleEvent :=
  {
    start := { date := 0, half, offset := 7200 }
    endAt := { date := 0, half := half + 4, offset := 7200 }
    isPossible := false
  }

def oldSched : Sched :=
  { hasData := true, events := [outage 20], queue := "1.1", dtekUpdatedAt := some "05.03.2024 09:58" }

def newSched : Sched :=
  { hasData := true, events := [outage 30], queue := "1.1", dtekUpdatedAt := some "05.03.2024 10:04" }

def changeRun (minutes : Nat) : List ChartEvent :=
  [.fetched 0 ("kyiv", "1.1") (some oldSched),
    .sourceAnswered 0 (.commits (.str "2024-03-05T08:00:00Z")), .redisRead 0, .drawn 0 true,
    .redisStored 0, .resumed 0, .elapsed (minutes * 60000000), .changed 1 ("kyiv", "1.1") newSched,
    .redisDeleted 1, .drawn 1 true, .redisStored 1, .resumed 1,
    .fetched 2 ("kyiv", "1.1") (some newSched)]

/--
15 minutes later the commit time is asked for again, and the call finds the new chart.
-/
def laterRun : List ChartEvent :=
  changeRun 15 ++ [.sourceAnswered 2 (.commits (.str "2024-03-05T08:04:00Z")), .redisRead 2, .resumed 2]

theorem servesCurrent_laterRun : Run.Always (step sampleEnv) ServesCurrent (start 0) laterRun :=
  servesCurrent_of_keyTellsEvents sampleEnv 0 laterRun (by decide +kernel)

/--
5 minutes later the commit time is still cached, and Redis still has the old chart under it.
-/
def soonerRun : List ChartEvent := changeRun 5 ++ [.redisRead 2, .resumed 2]

theorem soonerRun_isSome : (Run.exec (step sampleEnv) (start 0) soonerRun).isSome := by
  decide +kernel

theorem not_servesCurrent_soonerRun
    : ¬ ((Run.exec (step sampleEnv) (start 0) soonerRun).get soonerRun_isSome).ServesCurrent := by
  decide +kernel

end Scheduler.Charts
