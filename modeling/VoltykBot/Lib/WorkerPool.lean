import Mathlib.Data.List.Perm.Basic
import VoltykBot.Lib.Run

/-!
This module contains a producer with a pool of workers: the producer puts the items into a bounded
queue, each worker takes one item after the other and works on it, and the pool is closed when every
item that was put has been reported as done. The rules hold for every scheduling of the workers and
for every way the work on the single items goes.
-/

inductive WorkerPool.Next (S : Type*) where
  | blocked
  | more (s : S)
  | finished
  deriving DecidableEq

/--
The work on one item: it goes through states `S`, what happens next is up to an outcome in `O`. It
cannot go on forever, and in no state all outcomes are blocked.
-/
structure WorkerPool.Job (S O : Type*) where
  start : S
  next : S → O → WorkerPool.Next S
  rank : S → Nat
  decreasing : ∀ {s s' : S} {o : O}, next s o = .more s' → rank s' < rank s
  live : ∀ s : S, ∃ o, next s o ≠ .blocked

inductive WorkerPool.Worker (α S : Type*) where
  | idle
  | working (item : α) (s : S)
  | resting
  deriving DecidableEq

/--
`done` records which worker finished which item, no step reads it.
-/
structure WorkerPool (α S : Type*) where
  todo : List α
  queue : List α
  workers : List (WorkerPool.Worker α S)
  unfinished : Nat
  done : List (Nat × α)
  closed : Bool
  deriving DecidableEq

namespace WorkerPool

variable {α S O : Type*}

inductive Event (O : Type*) where
  | put
  | take (worker : Nat)
  | progress (worker : Nat) (outcome : O)
  | rested (worker : Nat)
  | joined
  deriving DecidableEq

def start (items : List α) (numWorkers : Nat) : WorkerPool α S :=
  {
    todo := items
    queue := []
    workers := List.replicate numWorkers .idle
    unfinished := 0
    done := []
    closed := false
  }

section Step

variable (job : Job S O) (capacity : Nat)

def put (pool : WorkerPool α S) : Option (WorkerPool α S) :=
  match pool.todo with
  | [] => none
  | item :: todo =>
    if pool.queue.length < capacity then
      some { pool with todo, queue := pool.queue ++ [item], unfinished := pool.unfinished + 1 }
    else
      none

def take (pool : WorkerPool α S) (worker : Nat) : Option (WorkerPool α S) :=
  match pool.workers[worker]?, pool.queue with
  | some .idle, item :: queue =>
    some { pool with queue, workers := pool.workers.set worker (.working item job.start) }
  | _, _ => none

def progress (pool : WorkerPool α S) (worker : Nat) (outcome : O) : Option (WorkerPool α S) :=
  match pool.workers[worker]? with
  | some (.working item s) =>
    match job.next s outcome with
    | .blocked => none
    | .more s' => some { pool with workers := pool.workers.set worker (.working item s') }
    | .finished =>
      some
        { pool with
          workers := pool.workers.set worker .resting
          unfinished := pool.unfinished - 1
          done := pool.done ++ [(worker, item)]
        }
  | _ => none

def rested (pool : WorkerPool α S) (worker : Nat) : Option (WorkerPool α S) :=
  match pool.workers[worker]? with
  | some .resting => some { pool with workers := pool.workers.set worker .idle }
  | _ => none

def joined (pool : WorkerPool α S) : Option (WorkerPool α S) :=
  if pool.todo.isEmpty ∧ pool.unfinished = 0 ∧ pool.closed = false then
    -- the workers are cancelled and gathered
    some { pool with workers := [], closed := true }
  else
    none

def step (pool : WorkerPool α S) (e : Event O) : Option (WorkerPool α S) :=
  match e with
  | .put => pool.put capacity
  | .take worker => pool.take job worker
  | .progress worker outcome => pool.progress job worker outcome
  | .rested worker => pool.rested worker
  | .joined => pool.joined

end Step

def inHand (workers : List (Worker α S)) : List α :=
  workers.filterMap fun
    | .working item _ => some item
    | _ => none

structure Accounts (items : List α) (pool : WorkerPool α S) : Prop where
  perm : items.Perm (pool.todo ++ pool.queue ++ inHand pool.workers ++ pool.done.map Prod.snd)
  unfinished_eq : pool.unfinished = pool.queue.length + (inHand pool.workers).length
  closed_todo : pool.closed = true → pool.todo = [] ∧ pool.unfinished = 0

section Steps

variable {job : Job S O} {capacity : Nat} {pool pool' : WorkerPool α S} {worker : Nat} {outcome : O}

theorem put_cases (h : pool.put capacity = some pool')
    : ∃ item todo, pool.todo = item :: todo ∧ pool.queue.length < capacity ∧ pool' =
        { pool with todo, queue := pool.queue ++ [item], unfinished := pool.unfinished + 1 } := by
  unfold put at h
  split at h
  . cases h
  . next item todo htodo =>
    split at h
    . next hroom =>
      injection h with h
      exact ⟨item, todo, htodo, hroom, h.symm⟩
    . cases h

theorem take_cases (h : pool.take job worker = some pool')
    : ∃ item queue, pool.workers[worker]? = some .idle ∧ pool.queue = item :: queue ∧ pool' =
        { pool with queue, workers := pool.workers.set worker (.working item job.start) } := by
  unfold take at h
  split at h
  . next item queue hworker hqueue =>
    injection h with h
    exact ⟨item, queue, hworker, hqueue, h.symm⟩
  . cases h

theorem progress_cases (h : pool.progress job worker outcome = some pool')
    : ∃ item s, pool.workers[worker]? = some (.working item s)
        ∧ ((∃ s', job.next s outcome = .more s'
              ∧ pool' = { pool with workers := pool.workers.set worker (.working item s') })
            ∨ job.next s outcome = .finished ∧ pool' =
                { pool with
                  workers := pool.workers.set worker .resting
                  unfinished := pool.unfinished - 1
                  done := pool.done ++ [(worker, item)]
                }) := by
  unfold progress at h
  split at h
  . next item s hworker =>
    refine ⟨item, s, hworker, ?_⟩
    split at h
    . cases h
    . next s' hnext =>
      injection h with h
      exact Or.inl ⟨s', hnext, h.symm⟩
    . next hnext =>
      injection h with h
      exact Or.inr ⟨hnext, h.symm⟩
  . cases h

theorem rested_cases (h : pool.rested worker = some pool')
    : pool.workers[worker]? = some .resting
        ∧ pool' = { pool with workers := pool.workers.set worker .idle } := by
  unfold rested at h
  split at h
  . next hworker =>
    injection h with h
    exact ⟨hworker, h.symm⟩
  . cases h

theorem joined_cases (h : pool.joined = some pool')
    : pool.todo = [] ∧ pool.unfinished = 0 ∧ pool.closed = false
        ∧ pool' = { pool with workers := [], closed := true } := by
  unfold joined at h
  split at h
  . next hdone =>
    injection h with h
    exact ⟨List.isEmpty_iff.mp hdone.1, hdone.2.1, hdone.2.2, h.symm⟩
  . cases h

end Steps

/-
What one worker's change does to the items in hand.
-/

theorem perm_of_getElem? {workers : List (Worker α S)} {i : Nat} {w : Worker α S}
    (h : workers[i]? = some w) (w' : Worker α S)
    : ∃ others, workers.Perm (w :: others) ∧ (workers.set i w').Perm (w' :: others) := by
  rcases List.getElem?_eq_some_iff.mp h with ⟨hlt, hget⟩
  refine ⟨workers.eraseIdx i, ?_, List.set_perm_cons_eraseIdx hlt w'⟩
  rw [← hget]
  exact (List.getElem_cons_eraseIdx_perm hlt).symm

@[simp]
theorem inHand_idle_cons (others : List (Worker α S)) : inHand (.idle :: others) = inHand others := rfl

@[simp]
theorem inHand_resting_cons (others : List (Worker α S))
    : inHand (.resting :: others) = inHand others := rfl

@[simp]
theorem inHand_working_cons (item : α) (s : S) (others : List (Worker α S))
    : inHand (.working item s :: others) = item :: inHand others := rfl

@[simp]
theorem inHand_nil : inHand ([] : List (Worker α S)) = [] := rfl

theorem inHand_perm {workers workers' : List (Worker α S)} (h : workers.Perm workers')
    : (inHand workers).Perm (inHand workers') :=
  h.filterMap _

theorem inHand_replicate (n : Nat) : inHand (List.replicate n (.idle : Worker α S)) = [] := by
  induction n with
  | zero => rfl
  | succ n ih => rw [List.replicate_succ, inHand_idle_cons, ih]

theorem accounts_start (items : List α) (n : Nat) : (start items n : WorkerPool α S).Accounts items := by
  constructor
  . simp [start, inHand_replicate]
  . simp [start, inHand_replicate]
  . intro h
    cases h

theorem Accounts.done_perm {items : List α} {pool : WorkerPool α S} (h : pool.Accounts items)
    (hclosed : pool.closed = true) : items.Perm (pool.done.map Prod.snd) := by
  have ⟨htodo, hzero⟩ := h.closed_todo hclosed
  have hcount := h.unfinished_eq
  have hqueue : pool.queue = [] := by
    apply List.eq_nil_of_length_eq_zero
    omega
  have hhand : inHand pool.workers = [] := by
    apply List.eq_nil_of_length_eq_zero
    omega
  have hperm := h.perm
  rw [htodo, hqueue, hhand] at hperm
  exact hperm

section Accounts

variable {job : Job S O} {capacity : Nat} {pool pool' : WorkerPool α S} {items : List α}

theorem Accounts.put (h : pool.Accounts items) (hstep : pool.put capacity = some pool')
    : pool'.Accounts items := by
  rcases put_cases hstep with ⟨item, todo, htodo, -, rfl⟩
  have hperm := h.perm
  have hcount := h.unfinished_eq
  rw [htodo] at hperm
  constructor
  . refine hperm.trans ?_
    dsimp only
    apply List.Perm.append_right
    apply List.Perm.append_right
    rw [List.cons_append, ← List.append_assoc]
    exact (List.perm_append_singleton item _).symm
  . dsimp only
    rw [List.length_append, List.length_singleton]
    omega
  . intro hclosed
    have := (h.closed_todo hclosed).1
    rw [htodo] at this
    cases this

theorem Accounts.take (h : pool.Accounts items) {worker : Nat} (hstep : pool.take job worker = some pool')
    : pool'.Accounts items := by
  rcases take_cases hstep with ⟨item, queue, hworker, hqueue, rfl⟩
  rcases perm_of_getElem? hworker (.working item job.start) with ⟨others, hold, hnew⟩
  have hold := inHand_perm hold
  have hnew := inHand_perm hnew
  rw [inHand_idle_cons] at hold
  rw [inHand_working_cons] at hnew
  have hhand := hnew.trans (hold.symm.cons item)
  have hperm := h.perm
  have hcount := h.unfinished_eq
  have hlength := hhand.length_eq
  rw [hqueue] at hperm hcount
  rw [List.length_cons] at hcount hlength
  constructor
  . refine hperm.trans ?_
    dsimp only
    apply List.Perm.append_right
    rw [List.append_assoc, List.append_assoc]
    apply List.Perm.append_left
    refine List.Perm.trans ?_ (hhand.symm.append_left queue)
    exact List.perm_middle.symm
  . dsimp only
    omega
  . intro hclosed
    have := (h.closed_todo hclosed).2
    omega

theorem Accounts.progress (h : pool.Accounts items) {worker : Nat} {outcome : O}
    (hstep : pool.progress job worker outcome = some pool') : pool'.Accounts items := by
  rcases progress_cases hstep with ⟨item, s, hworker, ⟨s', -, rfl⟩ | ⟨-, rfl⟩⟩
  . rcases perm_of_getElem? hworker (.working item s') with ⟨others, hold, hnew⟩
    have hhand := (inHand_perm hnew).trans (inHand_perm hold).symm
    constructor
    . refine h.perm.trans ?_
      dsimp only
      exact (hhand.symm.append_left _).append_right _
    . dsimp only
      rw [hhand.length_eq]
      exact h.unfinished_eq
    . exact h.closed_todo
  . rcases perm_of_getElem? hworker .resting with ⟨others, hold, hnew⟩
    have hold := inHand_perm hold
    have hnew := inHand_perm hnew
    rw [inHand_working_cons] at hold
    rw [inHand_resting_cons] at hnew
    have hhand := hold.trans (hnew.symm.cons item)
    have hcount := h.unfinished_eq
    have hlength := hhand.length_eq
    rw [List.length_cons] at hlength
    constructor
    . refine h.perm.trans ?_
      dsimp only
      rw [List.map_append, ← List.append_assoc]
      refine List.Perm.trans ?_ (List.perm_append_singleton item _).symm
      rw [← List.cons_append]
      apply List.Perm.append_right
      refine (hhand.append_left _).trans ?_
      exact List.perm_middle
    . dsimp only
      omega
    . intro hclosed
      have := (h.closed_todo hclosed).2
      omega

theorem Accounts.rested (h : pool.Accounts items) {worker : Nat}
    (hstep : pool.rested worker = some pool') : pool'.Accounts items := by
  rcases rested_cases hstep with ⟨hworker, rfl⟩
  rcases perm_of_getElem? hworker .idle with ⟨others, hold, hnew⟩
  have hhand := (inHand_perm hnew).trans (inHand_perm hold).symm
  constructor
  . refine h.perm.trans ?_
    exact (hhand.symm.append_left _).append_right _
  . dsimp only
    rw [hhand.length_eq]
    exact h.unfinished_eq
  . exact h.closed_todo

theorem Accounts.joined (h : pool.Accounts items) (hstep : pool.joined = some pool')
    : pool'.Accounts items := by
  rcases joined_cases hstep with ⟨htodo, hzero, -, rfl⟩
  have hcount := h.unfinished_eq
  have hhand : inHand pool.workers = [] := by
    apply List.eq_nil_of_length_eq_zero
    omega
  constructor
  . rw [inHand_nil, ← hhand]
    exact h.perm
  . dsimp only
    rw [inHand_nil, ← hhand]
    exact hcount
  . intro _
    exact ⟨htodo, hzero⟩

theorem Accounts.step (h : pool.Accounts items) {e : Event O} (hstep : step job capacity pool e = some pool')
    : pool'.Accounts items := by
  cases e with
  | put => exact h.put hstep
  | take worker => exact h.take hstep
  | progress worker outcome => exact h.progress hstep
  | rested worker => exact h.rested hstep
  | joined => exact h.joined hstep

end Accounts

section Weight

variable (job : Job S O)

def Worker.weight (worker : Worker α S) : Nat :=
  match worker with
  | .idle => 0
  | .working _ s => job.rank s + 2
  | .resting => 1

def totalWeight (workers : List (Worker α S)) : Nat :=
  match workers with
  | [] => 0
  | worker :: workers => worker.weight job + totalWeight workers

def weight (pool : WorkerPool α S) : Nat :=
  pool.todo.length * (job.rank job.start + 4)
    + pool.queue.length * (job.rank job.start + 3)
    + totalWeight job pool.workers
    + if pool.closed then 0 else 1

variable {job} {capacity : Nat} {pool pool' : WorkerPool α S}

theorem totalWeight_perm {workers workers' : List (Worker α S)} (h : workers.Perm workers')
    : totalWeight job workers = totalWeight job workers' := by
  induction h with
  | nil => rfl
  | cons worker _ ih => rw [totalWeight, totalWeight, ih]
  | swap worker worker' workers =>
    simp only [totalWeight]
    omega
  | trans _ _ ih ih' => rw [ih, ih']

theorem totalWeight_replicate (n : Nat)
    : totalWeight job (List.replicate n (.idle : Worker α S)) = 0 := by
  induction n with
  | zero => rfl
  | succ n ih => rw [List.replicate_succ, totalWeight, ih, Worker.weight]

theorem totalWeight_set (job : Job S O) {workers : List (Worker α S)} {i : Nat} {w : Worker α S}
    (h : workers[i]? = some w) (w' : Worker α S)
    : totalWeight job (workers.set i w') + w.weight job = totalWeight job workers + w'.weight job := by
  rcases perm_of_getElem? h w' with ⟨others, hold, hnew⟩
  rw [totalWeight_perm hold, totalWeight_perm hnew, totalWeight, totalWeight]
  omega

theorem weight_start (items : List α) (numWorkers : Nat)
    : (start items numWorkers : WorkerPool α S).weight job
        = items.length * (job.rank job.start + 4) + 1 := by
  simp [weight, start, totalWeight_replicate]

theorem weight_step {e : Event O} (hstep : step job capacity pool e = some pool')
    : pool'.weight job < pool.weight job := by
  cases e with
  | put =>
    rcases put_cases hstep with ⟨item, todo, htodo, -, rfl⟩
    unfold weight
    simp only [htodo, List.length_cons, List.length_append, List.length_nil, Nat.add_mul, Nat.mul_add]
    omega
  | take worker =>
    rcases take_cases hstep with ⟨item, queue, hworker, hqueue, rfl⟩
    have hsum := totalWeight_set job hworker (.working item job.start)
    unfold weight
    simp only [Worker.weight] at hsum
    simp only [hqueue, List.length_cons, Nat.add_mul, Nat.mul_add]
    omega
  | progress worker outcome =>
    rcases progress_cases hstep with ⟨item, s, hworker, ⟨s', hnext, rfl⟩ | ⟨-, rfl⟩⟩
    . have hsum := totalWeight_set job hworker (.working item s')
      have hrank := job.decreasing hnext
      unfold weight
      simp only [Worker.weight] at hsum
      dsimp only
      omega
    . have hsum := totalWeight_set job hworker .resting
      unfold weight
      simp only [Worker.weight] at hsum
      dsimp only
      omega
  | rested worker =>
    rcases rested_cases hstep with ⟨hworker, rfl⟩
    have hsum := totalWeight_set job hworker .idle
    unfold weight
    simp only [Worker.weight] at hsum
    dsimp only
    omega
  | joined =>
    rcases joined_cases hstep with ⟨-, -, hopen, rfl⟩
    unfold weight
    simp only [hopen, totalWeight, if_true, Bool.false_eq_true, if_false]
    omega

end Weight

section Progress

variable {job : Job S O} {capacity : Nat} {pool pool' : WorkerPool α S}

theorem length_workers_step {e : Event O} (hstep : step job capacity pool e = some pool')
    (hopen : pool'.closed = false) : pool'.workers.length = pool.workers.length := by
  cases e with
  | put =>
    rcases put_cases hstep with ⟨_, _, -, -, rfl⟩
    rfl
  | take worker =>
    rcases take_cases hstep with ⟨_, _, -, -, rfl⟩
    apply List.length_set
  | progress worker outcome =>
    rcases progress_cases hstep with ⟨_, _, -, ⟨_, -, rfl⟩ | ⟨-, rfl⟩⟩
    . apply List.length_set
    . apply List.length_set
  | rested worker =>
    rcases rested_cases hstep with ⟨-, rfl⟩
    apply List.length_set
  | joined =>
    rcases joined_cases hstep with ⟨-, -, -, rfl⟩
    cases hopen

theorem closed_step {e : Event O} (hstep : step job capacity pool e = some pool')
    (hopen : pool'.closed = false) : pool.closed = false := by
  cases e with
  | put =>
    rcases put_cases hstep with ⟨_, _, -, -, rfl⟩
    exact hopen
  | take worker =>
    rcases take_cases hstep with ⟨_, _, -, -, rfl⟩
    exact hopen
  | progress worker outcome =>
    rcases progress_cases hstep with ⟨_, _, -, ⟨_, -, rfl⟩ | ⟨-, rfl⟩⟩
    . exact hopen
    . exact hopen
  | rested worker =>
    rcases rested_cases hstep with ⟨-, rfl⟩
    exact hopen
  | joined =>
    rcases joined_cases hstep with ⟨-, -, hopen, -⟩
    exact hopen

theorem progress_enabled (job : Job S O) {i : Nat} {item : α} {s : S}
    (hworker : pool.workers[i]? = some (.working item s))
    : ∃ outcome, (pool.progress job i outcome).isSome := by
  rcases job.live s with ⟨outcome, hlive⟩
  refine ⟨outcome, ?_⟩
  unfold progress
  rw [hworker]
  dsimp only
  split
  . next hblocked => exact absurd hblocked hlive
  . rfl
  . rfl

theorem step_enabled (job : Job S O) {items : List α} (h : pool.Accounts items) (hcapacity : 0 < capacity)
    (hworkers : 0 < pool.workers.length) (hopen : pool.closed = false)
    : ∃ e, (step job capacity pool e).isSome := by
  by_cases hworking : ∃ (i : Nat) (item : α) (s : S), pool.workers[i]? = some (.working item s)
  . rcases hworking with ⟨i, item, s, hworker⟩
    rcases progress_enabled job hworker with ⟨outcome, henabled⟩
    exact ⟨.progress i outcome, henabled⟩
  by_cases hresting : ∃ i : Nat, pool.workers[i]? = some .resting
  . rcases hresting with ⟨i, hworker⟩
    refine ⟨.rested i, ?_⟩
    simp [step, rested, hworker]
  -- all workers are idle, the first one could take an item
  have hidle : pool.workers[0]? = some .idle := by
    have hfirst := List.getElem?_eq_getElem hworkers
    cases hw : pool.workers[0] with
    | idle => rw [hfirst, hw]
    | working item s => exact absurd ⟨0, item, s, by rw [hfirst, hw]⟩ hworking
    | resting => exact absurd ⟨0, by rw [hfirst, hw]⟩ hresting
  cases hqueue : pool.queue with
  | cons item queue =>
    refine ⟨.take 0, ?_⟩
    simp [step, take, hidle, hqueue]
  | nil =>
    cases htodo : pool.todo with
    | cons item todo =>
      refine ⟨.put, ?_⟩
      simp [step, put, htodo, hqueue, hcapacity]
    | nil =>
      refine ⟨.joined, ?_⟩
      have hhand : inHand pool.workers = [] := by
        unfold inHand
        rw [List.filterMap_eq_nil_iff]
        intro w hw
        rcases List.getElem?_of_mem hw with ⟨i, hi⟩
        cases w with
        | idle => rfl
        | working item s => exact absurd ⟨i, item, s, hi⟩ hworking
        | resting => rfl
      have hcount := h.unfinished_eq
      rw [hqueue, hhand] at hcount
      simp only [List.length_nil] at hcount
      simp [step, joined, htodo, hcount, hopen]

end Progress

section States

variable {P : S → Prop} {job : Job S O} {capacity : Nat} {pool pool' : WorkerPool α S}

def AllStates (P : S → Prop) (workers : List (Worker α S)) : Prop :=
  ∀ item s, .working item s ∈ workers → P s

theorem AllStates.set {workers : List (Worker α S)} (h : AllStates P workers) (i : Nat) {w : Worker α S}
    (hw : ∀ item s, w = .working item s → P s) : AllStates P (workers.set i w) := by
  intro item s hmem
  rcases List.mem_or_eq_of_mem_set hmem with hmem | heq
  . exact h item s hmem
  . exact hw item s heq.symm

theorem AllStates.step {e : Event O} (h : AllStates P pool.workers) (hstart : P job.start)
    (hnext : ∀ worker outcome s s', e = .progress worker outcome → P s → job.next s outcome = .more s' → P s')
    (hstep : step job capacity pool e = some pool') : AllStates P pool'.workers := by
  cases e with
  | put =>
    rcases put_cases hstep with ⟨item, todo, -, -, rfl⟩
    exact h
  | take worker =>
    rcases take_cases hstep with ⟨item, queue, -, -, rfl⟩
    apply h.set
    intro item' s heq
    cases heq
    exact hstart
  | progress worker outcome =>
    rcases progress_cases hstep with ⟨item, s, hworker, ⟨s', hmore, rfl⟩ | ⟨-, rfl⟩⟩
    . apply h.set
      intro item' s₁ heq
      cases heq
      exact hnext worker outcome s s' rfl (h item s (List.mem_of_getElem? hworker)) hmore
    . apply h.set
      nofun
  | rested worker =>
    rcases rested_cases hstep with ⟨-, rfl⟩
    apply h.set
    nofun
  | joined =>
    rcases joined_cases hstep with ⟨-, -, -, rfl⟩
    nofun

end States

section Credits

variable (worth : S → Nat)

def Worker.credit (worker : Worker α S) : Nat :=
  match worker with
  | .working _ s => worth s
  | .idle | .resting => 0

def Next.credit (next : Next S) : Nat :=
  match next with
  | .more s => worth s
  | .blocked | .finished => 0

def credits (workers : List (Worker α S)) : Nat :=
  match workers with
  | [] => 0
  | worker :: workers => worker.credit worth + credits workers

variable {worth} {job : Job S O} {capacity : Nat} {pool pool' : WorkerPool α S}

theorem credits_perm {workers workers' : List (Worker α S)} (h : workers.Perm workers')
    : credits worth workers = credits worth workers' := by
  induction h with
  | nil => rfl
  | cons worker _ ih => rw [credits, credits, ih]
  | swap worker worker' workers =>
    simp only [credits]
    omega
  | trans _ _ ih ih' => rw [ih, ih']

theorem credits_set {workers : List (Worker α S)} {i : Nat} {w : Worker α S} (h : workers[i]? = some w)
    (w' : Worker α S)
    : credits worth (workers.set i w') + w.credit worth = credits worth workers + w'.credit worth := by
  rcases perm_of_getElem? h w' with ⟨others, hold, hnew⟩
  rw [credits_perm hold, credits_perm hnew, credits, credits]
  omega

theorem credits_replicate (n : Nat) : credits worth (List.replicate n (.idle : Worker α S)) = 0 := by
  induction n with
  | zero => rfl
  | succ n ih => rw [List.replicate_succ, credits, ih, Worker.credit]

theorem credits_progress {worker : Nat} {outcome : O} (hstep : pool.progress job worker outcome = some pool')
    : ∃ item s, pool.workers[worker]? = some (.working item s) ∧
        credits worth pool'.workers + worth s =
          credits worth pool.workers + (job.next s outcome).credit worth := by
  rcases progress_cases hstep with ⟨item, s, hworker, ⟨s', hmore, rfl⟩ | ⟨hfinished, rfl⟩⟩
  . refine ⟨item, s, hworker, ?_⟩
    rw [hmore]
    exact credits_set hworker (.working item s')
  . refine ⟨item, s, hworker, ?_⟩
    rw [hfinished]
    exact credits_set hworker .resting

theorem credits_step_le {e : Event O} (hstart : worth job.start = 0)
    (hstep : step job capacity pool e = some pool') (hprogress : ∀ worker outcome, e ≠ .progress worker outcome)
    : credits worth pool'.workers ≤ credits worth pool.workers := by
  cases e with
  | put =>
    rcases put_cases hstep with ⟨item, todo, -, -, rfl⟩
    exact Nat.le_refl _
  | take worker =>
    rcases take_cases hstep with ⟨item, queue, hworker, -, rfl⟩
    have hset : credits worth (pool.workers.set worker (.working item job.start)) =
        credits worth pool.workers + worth job.start := credits_set hworker (.working item job.start)
    dsimp only
    rw [hset, hstart]
    exact Nat.le_refl _
  | progress worker outcome => exact absurd rfl (hprogress worker outcome)
  | rested worker =>
    rcases rested_cases hstep with ⟨hworker, rfl⟩
    exact Nat.le_of_eq (credits_set hworker .idle)
  | joined =>
    rcases joined_cases hstep with ⟨-, -, -, rfl⟩
    exact Nat.zero_le _

end Credits

section Refinement

variable {S' O' : Type*} {job : Job S O} {job' : Job S' O'} {outer : S → S'} {capacity : Nat}
  {pool pool' : WorkerPool α S}

/--
`job` does in finer steps what `job'` does, which is shown some of its states only.
-/
structure Job.Refines (job : Job S O) (job' : Job S' O') (outer : S → S') : Prop where
  start : outer job.start = job'.start
  more : ∀ {s s' : S} {outcome : O}, job.next s outcome = .more s' →
    outer s' = outer s ∨ ∃ outcome', job'.next (outer s) outcome' = .more (outer s')
  finished : ∀ {s : S} {outcome : O}, job.next s outcome = .finished →
    ∃ outcome', job'.next (outer s) outcome' = .finished

def Worker.map (outer : S → S') (worker : Worker α S) : Worker α S' :=
  match worker with
  | .idle => .idle
  | .working item s => .working item (outer s)
  | .resting => .resting

def map (outer : S → S') (pool : WorkerPool α S) : WorkerPool α S' :=
  {
    todo := pool.todo
    queue := pool.queue
    workers := pool.workers.map (Worker.map outer)
    unfinished := pool.unfinished
    done := pool.done
    closed := pool.closed
  }

theorem map_start (outer : S → S') (items : List α) (n : Nat)
    : (start items n : WorkerPool α S).map outer = start items n := by
  unfold start map
  rw [List.map_replicate]
  rfl

theorem map_worker (outer : S → S') {worker : Nat} {w : Worker α S} (h : pool.workers[worker]? = some w)
    : (pool.map outer).workers[worker]? = some (w.map outer) := by
  unfold map
  rw [List.getElem?_map, h]
  rfl

theorem map_progress (hrefines : job.Refines job' outer) {worker : Nat} {outcome : O}
    (h : pool.progress job worker outcome = some pool')
    : pool'.map outer = pool.map outer ∨
        ∃ outcome', (pool.map outer).progress job' worker outcome' = some (pool'.map outer) := by
  rcases progress_cases h with ⟨item, s, hworker, ⟨s', hmore, rfl⟩ | ⟨hfinished, rfl⟩⟩
  . have hmap := map_worker outer hworker
    rcases hrefines.more hmore with hsame | ⟨outcome', hmore'⟩
    . left
      have hworker' : Worker.map outer (.working item s') = Worker.map outer (.working item s) :=
        congrArg (Worker.working item) hsame
      rcases List.getElem?_eq_some_iff.mp hmap with ⟨hlt, hget⟩
      unfold map at hlt hget ⊢
      dsimp only at hlt hget ⊢
      rw [List.map_set, hworker', ← hget, List.set_getElem_self]
    . right
      refine ⟨outcome', ?_⟩
      unfold progress
      rw [hmap]
      simp [Worker.map, hmore', map, List.map_set]
  . right
    rcases hrefines.finished hfinished with ⟨outcome', hfinished'⟩
    refine ⟨outcome', ?_⟩
    unfold progress
    rw [map_worker outer hworker]
    simp [Worker.map, hfinished', map, List.map_set]

theorem map_step (hrefines : job.Refines job' outer) {e : Event O}
    (h : step job capacity pool e = some pool')
    : pool'.map outer = pool.map outer ∨
        ∃ e', step job' capacity (pool.map outer) e' = some (pool'.map outer) := by
  cases e with
  | put =>
    right
    rcases put_cases h with ⟨item, todo, htodo, hroom, rfl⟩
    refine ⟨.put, ?_⟩
    simp [step, put, map, htodo, hroom]
  | take worker =>
    right
    rcases take_cases h with ⟨item, queue, hworker, hqueue, rfl⟩
    refine ⟨.take worker, ?_⟩
    simp [step, take, map, hworker, hqueue, List.map_set, Worker.map, hrefines.start]
  | progress worker outcome =>
    rcases map_progress hrefines h with hsame | ⟨outcome', hprogress⟩
    . exact .inl hsame
    . exact .inr ⟨.progress worker outcome', hprogress⟩
  | rested worker =>
    right
    rcases rested_cases h with ⟨hworker, rfl⟩
    refine ⟨.rested worker, ?_⟩
    simp [step, rested, map, hworker, List.map_set, Worker.map]
  | joined =>
    right
    rcases joined_cases h with ⟨htodo, hzero, hopen, rfl⟩
    refine ⟨.joined, ?_⟩
    simp [step, joined, map, htodo, hzero, hopen]

theorem exec_map (hrefines : job.Refines job' outer) {es : List (Event O)}
    (h : Run.exec (step job capacity) pool es = some pool')
    : ∃ es', Run.exec (step job' capacity) (pool.map outer) es' = some (pool'.map outer) := by
  refine Run.exec_of_simulation ?_ h
  intro pool pool' e hstep
  rcases map_step hrefines hstep with hsame | ⟨e', hstep'⟩
  . exact ⟨[], congrArg some hsame.symm⟩
  . exact ⟨[e'], Run.exec_cons_eq_some.mpr ⟨_, hstep', rfl⟩⟩

end Refinement

end WorkerPool
