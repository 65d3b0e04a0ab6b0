import VoltykBot.Lib.Keyset
import VoltykBot.Lib.Run

/-!
This module contains `_run_broadcast`: it reads the active users page by page and sends the text to one after
the other, with retries, until the table is exhausted or the admin stops it. The table of the users and the
cancel event may change at any time.
-/

namespace BroadcastRun

def batchSize : Nat := 500

def progressEvery : Nat := 1000

structure User where
  id : Nat
  telegramId : Int
  isActive : Bool
  deriving DecidableEq, Repr

/--
The table `users`: `id` is the primary key, it counts from 1.
-/
structure Users where
  rows : List User
  ids_nodup : (rows.map User.id).Nodup
  ids_pos : ∀ row ∈ rows, 0 < row.id

def getActiveUserIdsCursor (users : Users) (limit afterId : Nat) : List User :=
  Keyset.page User.id User.isActive limit afterId users.rows

def Users.Active (users : Users) (id : Nat) : Prop :=
  ∃ user ∈ users.rows, user.id = id ∧ user.isActive = true

/--
How a call of `send_message` ends. A message may have `arrived` even though the call raised, as when the
connection breaks before the answer.
-/
inductive Answer where
  | delivered
  | forbidden
  | retryAfter (seconds : Nat)
  | raised (arrived : Bool)
  deriving DecidableEq, Repr

def Answer.arrivals (answer : Answer) (user : User) : List Nat :=
  match answer with
  | .delivered => [user.id]
  | .raised true => [user.id]
  | _ => []

inductive Counter where
  | sent
  | failed
  | blocked
  deriving DecidableEq, Repr

inductive UserPc where
  | acquiring
  | sending (attempt : Nat)
  | sleeping (attempt : Nat)
  | deactivating
  | reporting
  deriving DecidableEq, Repr

/--
`users` stands at the inner loop and `user` in its body; both have the page and what is left of it. `ended` is
behind the `try`, where the summary is sent.
-/
inductive Pc where
  | looping
  | reading
  | users (batch rest : List User)
  | user (batch rest : List User) (user : User) (pc : UserPc)
  | ended
  | returned
  deriving DecidableEq, Repr

/--
A run of `_run_broadcast`, with the table it reads and `_broadcast_cancel`. No step reads `attempted`, the users
the inner loop has come to, `counted`, the counter that was increased for each id, `arrived`, the ids for
each message that arrived, and `progress`, the value of `sent` in each progress message.
-/
structure Call where
  table : Users
  cancelled : Bool := false
  sent : Nat := 0
  failed : Nat := 0
  blocked : Nat := 0
  lastId : Nat := 0
  pc : Pc := .looping
  attempted : List User := []
  counted : List (Nat × Counter) := []
  arrived : List Nat := []
  progress : List Nat := []
  summary : Option (Bool × Nat × Nat × Nat) := none

/--
`deactivated`, `progressSent` and `summarySent` stand for any end of what they await, since exceptions are passed
over. `interrupted` is the cancellation of the task.
-/
inductive Event where
  | tableChanged (table : Users)
  | cancelSet
  | roundStarted
  | pageRead
  | pageFailed
  | userTaken
  | acquired
  | answered (answer : Answer)
  | slept
  | deactivated
  | progressSent
  | interrupted
  | summarySent

def Event.isRegular (e : Event) : Bool :=
  match e with
  | .pageFailed => false
  | .interrupted => false
  | _ => true

def Event.isOwn (e : Event) : Bool :=
  match e with
  | .tableChanged _ => false
  | .cancelSet => false
  | _ => true

def startCall (table : Users) : Call := { table }

def Due (sent : Nat) : Prop := 0 < sent ∧ sent % progressEvery = 0

instance (sent : Nat) : Decidable (Due sent) := inferInstanceAs (Decidable (_ ∧ _))

namespace Call

variable (maxRetries : Nat) (call : Call)

def bump (user : User) (counter : Counter) : Call :=
  let call := { call with counted := call.counted ++ [(user.id, counter)] }
  match counter with
  | .sent => { call with sent := call.sent + 1 }
  | .failed => { call with failed := call.failed + 1 }
  | .blocked => { call with blocked := call.blocked + 1 }

def afterAttempts (batch rest : List User) (user : User) : Call :=
  { call with pc := if Due call.sent then .user batch rest user .reporting else .users batch rest }

def roundStarted : Option Call :=
  match call.pc with
  | .looping => some { call with pc := if call.cancelled then .ended else .reading }
  | _ => none

def pageRead : Option Call :=
  match call.pc with
  | .reading =>
    let batch := getActiveUserIdsCursor call.table batchSize call.lastId
    some { call with pc := if batch = [] then .ended else .users batch batch }
  | _ => none

def pageFailed : Option Call :=
  match call.pc with
  | .reading => some { call with failed := call.failed + 1, pc := .ended }
  | _ => none

def userTaken : Option Call :=
  match call.pc with
  | .users batch rest =>
    match if call.cancelled then [] else rest with
    | user :: rest =>
      some { call with pc := .user batch rest user .acquiring, attempted := call.attempted ++ [user] }
    | [] => some { call with pc := .looping, lastId := batch.getLast?.elim call.lastId User.id }
  | _ => none

def acquired : Option Call :=
  match call.pc with
  | .user batch rest user .acquiring => some { call with pc := .user batch rest user (.sending 0) }
  | _ => none

def answered (answer : Answer) : Option Call :=
  match call.pc with
  | .user batch rest user (.sending attempt) =>
    let call := { call with arrived := call.arrived ++ answer.arrivals user }
    match answer with
    | .delivered => some ((call.bump user .sent).afterAttempts batch rest user)
    | .forbidden => some { call.bump user .blocked with pc := .user batch rest user .deactivating }
    | .retryAfter _ =>
      if maxRetries ≤ attempt then
        some ((call.bump user .failed).afterAttempts batch rest user)
      else
        some { call with pc := .user batch rest user (.sleeping attempt) }
    | .raised _ => some ((call.bump user .failed).afterAttempts batch rest user)
  | _ => none

def slept : Option Call :=
  match call.pc with
  | .user batch rest user (.sleeping attempt) =>
    if attempt + 1 < maxRetries + 1 then
      some { call with pc := .user batch rest user (.sending (attempt + 1)) }
    else
      -- the attempts are used up
      some (call.afterAttempts batch rest user)
  | _ => none

def deactivated : Option Call :=
  match call.pc with
  | .user batch rest user .deactivating => some (call.afterAttempts batch rest user)
  | _ => none

def progressSent : Option Call :=
  match call.pc with
  | .user batch rest _ .reporting =>
    some { call with pc := .users batch rest, progress := call.progress ++ [call.sent] }
  | _ => none

def interrupted : Option Call :=
  match call.pc with
  | .reading => some { call with pc := .ended }
  | .user _ _ _ _ => some { call with pc := .ended }
  | _ => none

def summarySent : Option Call :=
  match call.pc with
  | .ended =>
    some { call with pc := .returned, summary := some (call.cancelled, call.sent, call.failed, call.blocked) }
  | _ => none

def step (e : Event) : Option Call :=
  match e with
  | .tableChanged table => some { call with table }
  | .cancelSet => some { call with cancelled := true }
  | .roundStarted => call.roundStarted
  | .pageRead => call.pageRead
  | .pageFailed => call.pageFailed
  | .userTaken => call.userTaken
  | .acquired => call.acquired
  | .answered answer => call.answered maxRetries answer
  | .slept => call.slept maxRetries
  | .deactivated => call.deactivated
  | .progressSent => call.progressSent
  | .interrupted => call.interrupted
  | .summarySent => call.summarySent

end Call

/-! ## What a step can do -/

def UserPc.isAttempting (pc : UserPc) : Bool :=
  match pc with
  | .acquiring => true
  | .sending _ => true
  | .sleeping _ => true
  | _ => false

def UserPc.stepsLeft (maxRetries : Nat) (pc : UserPc) : Nat :=
  match pc with
  | .acquiring => 2 * maxRetries + 4
  | .sending attempt => 2 * (maxRetries - attempt) + 3
  | .sleeping attempt => 2 * (maxRetries - attempt) + 2
  | .deactivating => 2
  | .reporting => 1

def Pc.current (pc : Pc) : List User :=
  match pc with
  | .user _ _ taken pc => if pc.isAttempting then [taken] else []
  | _ => []

def Pc.page (pc : Pc) : Option (List User × List User) :=
  match pc with
  | .users batch rest => some (batch, rest)
  | .user batch rest _ _ => some (batch, rest)
  | _ => none

def Pc.isOver (pc : Pc) : Bool :=
  match pc with
  | .ended => true
  | .returned => true
  | _ => false

namespace Call

abbrev nextBatch (call : Call) : List User := getActiveUserIdsCursor call.table batchSize call.lastId

def RetriesLeft (maxRetries : Nat) (call : Call) : Prop :=
  ∀ batch rest user attempt, call.pc = .user batch rest user (.sleeping attempt) → attempt < maxRetries

inductive Moves (maxRetries : Nat) (call : Call) : Bool → Call → Prop where
  | environment {table : Users} {cancelled : Bool} (hmono : call.cancelled = true → cancelled = true)
    : Moves maxRetries call false { call with table, cancelled }
  | roundStarted (hpc : call.pc = .looping) : Moves maxRetries call true { call with pc := .reading }
  | stopped (hpc : call.pc = .looping) (hcancel : call.cancelled = true)
    : Moves maxRetries call true { call with pc := .ended }
  | exhausted (hpc : call.pc = .reading) (hbatch : call.nextBatch = [])
    : Moves maxRetries call true { call with pc := .ended }
  | pageRead (hpc : call.pc = .reading) (hbatch : call.nextBatch ≠ [])
    : Moves maxRetries call true { call with pc := .users call.nextBatch call.nextBatch }
  | userTaken {batch rest : List User} {user : User} (hpc : call.pc = .users batch (user :: rest))
    : Moves maxRetries call true
        { call with pc := .user batch rest user .acquiring, attempted := call.attempted ++ [user] }
  | batchDone {batch rest : List User} (hpc : call.pc = .users batch rest)
      (hrest : call.cancelled = false → rest = [])
    : Moves maxRetries call true { call with pc := .looping, lastId := batch.getLast?.elim call.lastId User.id }
  | waited {batch rest : List User} {user : User} {pc pc' : UserPc} (hpc : call.pc = .user batch rest user pc)
      (hattempting : pc.isAttempting = true) (hattempting' : pc'.isAttempting = true)
      (hleft : ∀ attempt, pc' = .sleeping attempt → attempt < maxRetries)
      (hless : pc'.stepsLeft maxRetries < pc.stepsLeft maxRetries)
    : Moves maxRetries call true { call with pc := .user batch rest user pc' }
  | counted {batch rest : List User} {user : User} {attempt : Nat} {ids : List Nat} (counter : Counter)
      (hpc : call.pc = .user batch rest user (.sending attempt)) (hids : ids.Sublist [user.id])
    : Moves maxRetries call true
        (({ call with arrived := call.arrived ++ ids }.bump user counter).afterAttempts batch rest user)
  | blocked {batch rest : List User} {user : User} {attempt : Nat}
      (hpc : call.pc = .user batch rest user (.sending attempt))
    : Moves maxRetries call true { call.bump user .blocked with pc := .user batch rest user .deactivating }
  | deactivated {batch rest : List User} {user : User} (hpc : call.pc = .user batch rest user .deactivating)
    : Moves maxRetries call true (call.afterAttempts batch rest user)
  | progressSent {batch rest : List User} {user : User} (hpc : call.pc = .user batch rest user .reporting)
    : Moves maxRetries call true { call with pc := .users batch rest, progress := call.progress ++ [call.sent] }
  | summarySent (hpc : call.pc = .ended) {summary : Option (Bool × Nat × Nat × Nat)}
    : Moves maxRetries call true { call with pc := .returned, summary }

theorem bump_eq (call : Call) (user : User) (counter : Counter)
    : call.bump user counter
        =
      { call with
        counted := call.counted ++ [(user.id, counter)]
        sent := call.sent + [counter].count .sent
        failed := call.failed + [counter].count .failed
        blocked := call.blocked + [counter].count .blocked } := by
  cases counter with
  | sent => rfl
  | failed => rfl
  | blocked => rfl

section Steps

variable {maxRetries : Nat} {call call' : Call} {own : Bool}

theorem moves_userTaken (h : call.userTaken = some call') : Moves maxRetries call true call' := by
  unfold userTaken at h
  split at h
  . next batch rest hpc =>
    split at h
    . next user rest' htaken =>
      split at htaken
      . cases htaken
      . cases htaken
        cases h
        exact .userTaken hpc
    . next hnone =>
      cases h
      apply Moves.batchDone hpc
      intro hcancel
      rwa [hcancel, if_neg Bool.false_ne_true] at hnone
  . cases h

theorem moves_answered {answer : Answer} (h : call.answered maxRetries answer = some call')
    : Moves maxRetries call true call' := by
  unfold answered at h
  split at h
  . next batch rest user attempt hpc =>
    have hids : (answer.arrivals user).Sublist [user.id] := by
      unfold Answer.arrivals
      split
      . exact List.Sublist.refl _
      . exact List.Sublist.refl _
      . exact List.nil_sublist _
    -- what has not arrived leaves the call as it is
    have hsame : { call with arrived := call.arrived ++ [] } = call := by
      rw [List.append_nil]
    cases answer with
    | delivered =>
      cases h
      exact .counted .sent hpc hids
    | forbidden =>
      have hblocked : some { ({ call with arrived := call.arrived ++ [] } : Call).bump user .blocked with
          pc := .user batch rest user .deactivating } = some call' := h
      rw [hsame] at hblocked
      cases hblocked
      exact .blocked hpc
    | retryAfter seconds =>
      dsimp only at h
      split at h
      . cases h
        exact .counted .failed hpc hids
      . have hsleeps : some { ({ call with arrived := call.arrived ++ [] } : Call) with
            pc := .user batch rest user (.sleeping attempt) } = some call' := h
        rw [hsame] at hsleeps
        cases hsleeps
        refine .waited hpc rfl rfl ?_ ?_
        . rintro attempt' ⟨⟩
          omega
        . exact Nat.lt_succ_self _
    | raised arrived =>
      cases h
      exact .counted .failed hpc hids
  . cases h

theorem moves_of_step {e : Event} (hregular : e.isRegular = true) (hretries : call.RetriesLeft maxRetries)
    (h : call.step maxRetries e = some call') : Moves maxRetries call e.isOwn call' := by
  cases e with
  | tableChanged table =>
    cases h
    exact .environment fun hcancel => hcancel
  | cancelSet =>
    cases h
    have hmono : call.cancelled = true → true = true := fun _ => rfl
    exact @Moves.environment maxRetries call call.table true hmono
  | roundStarted =>
    change call.roundStarted = some call' at h
    unfold roundStarted at h
    split at h
    . next hpc =>
      cases h
      by_cases hcancel : call.cancelled = true
      . rw [if_pos hcancel]
        exact .stopped hpc hcancel
      . rw [if_neg hcancel]
        exact .roundStarted hpc
    . cases h
  | pageRead =>
    change call.pageRead = some call' at h
    unfold pageRead at h
    split at h
    . next hpc =>
      cases h
      by_cases hbatch : call.nextBatch = []
      . rw [if_pos hbatch]
        exact .exhausted hpc hbatch
      . rw [if_neg hbatch]
        exact .pageRead hpc hbatch
    . cases h
  | pageFailed => cases hregular
  | userTaken => exact moves_userTaken h
  | acquired =>
    change call.acquired = some call' at h
    unfold acquired at h
    split at h
    . next hpc =>
      cases h
      exact .waited hpc rfl rfl nofun (Nat.lt_succ_self _)
    . cases h
  | answered answer => exact moves_answered h
  | slept =>
    change call.slept maxRetries = some call' at h
    unfold slept at h
    split at h
    . next batch rest user attempt hpc =>
      have hleft := hretries batch rest user attempt hpc
      rw [if_pos (Nat.succ_lt_succ hleft)] at h
      cases h
      refine .waited hpc rfl rfl nofun ?_
      dsimp only [UserPc.stepsLeft]
      omega
    . cases h
  | deactivated =>
    change call.deactivated = some call' at h
    unfold deactivated at h
    split at h
    . next hpc =>
      cases h
      exact .deactivated hpc
    . cases h
  | progressSent =>
    change call.progressSent = some call' at h
    unfold progressSent at h
    split at h
    . next hpc =>
      cases h
      exact .progressSent hpc
    . cases h
  | interrupted => cases hregular
  | summarySent =>
    change call.summarySent = some call' at h
    unfold summarySent at h
    split at h
    . next hpc =>
      cases h
      exact .summarySent hpc
    . cases h

theorem afterAttempts_pc (call : Call) (batch rest : List User) (user : User)
    : (call.afterAttempts batch rest user).pc = .user batch rest user .reporting
        ∨
      (call.afterAttempts batch rest user).pc = .users batch rest := by
  unfold afterAttempts
  dsimp only
  split
  . exact Or.inl rfl
  . exact Or.inr rfl

theorem afterAttempts_page (call : Call) (batch rest : List User) (user : User)
    : (call.afterAttempts batch rest user).pc.page = some (batch, rest) := by
  rcases afterAttempts_pc call batch rest user with hpc | hpc
  . rw [hpc]
    rfl
  . rw [hpc]
    rfl

theorem afterAttempts_isOver (call : Call) (batch rest : List User) (user : User)
    : (call.afterAttempts batch rest user).pc.isOver = false := by
  rcases afterAttempts_pc call batch rest user with hpc | hpc
  . rw [hpc]
    rfl
  . rw [hpc]
    rfl

theorem RetriesLeft.of_pc (h : ∀ batch rest user attempt, call.pc ≠ .user batch rest user (.sleeping attempt))
    : call.RetriesLeft maxRetries := by
  intro batch rest user attempt hpc
  exact absurd hpc (h batch rest user attempt)

theorem RetriesLeft.moves (hretries : call.RetriesLeft maxRetries) (h : Moves maxRetries call own call')
    : call'.RetriesLeft maxRetries := by
  have hafter (call : Call) (batch rest : List User) (user : User)
      : (call.afterAttempts batch rest user).RetriesLeft maxRetries := by
    apply RetriesLeft.of_pc
    intro batch' rest' user' attempt
    rcases afterAttempts_pc call batch rest user with hpc | hpc
    . rw [hpc]
      exact nofun
    . rw [hpc]
      exact nofun
  cases h with
  | environment hmono => exact hretries
  | waited hpc hattempting hattempting' hleft hless =>
    intro batch rest user attempt hpc'
    cases hpc'
    exact hleft attempt rfl
  | counted counter hpc hids => exact hafter _ _ _ _
  | deactivated hpc => exact hafter _ _ _ _
  | _ => exact RetriesLeft.of_pc nofun

end Steps

/-! ## Accounts -/

structure Books (call : Call) : Prop where
  accounted : call.attempted.map User.id = call.counted.map Prod.fst ++ call.pc.current.map User.id
  sent : call.sent = (call.counted.map Prod.snd).count .sent
  failed : call.failed = (call.counted.map Prod.snd).count .failed
  blocked : call.blocked = (call.counted.map Prod.snd).count .blocked
  arrived : call.arrived.Sublist (call.counted.map Prod.fst)

section Books

variable {maxRetries : Nat} {call call' : Call} {own : Bool}

theorem Books.of_pc (h : Books call) {pc : Pc} (hpc : pc.current = call.pc.current)
    : Books { call with pc := pc } :=
  ⟨hpc ▸ h.accounted, h.sent, h.failed, h.blocked, h.arrived⟩

theorem Books.afterAttempts (h : Books call) (hcurrent : call.pc.current = []) (batch rest : List User)
    (user : User) : Books (call.afterAttempts batch rest user) := by
  apply h.of_pc
  rw [hcurrent]
  split
  . rfl
  . rfl

theorem Books.bump (h : Books call) {batch rest : List User} {user : User} {attempt : Nat} {ids : List Nat}
    (hpc : call.pc = .user batch rest user (.sending attempt)) (hids : ids.Sublist [user.id]) (counter : Counter)
    {pc : Pc} (hcurrent : pc.current = [])
    : Books { ({ call with arrived := call.arrived ++ ids } : Call).bump user counter with pc := pc } := by
  have haccounted := h.accounted
  rw [hpc] at haccounted
  rw [bump_eq]
  constructor
  . dsimp only
    rw [hcurrent, haccounted, List.map_append, List.append_assoc]
    rfl
  . dsimp only
    rw [List.map_append, List.count_append, h.sent]
    rfl
  . dsimp only
    rw [List.map_append, List.count_append, h.failed]
    rfl
  . dsimp only
    rw [List.map_append, List.count_append, h.blocked]
    rfl
  . dsimp only
    rw [List.map_append]
    exact h.arrived.append hids

theorem Books.moves (h : Books call) (hmoves : Moves maxRetries call own call') : Books call' := by
  cases hmoves with
  | environment hmono => exact ⟨h.accounted, h.sent, h.failed, h.blocked, h.arrived⟩
  | roundStarted hpc => exact h.of_pc (by rw [hpc]; rfl)
  | stopped hpc hcancel => exact h.of_pc (by rw [hpc]; rfl)
  | exhausted hpc hbatch => exact h.of_pc (by rw [hpc]; rfl)
  | pageRead hpc hbatch => exact h.of_pc (by rw [hpc]; rfl)
  | userTaken hpc =>
    have haccounted := h.accounted
    rw [hpc] at haccounted
    refine ⟨?_, h.sent, h.failed, h.blocked, h.arrived⟩
    dsimp only
    rw [List.map_append, haccounted, List.append_assoc]
    rfl
  | batchDone hpc hrest =>
    have haccounted := h.accounted
    rw [hpc] at haccounted
    exact ⟨haccounted, h.sent, h.failed, h.blocked, h.arrived⟩
  | waited hpc hattempting hattempting' hleft hless =>
    apply h.of_pc
    rw [hpc]
    unfold Pc.current
    dsimp only
    rw [if_pos hattempting, if_pos hattempting']
  | @counted batch rest user attempt ids counter hpc hids =>
    have hcurrent : (Pc.users batch rest).current = [] := rfl
    exact (h.bump hpc hids counter hcurrent).afterAttempts hcurrent batch rest user
  | @blocked batch rest user attempt hpc =>
    have hcurrent : (Pc.user batch rest user .deactivating).current = [] := rfl
    have hbooks := h.bump hpc (List.nil_sublist _) .blocked hcurrent
    rw [List.append_nil] at hbooks
    exact hbooks
  | deactivated hpc => exact h.afterAttempts (by rw [hpc]; rfl) _ _ _
  | progressSent hpc =>
    have haccounted := h.accounted
    rw [hpc] at haccounted
    exact ⟨haccounted, h.sent, h.failed, h.blocked, h.arrived⟩
  | summarySent hpc =>
    have haccounted := h.accounted
    rw [hpc] at haccounted
    exact ⟨haccounted, h.sent, h.failed, h.blocked, h.arrived⟩

end Books

/-! ## The place in the table -/

structure SamePlace (call call' : Call) : Prop where
  cancelled : call'.cancelled = false → call.cancelled = false
  attempted : call'.attempted = call.attempted
  lastId : call'.lastId = call.lastId
  page : call'.pc.page = call.pc.page
  isOver : call'.pc.isOver = call.pc.isOver

inductive Turns (call : Call) : Call → Prop where
  | same {call' : Call} (hsame : SamePlace call call') : Turns call call'
  | stopped (hcancel : call.cancelled = true) : Turns call { call with pc := .ended }
  | exhausted (hpc : call.pc = .reading) (hbatch : call.nextBatch = []) : Turns call { call with pc := .ended }
  | pageRead (hpc : call.pc = .reading) : Turns call { call with pc := .users call.nextBatch call.nextBatch }
  | userTaken {batch rest : List User} {user : User} (hpage : call.pc.page = some (batch, user :: rest))
    : Turns call { call with pc := .user batch rest user .acquiring, attempted := call.attempted ++ [user] }
  | batchDone {batch rest : List User} (hpage : call.pc.page = some (batch, rest))
      (hrest : call.cancelled = false → rest = [])
    : Turns call { call with pc := .looping, lastId := batch.getLast?.elim call.lastId User.id }

section Turns

variable {maxRetries : Nat} {call call' : Call} {own : Bool}

theorem SamePlace.of_pc {pc : Pc} (hpage : pc.page = call.pc.page) (hover : pc.isOver = call.pc.isOver)
    : SamePlace call { call with pc := pc } :=
  ⟨fun hcancel => hcancel, rfl, rfl, hpage, hover⟩

theorem SamePlace.bump (h : SamePlace call call') (user : User) (counter : Counter)
    : SamePlace call (call'.bump user counter) := by
  rw [bump_eq]
  exact ⟨h.cancelled, h.attempted, h.lastId, h.page, h.isOver⟩

theorem SamePlace.afterAttempts (h : SamePlace call call') {batch rest : List User}
    (hpage : call.pc.page = some (batch, rest)) (hover : call.pc.isOver = false) (user : User)
    : SamePlace call (call'.afterAttempts batch rest user) := by
  refine ⟨h.cancelled, h.attempted, h.lastId, ?_, ?_⟩
  . rw [hpage, afterAttempts_page]
  . rw [hover, afterAttempts_isOver]

theorem turns_of_moves (h : Moves maxRetries call own call') : Turns call call' := by
  cases h with
  | environment hmono =>
    refine .same ⟨?_, rfl, rfl, rfl, rfl⟩
    intro hcancel
    rw [← Bool.not_eq_true] at hcancel ⊢
    exact fun hset => hcancel (hmono hset)
  | roundStarted hpc => exact .same (.of_pc (by rw [hpc]; rfl) (by rw [hpc]; rfl))
  | stopped hpc hcancel => exact .stopped hcancel
  | exhausted hpc hbatch => exact .exhausted hpc hbatch
  | pageRead hpc hbatch => exact .pageRead hpc
  | userTaken hpc => exact .userTaken (by rw [hpc]; rfl)
  | batchDone hpc hrest => exact .batchDone (by rw [hpc]; rfl) hrest
  | waited hpc hattempting hattempting' hleft hless =>
    exact .same (.of_pc (by rw [hpc]; rfl) (by rw [hpc]; rfl))
  | @counted batch rest user attempt ids counter hpc hids =>
    have harrived : SamePlace call { call with arrived := call.arrived ++ ids } :=
      ⟨fun hcancel => hcancel, rfl, rfl, rfl, rfl⟩
    exact .same ((harrived.bump user counter).afterAttempts (by rw [hpc]; rfl) (by rw [hpc]; rfl) user)
  | blocked hpc =>
    rw [bump_eq]
    refine .same ⟨fun hcancel => hcancel, rfl, rfl, ?_, ?_⟩
    . rw [hpc]
      rfl
    . rw [hpc]
      rfl
  | deactivated hpc =>
    have hsame : SamePlace call call := .of_pc rfl rfl
    exact .same (hsame.afterAttempts (by rw [hpc]; rfl) (by rw [hpc]; rfl) _)
  | progressSent hpc =>
    refine .same ⟨fun hcancel => hcancel, rfl, rfl, ?_, ?_⟩
    . rw [hpc]
      rfl
    . rw [hpc]
      rfl
  | summarySent hpc =>
    refine .same ⟨fun hcancel => hcancel, rfl, rfl, ?_, ?_⟩
    . rw [hpc]
      rfl
    . rw [hpc]
      rfl

end Turns

/-! ## Pages -/

/--
A page of which `rest` is left: the users before it are up to the cursor, its own are beyond it.
-/
structure PageSound (attempted : List User) (lastId : Nat) (batch rest : List User) : Prop where
  sorted : batch.Pairwise fun user user' => user.id < user'.id
  le_last : ∀ last, batch.getLast? = some last → ∀ user ∈ batch, user.id ≤ last.id
  beyond : ∀ user ∈ batch, lastId < user.id
  taken : ∃ before front, attempted = before ++ front ∧ batch = front ++ rest ∧
    ∀ user ∈ before, user.id ≤ lastId

structure Pages (call : Call) : Prop where
  nodup : (call.attempted.map User.id).Nodup
  cursor : call.pc.page = none → call.pc.isOver = false → ∀ user ∈ call.attempted, user.id ≤ call.lastId
  page : ∀ batch rest, call.pc.page = some (batch, rest) → PageSound call.attempted call.lastId batch rest

section Pages

variable {call call' : Call}

theorem Pages.of_same (h : Pages call) (hsame : SamePlace call call') : Pages call' := by
  constructor
  . rw [hsame.attempted]
    exact h.nodup
  . rw [hsame.attempted, hsame.lastId, hsame.page, hsame.isOver]
    exact h.cursor
  . rw [hsame.attempted, hsame.lastId, hsame.page]
    exact h.page

theorem Pages.over (h : Pages call) {pc : Pc} (hpage : pc.page = none) (hover : pc.isOver = true)
    : Pages { call with pc := pc } := by
  refine ⟨h.nodup, ?_, ?_⟩
  . intro _ hnot
    rw [hover] at hnot
    cases hnot
  . intro batch rest hsome
    rw [hpage] at hsome
    cases hsome

theorem pageSound_nextBatch (h : ∀ user ∈ call.attempted, user.id ≤ call.lastId)
    : PageSound call.attempted call.lastId call.nextBatch call.nextBatch := by
  constructor
  . apply Keyset.page_pairwise call.table.ids_nodup
  . intro last hlast user huser
    exact Keyset.key_le_last call.table.ids_nodup huser hlast
  . exact fun user huser => (Keyset.mem_of_mem_page huser).2.2
  . exact ⟨call.attempted, [], (List.append_nil _).symm, rfl, h⟩

theorem PageSound.take {attempted batch rest : List User} {lastId : Nat} {user : User}
    (h : PageSound attempted lastId batch (user :: rest))
    : (∀ other ∈ attempted, other.id < user.id) ∧ PageSound (attempted ++ [user]) lastId batch rest := by
  obtain ⟨before, front, hattempted, hbatch, hbefore⟩ := h.taken
  have huser : user ∈ batch := by
    rw [hbatch]
    simp
  refine ⟨?_, h.sorted, h.le_last, h.beyond, before, front ++ [user], ?_, ?_, hbefore⟩
  . intro other hother
    rw [hattempted] at hother
    rcases List.mem_append.mp hother with hold | hfront
    . exact Nat.lt_of_le_of_lt (hbefore other hold) (h.beyond user huser)
    . have hsorted := h.sorted
      rw [hbatch, List.pairwise_append] at hsorted
      exact hsorted.2.2 other hfront user List.mem_cons_self
  . rw [hattempted, List.append_assoc]
  . rw [hbatch, List.append_assoc, List.singleton_append]

theorem PageSound.le_cursor {attempted batch rest : List User} {lastId : Nat}
    (h : PageSound attempted lastId batch rest)
    : ∀ user ∈ attempted, user.id ≤ batch.getLast?.elim lastId User.id := by
  obtain ⟨before, front, rfl, hbatch, hbefore⟩ := h.taken
  intro user huser
  cases hlast : batch.getLast? with
  | none =>
    rw [List.getLast?_eq_none_iff.mp hlast] at hbatch
    rw [(List.append_eq_nil_iff.mp hbatch.symm).1, List.append_nil] at huser
    exact hbefore user huser
  | some last =>
    have hbeyond := h.beyond last (List.mem_of_getLast? hlast)
    rcases List.mem_append.mp huser with hold | hfront
    . exact Nat.le_trans (hbefore user hold) (Nat.le_of_lt hbeyond)
    . apply h.le_last last hlast
      rw [hbatch]
      exact List.mem_append_left rest hfront

theorem Pages.turns (h : Pages call) (hturns : Turns call call') : Pages call' := by
  cases hturns with
  | same hsame => exact h.of_same hsame
  | stopped hcancel => exact h.over rfl rfl
  | exhausted hpc hbatch => exact h.over rfl rfl
  | pageRead hpc =>
    refine ⟨h.nodup, nofun, ?_⟩
    rintro batch rest ⟨⟩
    apply pageSound_nextBatch
    apply h.cursor
    . rw [hpc]
      rfl
    . rw [hpc]
      rfl
  | @userTaken batch rest user hpage =>
    rcases (h.page batch (user :: rest) hpage).take with ⟨hlt, htaken⟩
    refine ⟨?_, nofun, ?_⟩
    . dsimp only
      rw [List.map_append, List.nodup_append]
      refine ⟨h.nodup, List.nodup_singleton _, ?_⟩
      intro id hid id' hid'
      rcases List.mem_map.mp hid with ⟨other, hother, rfl⟩
      rw [List.mem_singleton.mp hid']
      exact Nat.ne_of_lt (hlt other hother)
    . rintro batch' rest' ⟨⟩
      exact htaken
  | @batchDone batch rest hpage hrest =>
    refine ⟨h.nodup, ?_, nofun⟩
    intro _ _
    exact (h.page batch rest hpage).le_cursor

end Pages

/-! ## Active users -/

/--
Unless the admin stops the run, `id` has been taken when the cursor is past it, and when the run is over.
-/
def Covers (id : Nat) (call : Call) : Prop :=
  call.cancelled = false →
    match call.pc.page with
    | some (batch, rest) =>
      id ≤ batch.getLast?.elim call.lastId User.id →
        id ∈ call.attempted.map User.id ∨ id ∈ rest.map User.id
    | none => (call.pc.isOver = false → id ≤ call.lastId) → id ∈ call.attempted.map User.id

section Covers

variable {call call' : Call} {id : Nat}

theorem covers_of_page {batch rest : List User} (hpage : call.pc.page = some (batch, rest))
    : Covers id call ↔ (call.cancelled = false → id ≤ batch.getLast?.elim call.lastId User.id →
        id ∈ call.attempted.map User.id ∨ id ∈ rest.map User.id) := by
  unfold Covers
  rw [hpage]

theorem covers_of_none (hpage : call.pc.page = none)
    : Covers id call ↔ (call.cancelled = false → (call.pc.isOver = false → id ≤ call.lastId) →
        id ∈ call.attempted.map User.id) := by
  unfold Covers
  rw [hpage]

theorem Covers.of_same (h : Covers id call) (hsame : SamePlace call call') : Covers id call' := by
  intro hcancel
  rw [hsame.attempted, hsame.lastId, hsame.page, hsame.isOver]
  exact h (hsame.cancelled hcancel)

theorem mem_nextBatch (hactive : call.table.Active id) (hbeyond : call.lastId < id)
    (hlast : id ≤ call.nextBatch.getLast?.elim id User.id) : id ∈ call.nextBatch.map User.id := by
  obtain ⟨user, huser, rfl, hselected⟩ := hactive
  apply List.mem_map_of_mem
  cases hend : call.nextBatch.getLast? with
  | none =>
    apply Keyset.mem_page_of_short call.table.ids_nodup huser hselected hbeyond
    change call.nextBatch.length < batchSize
    rw [List.getLast?_eq_none_iff.mp hend]
    decide
  | some last =>
    rw [hend] at hlast
    exact Keyset.mem_page_of_le_last call.table.ids_nodup huser hselected hbeyond hend hlast

theorem Covers.turns (h : Covers id call) (hactive : call.table.Active id) (hturns : Turns call call')
    : Covers id call' := by
  cases hturns with
  | same hsame => exact h.of_same hsame
  | stopped hcancel =>
    intro hnot
    dsimp only at hnot
    rw [hcancel] at hnot
    cases hnot
  | exhausted hpc hbatch =>
    intro hcancel _
    rw [covers_of_none (by rw [hpc]; rfl)] at h
    apply h hcancel
    intro _
    by_contra hbeyond
    have hmem := mem_nextBatch hactive (Nat.lt_of_not_le hbeyond)
    rw [hbatch] at hmem
    cases hmem (Nat.le_refl _)
  | pageRead hpc =>
    rw [covers_of_none (by rw [hpc]; rfl)] at h
    rw [covers_of_page rfl]
    intro hcancel hlast
    by_cases hbeyond : call.lastId < id
    . right
      apply mem_nextBatch hactive hbeyond
      cases hend : call.nextBatch.getLast? with
      | none => exact Nat.le_refl _
      | some last =>
        rw [hend] at hlast
        exact hlast
    . exact Or.inl (h hcancel fun _ => Nat.le_of_not_lt hbeyond)
  | @userTaken batch rest user hpage =>
    rw [covers_of_page hpage] at h
    rw [covers_of_page rfl]
    intro hcancel hlast
    dsimp only
    rw [List.map_append, List.mem_append]
    rcases h hcancel hlast with hold | hmem
    . exact Or.inl (Or.inl hold)
    . rw [List.map_cons, List.mem_cons] at hmem
      rcases hmem with huser | hrest
      . exact Or.inl (Or.inr (List.mem_singleton.mpr huser))
      . exact Or.inr hrest
  | @batchDone batch rest hpage hrest =>
    rw [covers_of_page hpage] at h
    rw [covers_of_none rfl]
    intro hcancel hlast
    rcases h hcancel (hlast rfl) with hold | hmem
    . exact hold
    . rw [hrest hcancel] at hmem
      cases hmem

theorem mem_attempted_of_covers (h : Covers id call) (hover : call.pc.isOver = true)
    (hcancel : call.cancelled = false) : id ∈ call.attempted.map User.id := by
  have hpage : call.pc.page = none := by
    cases hpc : call.pc with
    | ended => rfl
    | returned => rfl
    | _ =>
      rw [hpc] at hover
      cases hover
  rw [covers_of_none hpage] at h
  apply h hcancel
  intro hnot
  rw [hover] at hnot
  cases hnot

end Covers

/-! ## Rows -/

structure Rows (P : User → Prop) (call : Call) : Prop where
  attempted : ∀ user ∈ call.attempted, P user
  rest : ∀ batch rest, call.pc.page = some (batch, rest) → ∀ user ∈ rest, P user

section Rows

variable {call call' : Call} {P : User → Prop}

theorem Rows.of_same (h : Rows P call) (hsame : SamePlace call call') : Rows P call' :=
  ⟨hsame.attempted ▸ h.attempted, hsame.page ▸ h.rest⟩

theorem Rows.turns (h : Rows P call) (htable : ∀ row ∈ call.table.rows, P row) (hturns : Turns call call')
    : Rows P call' := by
  cases hturns with
  | same hsame => exact h.of_same hsame
  | pageRead hpc =>
    refine ⟨h.attempted, ?_⟩
    rintro batch rest ⟨⟩ user huser
    exact htable user (Keyset.mem_of_mem_page huser).1
  | @userTaken batch rest user hpage =>
    have huser := h.rest batch (user :: rest) hpage
    rw [List.forall_mem_cons] at huser
    constructor
    . intro other hother
      rcases List.mem_append.mp hother with hold | hnew
      . exact h.attempted other hold
      . rw [List.mem_singleton.mp hnew]
        exact huser.1
    . rintro batch' rest' ⟨⟩
      exact huser.2
  | _ => exact ⟨h.attempted, nofun⟩

end Rows

/-! ## The end of a run -/

def stepsPerUser (maxRetries : Nat) : Nat := 2 * maxRetries + 5

def stepsPerPage (maxRetries : Nat) : Nat := batchSize * stepsPerUser maxRetries + 3

def stepsLeft (maxRetries bound : Nat) (call : Call) : Nat :=
  let rounds (lastId : Nat) : Nat := (bound - lastId) * stepsPerPage maxRetries
  match call.pc with
  | .looping => rounds call.lastId + 3
  | .reading => rounds call.lastId + 2
  | .users batch rest =>
    rest.length * stepsPerUser maxRetries + 1 + (rounds (batch.getLast?.elim call.lastId User.id) + 3)
  | .user batch rest _ pc =>
    pc.stepsLeft maxRetries + rest.length * stepsPerUser maxRetries + 1 +
      (rounds (batch.getLast?.elim call.lastId User.id) + 3)
  | .ended => 1
  | .returned => 0

section Termination

variable {maxRetries bound : Nat} {call call' : Call} {own : Bool}

theorem stepsLeft_afterAttempts (call : Call) (batch rest : List User) (user : User)
    : stepsLeft maxRetries bound (call.afterAttempts batch rest user) ≤
        rest.length * stepsPerUser maxRetries + 2 +
          ((bound - batch.getLast?.elim call.lastId User.id) * stepsPerPage maxRetries + 3) := by
  unfold stepsLeft
  dsimp only
  rcases afterAttempts_pc call batch rest user with hpc | hpc
  . rw [hpc]
    dsimp only [UserPc.stepsLeft, afterAttempts]
    omega
  . rw [hpc]
    dsimp only [afterAttempts]
    omega

theorem stepsLeft_moves (hbound : ∀ row ∈ call.table.rows, row.id ≤ bound)
    (hmoves : Moves maxRetries call own call')
    : stepsLeft maxRetries bound call' + (if own then 1 else 0) ≤ stepsLeft maxRetries bound call := by
  cases hmoves with
  | environment hmono => exact Nat.le_refl _
  | roundStarted hpc =>
    unfold stepsLeft
    rw [hpc]
    dsimp only
    rw [if_pos rfl]
  | stopped hpc hcancel =>
    unfold stepsLeft
    rw [hpc]
    dsimp only
    rw [if_pos rfl]
    omega
  | exhausted hpc hbatch =>
    unfold stepsLeft
    rw [hpc]
    dsimp only
    rw [if_pos rfl]
    omega
  | pageRead hpc hbatch =>
    have hlast := List.getLast?_eq_some_getLast hbatch
    have hmem := Keyset.mem_of_mem_page (List.getLast_mem hbatch)
    have hle := hbound _ hmem.1
    have hlength : call.nextBatch.length * stepsPerUser maxRetries ≤ batchSize * stepsPerUser maxRetries :=
      Nat.mul_le_mul_right _ (Keyset.length_page_le)
    -- the cursor moves on by one at least
    have hrounds := Nat.mul_le_mul_right (stepsPerPage maxRetries)
      (show bound - (call.nextBatch.getLast hbatch).id + 1 ≤ bound - call.lastId by omega)
    rw [Nat.add_mul, Nat.one_mul] at hrounds
    unfold stepsLeft
    rw [hpc]
    dsimp only
    rw [hlast, if_pos rfl]
    dsimp only [Option.elim]
    unfold stepsPerPage at hrounds ⊢
    omega
  | @userTaken batch rest user hpc =>
    unfold stepsLeft
    rw [hpc]
    dsimp only [UserPc.stepsLeft]
    rw [List.length_cons, Nat.add_one_mul rest.length, if_pos rfl]
    unfold stepsPerUser
    omega
  | batchDone hpc hrest =>
    unfold stepsLeft
    rw [hpc]
    dsimp only
    rw [if_pos rfl]
    omega
  | waited hpc hattempting hattempting' hleft hless =>
    unfold stepsLeft
    rw [hpc]
    dsimp only
    rw [if_pos rfl]
    omega
  | @counted batch rest user attempt ids counter hpc hids =>
    rw [bump_eq, if_pos rfl]
    refine Nat.le_trans (Nat.succ_le_succ (stepsLeft_afterAttempts _ batch rest user)) ?_
    unfold stepsLeft
    rw [hpc]
    dsimp only [UserPc.stepsLeft]
    omega
  | blocked hpc =>
    rw [bump_eq]
    unfold stepsLeft
    rw [hpc]
    dsimp only [UserPc.stepsLeft]
    rw [if_pos rfl]
    omega
  | deactivated hpc =>
    rw [if_pos rfl]
    refine Nat.le_trans (Nat.succ_le_succ (stepsLeft_afterAttempts _ _ _ _)) ?_
    unfold stepsLeft
    rw [hpc]
    dsimp only [UserPc.stepsLeft]
    omega
  | progressSent hpc =>
    unfold stepsLeft
    rw [hpc]
    dsimp only [UserPc.stepsLeft]
    rw [if_pos rfl]
    omega
  | summarySent hpc =>
    unfold stepsLeft
    rw [hpc]
    exact Nat.le_refl _

theorem step_enabled (maxRetries : Nat) (call : Call) (hpc : call.pc ≠ .returned)
    : ∃ e : Event, e.isOwn = true ∧ e.isRegular = true ∧ (call.step maxRetries e).isSome := by
  cases hcase : call.pc with
  | looping =>
    refine ⟨.roundStarted, rfl, rfl, ?_⟩
    dsimp only [step]
    unfold roundStarted
    rw [hcase]
    rfl
  | reading =>
    refine ⟨.pageRead, rfl, rfl, ?_⟩
    dsimp only [step]
    unfold pageRead
    rw [hcase]
    rfl
  | users batch rest =>
    refine ⟨.userTaken, rfl, rfl, ?_⟩
    dsimp only [step]
    unfold userTaken
    rw [hcase]
    dsimp only
    split
    . rfl
    . rfl
  | user batch rest user pc =>
    cases pc with
    | acquiring =>
      refine ⟨.acquired, rfl, rfl, ?_⟩
      dsimp only [step]
      unfold acquired
      rw [hcase]
      rfl
    | sending attempt =>
      refine ⟨.answered .delivered, rfl, rfl, ?_⟩
      dsimp only [step]
      unfold answered
      rw [hcase]
      rfl
    | sleeping attempt =>
      refine ⟨.slept, rfl, rfl, ?_⟩
      dsimp only [step]
      unfold slept
      rw [hcase]
      dsimp only
      split
      . rfl
      . rfl
    | deactivating =>
      refine ⟨.deactivated, rfl, rfl, ?_⟩
      dsimp only [step]
      unfold deactivated
      rw [hcase]
      rfl
    | reporting =>
      refine ⟨.progressSent, rfl, rfl, ?_⟩
      dsimp only [step]
      unfold progressSent
      rw [hcase]
      rfl
  | ended =>
    refine ⟨.summarySent, rfl, rfl, ?_⟩
    dsimp only [step]
    unfold summarySent
    rw [hcase]
    rfl
  | returned => exact absurd hcase hpc

end Termination

/-! ## Whole runs -/

section Runs

variable {maxRetries : Nat} {table : Users} {es : List Event} {call : Call}

structure Sound (maxRetries : Nat) (call : Call) : Prop where
  retries : call.RetriesLeft maxRetries
  books : call.Books
  pages : call.Pages

theorem sound_start (table : Users) : Sound maxRetries (startCall table) where
  retries := RetriesLeft.of_pc nofun
  books := ⟨rfl, rfl, rfl, rfl, List.Sublist.refl _⟩
  pages := ⟨List.nodup_nil, fun _ _ _ huser => absurd huser List.not_mem_nil, nofun⟩

theorem Sound.step {call' : Call} {e : Event} (h : Sound maxRetries call) (hregular : e.isRegular = true)
    (hstep : call.step maxRetries e = some call') : Sound maxRetries call' := by
  have hmoves := moves_of_step hregular h.retries hstep
  exact ⟨h.retries.moves hmoves, h.books.moves hmoves, h.pages.turns (turns_of_moves hmoves)⟩

theorem sound_run (hregular : ∀ e ∈ es, e.isRegular = true)
    (hrun : Run.exec (step maxRetries) (startCall table) es = some call) : Sound maxRetries call :=
  Run.invariant (fun h hregular hstep => h.step hregular hstep) (sound_start table)
    (Run.StepsMeet.of_events hregular) hrun

theorem covers_run {id : Nat} (hregular : ∀ e ∈ es, e.isRegular = true)
    (hactive : Run.Always (step maxRetries) (fun call => call.table.Active id) (startCall table) es)
    (hrun : Run.exec (step maxRetries) (startCall table) es = some call) : Covers id call := by
  have hstart : Covers id (startCall table) := by
    intro _ hcursor
    obtain ⟨user, huser, rfl, _⟩ := hactive.head
    exact absurd (hcursor rfl) (Nat.not_le_of_gt (table.ids_pos user huser))
  have hboth := Run.invariant (I := fun call => Sound maxRetries call ∧ Covers id call)
    (C := fun call e => e.isRegular = true ∧ call.table.Active id)
    (fun h hC hstep =>
      ⟨h.1.step hC.1 hstep, h.2.turns hC.2 (turns_of_moves (moves_of_step hC.1 h.1.retries hstep))⟩)
    ⟨sound_start table, hstart⟩ ((Run.StepsMeet.of_events hregular).and hactive.stepsMeet) hrun
  exact hboth.2

theorem countP_isOwn_le {bound : Nat} (hregular : ∀ e ∈ es, e.isRegular = true)
    (hbound : Run.Always (step maxRetries) (fun call => ∀ row ∈ call.table.rows, row.id ≤ bound)
      (startCall table) es)
    (hrun : Run.exec (step maxRetries) (startCall table) es = some call)
    : es.countP Event.isOwn ≤ bound * stepsPerPage maxRetries + 3 := by
  have hcount := Run.countP_add_le (stepsLeft maxRetries bound) Event.isOwn (I := Sound maxRetries)
    (C := fun call e => e.isRegular = true ∧ ∀ row ∈ call.table.rows, row.id ≤ bound)
    (fun h hC hstep => h.step hC.1 hstep)
    (fun h hC hstep => stepsLeft_moves hC.2 (moves_of_step hC.1 h.retries hstep))
    (sound_start table) ((Run.StepsMeet.of_events hregular).and hbound.stepsMeet) hrun
  have hstart : stepsLeft maxRetries bound (startCall table) = bound * stepsPerPage maxRetries + 3 := rfl
  omega

theorem telegramIds_nodup {idOf : Int → Nat} (hregular : ∀ e ∈ es, e.isRegular = true)
    (hrows : Run.Always (step maxRetries) (fun call => ∀ row ∈ call.table.rows, row.id = idOf row.telegramId)
      (startCall table) es)
    (hrun : Run.exec (step maxRetries) (startCall table) es = some call)
    : (call.attempted.map User.telegramId).Nodup := by
  have hboth := Run.invariant (I := fun call => Sound maxRetries call ∧
      Rows (fun user => user.id = idOf user.telegramId) call)
    (C := fun call e => e.isRegular = true ∧ ∀ row ∈ call.table.rows, row.id = idOf row.telegramId)
    (fun h hC hstep =>
      ⟨h.1.step hC.1 hstep, h.2.turns hC.2 (turns_of_moves (moves_of_step hC.1 h.1.retries hstep))⟩)
    ⟨sound_start table, fun _ huser => absurd huser List.not_mem_nil, nofun⟩
    ((Run.StepsMeet.of_events hregular).and hrows.stepsMeet) hrun
  have hids : call.attempted.map User.id = (call.attempted.map User.telegramId).map idOf := by
    rw [List.map_map]
    exact List.map_congr_left hboth.2.attempted
  have hnodup := hboth.1.pages.nodup
  rw [hids] at hnodup
  exact hnodup.of_map

/--
What an uninterrupted run has done to its users: none is taken twice, each gets one message at most and is counted
once, in one counter. Unless the admin has stopped the run, nobody active throughout is left out at its end,
which it reaches as long as the table does not grow beyond all bounds.
-/
theorem runBroadcast_accounts (hregular : ∀ e ∈ es, e.isRegular = true)
    (hrun : Run.exec (step maxRetries) (startCall table) es = some call)
    : ((call.attempted.map User.id).Nodup ∧
        ∀ idOf : Int → Nat, Run.Always (step maxRetries)
          (fun call => ∀ row ∈ call.table.rows, row.id = idOf row.telegramId) (startCall table) es →
          (call.attempted.map User.telegramId).Nodup) ∧
      (call.arrived.Nodup ∧ ∀ id ∈ call.arrived, id ∈ call.attempted.map User.id) ∧
      (call.attempted.map User.id = call.counted.map Prod.fst ++ call.pc.current.map User.id ∧
        call.sent = (call.counted.map Prod.snd).count .sent ∧
        call.failed = (call.counted.map Prod.snd).count .failed ∧
        call.blocked = (call.counted.map Prod.snd).count .blocked) ∧
      (∀ id, call.pc.isOver = true → call.cancelled = false →
        Run.Always (step maxRetries) (fun call => call.table.Active id) (startCall table) es →
        id ∈ call.attempted.map User.id) ∧
      ((call.pc ≠ .returned →
          ∃ e : Event, e.isOwn = true ∧ e.isRegular = true ∧ (call.step maxRetries e).isSome) ∧
        ∀ bound, Run.Always (step maxRetries) (fun call => ∀ row ∈ call.table.rows, row.id ≤ bound)
            (startCall table) es →
          es.countP Event.isOwn ≤ bound * stepsPerPage maxRetries + 3) := by
  obtain ⟨_, hbooks, hpages⟩ := sound_run hregular hrun
  have hcounted : (call.counted.map Prod.fst).Sublist (call.attempted.map User.id) := by
    rw [hbooks.accounted]
    exact List.sublist_append_left _ _
  have harrived := hbooks.arrived.trans hcounted
  refine ⟨⟨hpages.nodup, ?_⟩, ⟨harrived.nodup hpages.nodup, fun id hid => harrived.mem hid⟩,
    ⟨hbooks.accounted, hbooks.sent, hbooks.failed, hbooks.blocked⟩, ?_, step_enabled maxRetries call, ?_⟩
  . exact fun idOf hrows => telegramIds_nodup hregular hrows hrun
  . intro id hover hcancel hactive
    exact mem_attempted_of_covers (covers_run hregular hactive hrun) hover hcancel
  . exact fun bound hbound => countP_isOwn_le hregular hbound hrun

def twoUsers : Users where
  rows := [{ id := 1, telegramId := 101, isActive := true }, { id := 2, telegramId := 102, isActive := true }]
  ids_nodup := by decide
  ids_pos := by decide

def twoUsersEvents : List Event := [
  .roundStarted, .pageRead, .userTaken, .acquired, .answered (.retryAfter 1), .slept, .answered .delivered,
  .userTaken, .acquired, .answered .forbidden, .deactivated, .userTaken, .roundStarted, .pageRead, .summarySent]

theorem runBroadcast_accounts_two
    : ∃ call, Run.exec (step 3) (startCall twoUsers) twoUsersEvents = some call ∧
        call.sent = (call.counted.map Prod.snd).count .sent ∧ call.summary = some (false, 1, 0, 1) := by
  have hsummary : (Run.exec (step 3) (startCall twoUsers) twoUsersEvents).map (·.summary) =
      some (some (false, 1, 0, 1)) := by
    decide
  obtain ⟨call, hrun, hcall⟩ := Option.map_eq_some_iff.mp hsummary
  have hregular : ∀ e ∈ twoUsersEvents, e.isRegular = true := by
    unfold twoUsersEvents
    simp [Event.isRegular]
  exact ⟨call, hrun, (runBroadcast_accounts hregular hrun).2.2.1.2.1, hcall⟩

def oneRow (id : Nat) (hid : 0 < id) : Users where
  rows := [{ id := id, telegramId := 101, isActive := true }]
  ids_nodup := List.nodup_singleton _
  ids_pos row hrow := by
    rw [List.mem_singleton.mp hrow]
    exact hid

def noRows : Users where
  rows := []
  ids_nodup := List.nodup_nil
  ids_pos := nofun

/--
The only account deletes its data behind the message and registers anew in front of the next page.
-/
def registeredAnew : List Event := [
  .roundStarted, .pageRead, .userTaken, .acquired, .answered .delivered, .userTaken,
  .tableChanged noRows, .tableChanged (oneRow 2 (by decide)),
  .roundStarted, .pageRead, .userTaken, .acquired, .answered .delivered, .userTaken,
  .roundStarted, .pageRead, .summarySent]

/--
The new row lies behind the cursor, so the account gets the message a second time.
-/
theorem not_telegramIds_nodup_registeredAnew
    : (∀ e ∈ registeredAnew, e.isRegular = true) ∧
        ∃ call, Run.exec (step 3) (startCall (oneRow 1 (by decide))) registeredAnew = some call ∧
          call.attempted.map User.telegramId = [101, 101] ∧ call.arrived = [1, 2] ∧
            ¬ (call.attempted.map User.telegramId).Nodup := by
  have hregular : ∀ e ∈ registeredAnew, e.isRegular = true := by
    unfold registeredAnew
    simp [Event.isRegular]
  have hend : (Run.exec (step 3) (startCall (oneRow 1 (by decide))) registeredAnew).map
      (fun call => (call.attempted.map User.telegramId, call.arrived)) = some ([101, 101], [1, 2]) := by
    decide
  obtain ⟨call, hrun, hcall⟩ := Option.map_eq_some_iff.mp hend
  simp only [Prod.mk.injEq] at hcall
  obtain ⟨hattempted, harrived⟩ := hcall
  refine ⟨hregular, call, hrun, hattempted, harrived, ?_⟩
  rw [hattempted]
  decide

end Runs

end Call

end BroadcastRun
