import VoltykBot.Lib.Run

/-!
This module contains the handlers that connect channels to users, as programs of database statements, and
the sessions that execute these programs side by side at the isolation level READ COMMITTED.
-/

namespace ChannelRows

structure UserChannelConfig where
  telegramId : String
  channelId : Option String
  channelTitle : Option String
  channelStatus : String
  deriving DecidableEq, Repr

structure PendingChannel where
  channelId : String
  telegramId : String
  channelUsername : Option String
  channelTitle : Option String
  deriving DecidableEq, Repr

structure ConfigChange where
  loaded : UserChannelConfig
  new : UserChannelConfig
  deriving DecidableEq, Repr

inductive Program where
  | done
  | getUserByChannelId (channelId : String) (next : Option UserChannelConfig → Program)
  | getChannelConfig (telegramId : String) (next : Option UserChannelConfig → Program)
  | getPendingChannel (wanted : PendingChannel → Bool) (next : Option PendingChannel → Program)
  | setChannelConfig (change : ConfigChange) (next : Program)
  | savePendingChannel (row : PendingChannel) (next : Program)
  | deletePendingChannel (channelId : String) (next : Program)
  | deletePendingChannelByTelegramId (telegramId : String) (next : Program)
  -- a `DELETE` that has found its rows
  | deleteRows (telegramId : String) (channelIds : List String) (next : Program)

def handleBotAdded (channelId channelTitle : String) (channelUsername : Option String)
    (fromUser : String) : Program :=
  .getUserByChannelId channelId fun existingOwner =>
    if existingOwner.any (·.telegramId ≠ fromUser) then
      .done
    else
      .savePendingChannel {
        channelId := channelId
        telegramId := fromUser
        channelUsername := channelUsername
        channelTitle := some channelTitle } .done

def disconnected (config : UserChannelConfig) : UserChannelConfig :=
  { config with channelId := none, channelTitle := none, channelStatus := "disconnected" }

def handleBotRemoved (channelId : String) : Program :=
  .deletePendingChannel channelId <|
    .getUserByChannelId channelId fun user =>
      match user with
      | none => .done
      | some user =>
        -- the relations of the user are loaded by a `SELECT` of their own
        .getChannelConfig user.telegramId fun config =>
          match config with
          | none => .done
          | some config => .setChannelConfig { loaded := config, new := disconnected config } .done

def connected (config : UserChannelConfig) (pending : PendingChannel) (channelId : String)
    : UserChannelConfig :=
  { config with channelId := some channelId, channelTitle := pending.channelTitle, channelStatus := "active" }

/--
The handlers of the buttons that connect a channel. They differ in how they look for the pending row.
-/
def takeChannel (fromUser channelId : String) (wanted : PendingChannel → Bool) : Program :=
  .getChannelConfig fromUser fun config =>
    match config with
    | none => .done
    | some config =>
      .getPendingChannel wanted fun pending =>
        match pending with
        | none => .done
        | some pending =>
          if pending.channelId ≠ channelId then
            .done
          else
            .setChannelConfig { loaded := config, new := connected config pending channelId } <|
              .deletePendingChannel channelId .done

def channelConfirm (fromUser channelId : String) : Program :=
  takeChannel fromUser channelId fun row => row.telegramId = fromUser

def connectChannel (fromUser channelId : String) : Program :=
  takeChannel fromUser channelId fun row => row.telegramId = fromUser ∧ row.channelId = channelId

def replaceChannel (fromUser channelId : String) : Program :=
  takeChannel fromUser channelId fun row => row.telegramId = fromUser ∧ row.channelId = channelId

def keepCurrent (fromUser : String) : Program := .deletePendingChannelByTelegramId fromUser .done

def cancelConnect (fromUser : String) : Program := .deletePendingChannelByTelegramId fromUser .done

inductive Call where
  | handleBotAdded (channelId channelTitle : String) (channelUsername : Option String) (fromUser : String)
  | handleBotRemoved (channelId : String)
  | channelConfirm (fromUser channelId : String)
  | connectChannel (fromUser channelId : String)
  | replaceChannel (fromUser channelId : String)
  | keepCurrent (fromUser : String)
  | cancelConnect (fromUser : String)
  deriving DecidableEq, Repr

def Call.program (call : Call) : Program :=
  match call with
  | .handleBotAdded channelId channelTitle channelUsername fromUser =>
    ChannelRows.handleBotAdded channelId channelTitle channelUsername fromUser
  | .handleBotRemoved channelId => ChannelRows.handleBotRemoved channelId
  | .channelConfirm fromUser channelId => ChannelRows.channelConfirm fromUser channelId
  | .connectChannel fromUser channelId => ChannelRows.connectChannel fromUser channelId
  | .replaceChannel fromUser channelId => ChannelRows.replaceChannel fromUser channelId
  | .keepCurrent fromUser => ChannelRows.keepCurrent fromUser
  | .cancelConnect fromUser => ChannelRows.cancelConnect fromUser

inductive PendingWrite where
  | save (row : PendingChannel)
  | delete (channelId : String)
  deriving DecidableEq, Repr

def PendingWrite.channelId (write : PendingWrite) : String :=
  match write with
  | .save row => row.channelId
  | .delete channelId => channelId

/--
An open transaction: the rest of its handler, the assigned attributes, whether their `UPDATE` was sent, and
the writes to `pending_channels` that it has not committed yet.
-/
structure Session where
  program : Program
  dirty : Option ConfigChange := none
  flushed : Bool := false
  writes : List PendingWrite := []

/--
The `UPDATE` sets no attribute that has its loaded value.
-/
def ConfigChange.apply (change : ConfigChange) (row : UserChannelConfig) : UserChannelConfig :=
  if row.telegramId = change.loaded.telegramId then
    {
      telegramId := row.telegramId
      channelId :=
        if change.new.channelId = change.loaded.channelId then row.channelId else change.new.channelId
      channelTitle :=
        if change.new.channelTitle = change.loaded.channelTitle then
          row.channelTitle
        else
          change.new.channelTitle
      channelStatus :=
        if change.new.channelStatus = change.loaded.channelStatus then
          row.channelStatus
        else
          change.new.channelStatus
    }
  else
    row

def PendingWrite.apply (pending : List PendingChannel) (write : PendingWrite) : List PendingChannel :=
  match write with
  | .save row => pending.filter (·.channelId ≠ row.channelId) ++ [row]
  | .delete channelId => pending.filter (·.channelId ≠ channelId)

namespace Session

variable (session : Session)

def mustFlush : Bool := session.dirty.isSome && !session.flushed

def locksConfig (telegramId : String) : Bool :=
  session.flushed && session.dirty.any fun change =>
    change.loaded.telegramId = telegramId ∧ change.new ≠ change.loaded

def locksPending (channelId : String) : Bool := session.writes.any (·.channelId = channelId)

def ended : Session := { program := .done }

end Session

structure Database where
  configs : List UserChannelConfig
  pending : List PendingChannel
  sessions : List Session := []

/--
`first()` of a query without an order may return any of the rows.
-/
def firstOf {α : Type} (rows : List α) (choice : Nat) : Option α := rows[choice % rows.length]?

namespace Database

variable (db : Database)

/--
No handler writes a row twice, so that a row which is not free is locked by another session.
-/
def configIsFree (telegramId : String) : Bool := db.sessions.all fun session => !session.locksConfig telegramId

def pendingIsFree (channelId : String) : Bool := db.sessions.all fun session => !session.locksPending channelId

/--
The `UPDATE` of the assigned attributes, which a session sends before its next statement and at the latest
before `COMMIT`. It is `none` while the row is locked.
-/
def flush (session : Session) : Option Session :=
  match session.dirty with
  | none => some session
  | some change =>
    if change.new = change.loaded ∨ db.configIsFree change.loaded.telegramId = true then
      some { session with flushed := true }
    else
      none

/--
The next statement of a session. It is `none` while the statement waits for a lock, and at the end of the
handler. A statement sees the committed rows; no handler reads a table that it has written to.
-/
def execute (session : Session) (choice : Nat) : Option Session :=
  match session.program with
  | .done => none
  | .getUserByChannelId channelId next =>
    let rows := db.configs.filter (·.channelId = some channelId)
    some { session with program := next (firstOf rows choice) }
  | .getChannelConfig telegramId next =>
    let rows := db.configs.filter (·.telegramId = telegramId)
    some { session with program := next (firstOf rows choice) }
  | .getPendingChannel wanted next =>
    some { session with program := next (firstOf (db.pending.filter wanted) choice) }
  | .setChannelConfig change next =>
    some { session with program := next, dirty := some change, flushed := false }
  | .savePendingChannel row next =>
    if db.pendingIsFree row.channelId then
      some { session with program := next, writes := session.writes ++ [.save row] }
    else
      none
  | .deletePendingChannel channelId next =>
    -- a row that another session has inserted but not committed is invisible, and nothing waits for it
    if db.pending.all (·.channelId ≠ channelId) then
      some { session with program := next }
    else if db.pendingIsFree channelId then
      some { session with program := next, writes := session.writes ++ [.delete channelId] }
    else
      none
  | .deletePendingChannelByTelegramId telegramId next =>
    let rows := db.pending.filter (·.telegramId = telegramId)
    some { session with program := .deleteRows telegramId (rows.map (·.channelId)) next }
  | .deleteRows _ [] next => some { session with program := next }
  | .deleteRows telegramId (channelId :: channelIds) next =>
    if !db.pendingIsFree channelId then
      none
    else if db.pending.any fun row => row.channelId = channelId ∧ row.telegramId = telegramId then
      some { session with
        program := .deleteRows telegramId channelIds next
        writes := session.writes ++ [.delete channelId] }
    else
      -- after the wait the row is gone or somebody else's
      some { session with program := .deleteRows telegramId channelIds next }

def advance (session : Session) (choice : Nat) : Option Session :=
  if session.mustFlush then db.flush session else db.execute session choice

def setSession (i : Nat) (session : Session) : Database :=
  { db with sessions := db.sessions.set i session }

def commit (i : Nat) (session : Session) : Option Database :=
  match session.program with
  | .done =>
    if session.mustFlush then
      none
    else
      some {
        configs := db.configs.map fun row => session.dirty.elim row (·.apply row)
        pending := session.writes.foldl PendingWrite.apply db.pending
        sessions := db.sessions.set i .ended }
  | _ => none

end Database

/--
A session can be rolled back at any time: a handler may raise, and the server ends deadlocks.
-/
inductive Event where
  | called (call : Call)
  | advanced (i choice : Nat)
  | committed (i : Nat)
  | rolledBack (i : Nat)
  deriving DecidableEq, Repr

def step (db : Database) (e : Event) : Option Database :=
  match e with
  | .called call => some { db with sessions := db.sessions ++ [{ program := call.program }] }
  | .advanced i choice => do
    let session ← db.sessions[i]?
    let session ← db.advance session choice
    some (db.setSession i session)
  | .committed i => do
    let session ← db.sessions[i]?
    db.commit i session
  | .rolledBack i => some (db.setSession i .ended)

end ChannelRows
