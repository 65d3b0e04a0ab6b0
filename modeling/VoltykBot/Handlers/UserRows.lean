import VoltykBot.Lib.Run

/-!
This module contains the queries that register users and delete them, as programs of database statements, and the
sessions that execute these programs side by side at the isolation level READ COMMITTED.
-/

namespace UserRows

/--
The tables with one row for each user. Their primary key is the `id` of the user.
-/
inductive Relation where
  | notificationSettings
  | channelConfig
  | powerTracking
  | messageTracking
  deriving DecidableEq, Repr

def relations : List Relation := [.notificationSettings, .channelConfig, .powerTracking, .messageTracking]

structure User where
  id : Nat
  telegramId : String
  deriving DecidableEq, Repr

structure Key where
  relation : Relation
  userId : Nat
  deriving DecidableEq, Repr

inductive Program where
  | done
  | getUser (telegramId : String) (next : Option Nat → Program)
  | getRelated (key : Key) (next : Bool → Program)
  | insertUser (telegramId : String) (next : Nat → Program)
  | updateUser (id : Nat) (next : Program)
  | insertRelated (key : Key) (next : Program)
  | deleteRelated (key : Key) (next : Program)
  | deleteUser (id : Nat) (next : Program)

/--
`selectinload` reads each relation by a `SELECT` of its own.
-/
def loadRelations (id : Nat) (rest : List Relation) (next : List Relation → Program) : Program :=
  match rest with
  | [] => next []
  | relation :: rest =>
    .getRelated ⟨relation, id⟩ fun there =>
      loadRelations id rest fun loaded => next (if there then relation :: loaded else loaded)

def getUserByTelegramId (telegramId : String) (next : Option (Nat × List Relation) → Program) : Program :=
  .getUser telegramId fun user =>
    match user with
    | none => next none
    | some id => loadRelations id relations fun loaded => next (some (id, loaded))

def insertRows (id : Nat) (missing : List Relation) : Program :=
  missing.foldr (fun relation next => .insertRelated ⟨relation, id⟩ next) .done

/--
The changed attributes of a user that is there are sent before the first row that is missing.
-/
def createOrUpdateUser (telegramId : String) : Program :=
  getUserByTelegramId telegramId fun user =>
    match user with
    | none => .insertUser telegramId fun id => insertRows id relations
    | some (id, loaded) => .updateUser id (insertRows id (relations.filter (· ∉ loaded)))

/--
The rows that were loaded are deleted before the user, and the foreign keys delete the others.
-/
def deleteUserData (telegramId : String) : Program :=
  getUserByTelegramId telegramId fun user =>
    match user with
    | none => .done
    | some (id, loaded) =>
      loaded.foldr (fun relation next => .deleteRelated ⟨relation, id⟩ next) (.deleteUser id .done)

inductive Call where
  | createOrUpdateUser (telegramId : String)
  | deleteUserData (telegramId : String)
  deriving DecidableEq, Repr

def Call.program (call : Call) : Program :=
  match call with
  | .createOrUpdateUser telegramId => UserRows.createOrUpdateUser telegramId
  | .deleteUserData telegramId => UserRows.deleteUserData telegramId

inductive Write where
  | insertUser (user : User)
  | updateUser (id : Nat)
  | insertRelated (key : Key)
  | deleteRelated (key : Key)
  | deleteUser (id : Nat)
  deriving DecidableEq, Repr

structure Tables where
  users : List User
  related : List Key

namespace Write

def userId (write : Write) : Nat :=
  match write with
  | insertUser user => user.id
  | updateUser id => id
  | insertRelated key => key.userId
  | deleteRelated key => key.userId
  | deleteUser id => id

def apply (tables : Tables) (write : Write) : Tables :=
  match write with
  | insertUser user => { tables with users := tables.users ++ [user] }
  | updateUser _ => tables
  | insertRelated key => { tables with related := tables.related ++ [key] }
  | deleteRelated key => { tables with related := tables.related.filter (· ≠ key) }
  | deleteUser id => {
      users := tables.users.filter (·.id ≠ id)
      related := tables.related.filter (·.userId ≠ id) }

def duplicates (x y : Write) : Bool :=
  match x, y with
  | insertUser user, insertUser user' => user.id = user'.id ∨ user.telegramId = user'.telegramId
  | insertRelated key, insertRelated key' => key = key'
  | _, _ => false

/--
A session that has not ended yet and has written `y` keeps the others from `x`. A row of a relation locks its user
against deletion only, and the deletion of a user locks all its rows.
-/
def waits (x y : Write) : Bool :=
  match x, y with
  | deleteUser id, y => y.userId = id
  | x, deleteUser id => x.userId = id
  | updateUser id, updateUser id' => id = id'
  | deleteRelated key, deleteRelated key' => key = key'
  | x, y => x.duplicates y

end Write

structure Session where
  program : Program
  writes : List Write := []

def Session.ended : Session := { program := .done }

structure Database where
  tables : Tables
  nextId : Nat
  sessions : List Session := []

namespace Database

variable (db : Database)

def isFree (i : Nat) (x : Write) : Bool :=
  (db.sessions.eraseIdx i).all fun other => other.writes.all fun y => !x.waits y

def isUnique (session : Session) (x : Write) : Bool :=
  session.writes.all (fun y => !x.duplicates y) &&
    match x with
    | .insertUser user => db.tables.users.all fun other => other.id ≠ user.id ∧ other.telegramId ≠ user.telegramId
    | .insertRelated key => key ∉ db.tables.related
    | _ => true

def hasUser (session : Session) (id : Nat) : Bool :=
  db.tables.users.any (·.id = id) || session.writes.any fun write =>
    match write with
    | .insertUser user => user.id = id
    | _ => false

/--
The next statement of a session, with what it has written. It is `none` while the statement waits for a lock, where
it raises, and at the end. A statement sees the committed rows; no query reads what its session has written.
-/
def execute (i : Nat) (session : Session) : Option (Session × Option Write) :=
  match session.program with
  | .done => none
  | .getUser telegramId next =>
    let user := db.tables.users.find? (·.telegramId = telegramId)
    some ({ session with program := next (user.map User.id) }, none)
  | .getRelated key next => some ({ session with program := next (key ∈ db.tables.related) }, none)
  | .insertUser telegramId next =>
    let x := Write.insertUser ⟨db.nextId, telegramId⟩
    if db.isFree i x && db.isUnique session x then
      some ({ session with program := next db.nextId }, some x)
    else
      none
  | .updateUser id next =>
    -- an `UPDATE` that finds no row raises
    if db.isFree i (.updateUser id) && db.tables.users.any (·.id = id) then
      some ({ session with program := next }, some (.updateUser id))
    else
      none
  | .insertRelated key next =>
    let x := Write.insertRelated key
    if db.isFree i x && db.isUnique session x && db.hasUser session key.userId then
      some ({ session with program := next }, some x)
    else
      none
  | .deleteRelated key next =>
    if key ∉ db.tables.related then
      some ({ session with program := next }, none)
    else if db.isFree i (.deleteRelated key) then
      some ({ session with program := next }, some (.deleteRelated key))
    else
      none
  | .deleteUser id next =>
    -- a `DELETE` that finds no row is passed over
    if db.tables.users.all (·.id ≠ id) then
      some ({ session with program := next }, none)
    else if db.isFree i (.deleteUser id) then
      some ({ session with program := next }, some (.deleteUser id))
    else
      none

def setSession (i : Nat) (session : Session) : Database := { db with sessions := db.sessions.set i session }

def wrote (i : Nat) (session : Session) (write : Option Write) : Database where
  tables := db.tables
  nextId :=
    match write with
    | some (.insertUser _) => db.nextId + 1
    | _ => db.nextId
  sessions := db.sessions.set i { session with writes := session.writes ++ write.toList }

def commit (i : Nat) (session : Session) : Option Database :=
  match session.program with
  | .done => some {
      tables := session.writes.foldl Write.apply db.tables
      nextId := db.nextId
      sessions := db.sessions.set i .ended }
  | _ => none

end Database

/--
A session can be rolled back at any time: its handler may raise, as it does where a statement raises, and the server
ends deadlocks.
-/
inductive Event where
  | called (call : Call)
  | advanced (i : Nat)
  | committed (i : Nat)
  | rolledBack (i : Nat)
  deriving DecidableEq, Repr

def step (db : Database) (e : Event) : Option Database :=
  match e with
  | .called call => some { db with sessions := db.sessions ++ [{ program := call.program }] }
  | .advanced i => do
    let session ← db.sessions[i]?
    let (session, write) ← db.execute i session
    some (db.wrote i session write)
  | .committed i => do
    let session ← db.sessions[i]?
    db.commit i session
  | .rolledBack i => some (db.setSession i .ended)

end UserRows
