import VoltykBot.Lib.Run

/-!
This module contains the wizard in which a user chooses region and queue, and the pairs that it stores.
-/

namespace Wizard

def regions : List String := ["kyiv", "kyiv-region", "dnipro", "odesa"]

def standardQueues : List String :=
  (List.range' 1 6).flatMap fun g => [1, 2].map fun s => toString g ++ "." ++ toString s

def kyivExtraQueues : List String := (List.range' 7 54).map fun q => toString q ++ ".1"

def kyivQueues : List String := standardQueues ++ kyivExtraQueues

def regionQueues : List (String × List String) := [
  ("kyiv", kyivQueues),
  ("kyiv-region", standardQueues),
  ("dnipro", standardQueues),
  ("odesa", standardQueues)]

inductive FsmState where
  | none
  | region
  | queue
  | notifyTarget
  | botNotifications
  | channelSetup
  | channelNotifications
  | confirm
  | other
  deriving DecidableEq, Repr

structure Data where
  mode : Option String := none
  region : Option String := none
  queue : Option String := none
  registrationCounted : Bool := false
  deriving DecidableEq, Repr

/--
State and data of a user. `saved` records the pairs that `create_or_update_user` was called with.
-/
structure Dialog where
  fsm : FsmState := .none
  data : Data := {}
  saved : List (String × String) := []
  deriving DecidableEq, Repr

inductive Write where
  | setState (fsm : FsmState)
  | mode (mode : String)
  | region (region : String)
  | queue (queue : String)
  | registrationCounted
  | clear
  | save (region queue : String)
  deriving DecidableEq, Repr

def startsWith (text start : String) : Bool := start.toList.isPrefixOf text.toList

/--
What is left of a text when each occurrence of a pattern is left out, from the left; the next `skip`
characters belong to an occurrence.
-/
def withoutPattern (pattern : List Char) (skip : Nat) (text : List Char) : List Char :=
  match text with
  | [] => []
  | c :: rest =>
    match skip with
    | skip + 1 => withoutPattern pattern skip rest
    | 0 =>
      if pattern.isPrefixOf (c :: rest) then
        withoutPattern pattern (pattern.length - 1) rest
      else
        c :: withoutPattern pattern 0 rest

/--
`text.replace(pattern, "")`
-/
def removed (text pattern : String) : String :=
  String.ofList (withoutPattern pattern.toList 0 text.toList)

namespace Dialog

def apply (d : Dialog) (w : Write) : Dialog :=
  match w with
  | .setState fsm => { d with fsm := fsm }
  | .mode mode => { d with data.mode := some mode }
  | .region region => { d with data.region := some region }
  | .queue queue => { d with data.queue := some queue }
  | .registrationCounted => { d with data.registrationCounted := true }
  | .clear => { d with fsm := .none, data := {} }
  | .save region queue => { d with saved := (region, queue) :: d.saved }

def cmdStart (registers : Bool) : List Write :=
  -- a known user gets the menu, and registration can be switched off
  if registers then [.clear, .setState .region, .mode "new"] else [.clear]

def createNewProfile : List Write := [.setState .region, .mode "new"]

def settingsRegionConfirm : List Write := [.setState .region, .mode "edit"]

def changeQueue (known : Bool) : List Write :=
  if known then [.setState .region, .mode "edit_from_schedule"] else []

def wizardRegion (callbackData : String) : List Write :=
  let regionCode := removed callbackData "region_"
  if regionCode = "request_start" then []
  else if regionCode ∉ regions then []
  else [.region regionCode, .setState .queue]

def wizardQueue (data : Data) (callbackData : String) : List Write :=
  let queue := removed callbackData "queue_"
  if startsWith queue "page_" then
    []
  else
    let regionCode := data.region.getD "kyiv"
    let allowed := (regionQueues.lookup regionCode).getD standardQueues
    if queue ∉ allowed then
      []
    else if data.mode.getD "new" = "new" then
      [.queue queue, .setState .notifyTarget]
    else
      [.queue queue, .setState .confirm]

def backToRegion : List Write := [.setState .region]

def countRegistration (data : Data) : List Write :=
  if data.mode = some "new" ∧ data.registrationCounted = false then [.registrationCounted] else []

def wizardNotifyBot (data : Data) (hasSettings : Bool) : List Write :=
  match data.region, data.queue with
  | some region, some queue =>
    .save region queue :: countRegistration data ++ [.setState .botNotifications] ++
      if hasSettings then [] else [.clear]
  -- a `KeyError`
  | _, _ => []

def wizardNotifyChannel (data : Data) : List Write :=
  match data.region, data.queue with
  | some region, some queue =>
    .save region queue :: countRegistration data ++ [.setState .channelSetup]
  | _, _ => []

def wizardNotifyBack : List Write := [.setState .notifyTarget]

def wizardBotDone : List Write := [.clear]

def wizardConfirm (data : Data) : List Write :=
  [.save (data.region.getD "") (data.queue.getD ""), .clear]

structure UserRow where
  known : Bool
  hasSettings : Bool
  deriving DecidableEq, Repr

/--
The handler of a button, by the state and the data of the button. Buttons that only switch notification
settings or turn a page write nothing here.
-/
def pressed (d : Dialog) (callbackData : String) (row : UserRow) : List Write :=
  if callbackData = "create_new_profile" then createNewProfile
  else if d.fsm = .region ∧ startsWith callbackData "region_" then wizardRegion callbackData
  else if d.fsm = .queue ∧ startsWith callbackData "queue_page_" then []
  else if d.fsm = .queue ∧ startsWith callbackData "queue_" then wizardQueue d.data callbackData
  else if callbackData = "back_to_region" then backToRegion
  else if d.fsm = .notifyTarget ∧ callbackData = "wizard_notify_bot" then
    wizardNotifyBot d.data row.hasSettings
  else if d.fsm = .botNotifications ∧ callbackData = "wizard_notify_back" then wizardNotifyBack
  else if d.fsm = .botNotifications ∧ callbackData = "wizard_bot_done" then wizardBotDone
  else if d.fsm = .notifyTarget ∧ callbackData = "wizard_notify_channel" then wizardNotifyChannel d.data
  else if d.fsm = .confirm ∧ callbackData = "confirm_setup" then wizardConfirm d.data
  else if callbackData = "settings_region_confirm" then settingsRegionConfirm
  else if callbackData = "my_queues" then changeQueue row.known
  else []

/--
What reaches the bot from the user. `otherHandler` is any handler of another dialog: it sets a state of
its own or clears state and data. `lost` is a restart without a persistent storage.
-/
inductive Update where
  | start (registers : Bool)
  | press (callbackData : String) (row : UserRow)
  | otherHandler (clears : Bool)
  | lost
  deriving DecidableEq, Repr

def writes (d : Dialog) (u : Update) : List Write :=
  match u with
  | .start registers => cmdStart registers
  | .press callbackData row => d.pressed callbackData row
  | .otherHandler clears => if clears then [.clear] else [.setState .other]
  | .lost => [.clear]

/--
A handler does its first `completed` writes; after fewer than all of them an exception has ended it.
-/
def step (d : Dialog) (u : Update × Nat) : Option Dialog :=
  some (((d.writes u.1).take u.2).foldl apply d)

def IsValidPair (region queue : String) : Prop :=
  region ∈ regions ∧ ∃ queues, regionQueues.lookup region = some queues ∧ queue ∈ queues

def HasPair (data : Data) : Prop :=
  ∃ region queue, data.region = some region ∧ data.queue = some queue ∧ IsValidPair region queue

def afterQueue : List FsmState := [.notifyTarget, .botNotifications, .channelSetup, .confirm]

structure Inv (d : Dialog) : Prop where
  pair : d.fsm ∈ afterQueue → HasPair d.data
  region : d.fsm = .queue → ∃ region, d.data.region = some region ∧ region ∈ regions
  saved : ∀ pair ∈ d.saved, IsValidPair pair.1 pair.2

def Allowed (d : Dialog) (w : Write) : Prop :=
  match w with
  | .setState fsm =>
    (fsm ∈ afterQueue → HasPair d.data) ∧
      (fsm = .queue → ∃ region, d.data.region = some region ∧ region ∈ regions)
  | .region region => d.fsm ∉ afterQueue ∧ region ∈ regions
  | .queue _ => d.fsm ∉ afterQueue
  | .save region queue => IsValidPair region queue
  | .mode _ => True
  | .registrationCounted => True
  | .clear => True

def AllAllowed (d : Dialog) (ws : List Write) : Prop :=
  match ws with
  | [] => True
  | w :: ws => d.Allowed w ∧ (d.apply w).AllAllowed ws

theorem Inv.apply {d : Dialog} {w : Write} (h : d.Inv) (hw : d.Allowed w) : (d.apply w).Inv := by
  cases w with
  | setState fsm => exact ⟨hw.1, hw.2, h.saved⟩
  | mode mode => exact ⟨h.pair, h.region, h.saved⟩
  | region region => exact ⟨fun hafter => absurd hafter hw.1, fun _ => ⟨region, rfl, hw.2⟩, h.saved⟩
  | queue queue => exact ⟨fun hafter => absurd hafter hw, h.region, h.saved⟩
  | registrationCounted => exact ⟨h.pair, h.region, h.saved⟩
  | clear =>
    refine ⟨?_, ?_, h.saved⟩
    . intro hafter
      have hnone : FsmState.none ∉ afterQueue := by decide
      exact absurd hafter hnone
    . intro hqueue
      cases hqueue
  | save region queue =>
    refine ⟨h.pair, h.region, ?_⟩
    intro pair hpair
    cases List.mem_cons.mp hpair with
    | inl hnew => exact hnew ▸ hw
    | inr hold => exact h.saved pair hold

theorem Inv.foldl_take {d : Dialog} {ws : List Write} (h : d.Inv) (hws : d.AllAllowed ws) (n : Nat)
    : ((ws.take n).foldl Dialog.apply d).Inv := by
  induction ws generalizing d n with
  | nil =>
    rw [List.take_nil]
    exact h
  | cons w ws ih =>
    cases n with
    | zero => exact h
    | succ n =>
      rw [List.take_succ_cons, List.foldl_cons]
      exact ih (h.apply hws.1) hws.2 n

theorem inv_start : Inv {} := by
  refine ⟨?_, ?_, ?_⟩
  . intro hafter
    exact absurd hafter (by decide)
  . intro hqueue
    cases hqueue
  . intro pair hpair
    cases hpair

theorem lookup_regionQueues {region : String} (h : region ∈ regions)
    : ∃ queues, regionQueues.lookup region = some queues := by
  have hall : ∀ region ∈ regions, (regionQueues.lookup region).isSome := by decide
  exact Option.isSome_iff_exists.mp (hall region h)

theorem allAllowed_enter {d : Dialog} (mode : String) : d.AllAllowed [.setState .region, .mode mode] := by
  refine ⟨⟨?_, ?_⟩, trivial, trivial⟩
  . intro hafter
    exact absurd hafter (by decide)
  . intro hqueue
    cases hqueue

theorem allAllowed_backToRegion {d : Dialog} : d.AllAllowed backToRegion := ⟨(allAllowed_enter "").1, trivial⟩

theorem allAllowed_nil {d : Dialog} : d.AllAllowed [] := trivial

theorem allAllowed_clear {d : Dialog} : d.AllAllowed [.clear] := ⟨trivial, trivial⟩

theorem allAllowed_wizardRegion {d : Dialog} (hfsm : d.fsm = .region) (callbackData : String)
    : d.AllAllowed (wizardRegion callbackData) := by
  unfold wizardRegion
  dsimp only
  split
  . trivial
  . split
    . trivial
    . next hregion =>
      rw [not_not] at hregion
      refine ⟨⟨?_, hregion⟩, ⟨?_, fun _ => ⟨_, rfl, hregion⟩⟩, trivial⟩
      . rw [hfsm]
        decide
      . intro hafter
        exact absurd hafter (by decide)

theorem allAllowed_wizardQueue {d : Dialog} (h : d.Inv) (hfsm : d.fsm = .queue) (callbackData : String)
    : d.AllAllowed (wizardQueue d.data callbackData) := by
  obtain ⟨region, hregion, hmem⟩ := h.region hfsm
  obtain ⟨queues, hqueues⟩ := lookup_regionQueues hmem
  have hbefore : d.fsm ∉ afterQueue := by
    rw [hfsm]
    decide
  unfold wizardQueue
  dsimp only
  rw [hregion, Option.getD_some, hqueues, Option.getD_some]
  split
  . trivial
  . split
    . trivial
    . next hqueue =>
      rw [not_not] at hqueue
      have hpair : HasPair (d.apply (.queue (removed callbackData "queue_"))).data :=
        ⟨region, _, hregion, rfl, hmem, queues, hqueues, hqueue⟩
      split
      . exact ⟨hbefore, ⟨fun _ => hpair, nofun⟩, trivial⟩
      . exact ⟨hbefore, ⟨fun _ => hpair, nofun⟩, trivial⟩

theorem allAllowed_saved {d : Dialog} (hpair : HasPair d.data) {region queue : String}
    (hregion : d.data.region = some region) (hqueue : d.data.queue = some queue) {fsm : FsmState}
    (hfsm : fsm ≠ .queue) {rest : List Write} (hrest : rest = [] ∨ rest = [.clear])
    : d.AllAllowed (.save region queue :: countRegistration d.data ++ [.setState fsm] ++ rest) := by
  have hvalid : IsValidPair region queue := by
    obtain ⟨region', queue', hregion', hqueue', hvalid⟩ := hpair
    rw [hregion, Option.some_inj] at hregion'
    rw [hqueue, Option.some_inj] at hqueue'
    rw [hregion', hqueue']
    exact hvalid
  have hset : ∀ d' : Dialog, HasPair d'.data → d'.AllAllowed (.setState fsm :: rest) := by
    intro d' hpair'
    refine ⟨⟨fun _ => hpair', fun hqueue => absurd hqueue hfsm⟩, ?_⟩
    cases hrest with
    | inl hrest =>
      rw [hrest]
      trivial
    | inr hrest =>
      rw [hrest]
      exact ⟨trivial, trivial⟩
  refine ⟨hvalid, ?_⟩
  unfold countRegistration
  split
  . exact ⟨trivial, hset _ hpair⟩
  . exact hset _ hpair

theorem allAllowed_wizardNotifyBot {d : Dialog} (hpair : HasPair d.data) (hasSettings : Bool)
    : d.AllAllowed (wizardNotifyBot d.data hasSettings) := by
  unfold wizardNotifyBot
  split
  . next hregion hqueue =>
    apply allAllowed_saved hpair hregion hqueue (by decide)
    split
    . exact .inl rfl
    . exact .inr rfl
  . trivial

theorem allAllowed_wizardNotifyChannel {d : Dialog} (hpair : HasPair d.data)
    : d.AllAllowed (wizardNotifyChannel d.data) := by
  unfold wizardNotifyChannel
  split
  . next region queue hregion hqueue =>
    have hallowed := allAllowed_saved hpair hregion hqueue
      (show FsmState.channelSetup ≠ .queue by decide) (.inl rfl)
    rw [List.append_nil] at hallowed
    exact hallowed
  . trivial

theorem allAllowed_wizardNotifyBack {d : Dialog} (hpair : HasPair d.data)
    : d.AllAllowed wizardNotifyBack := by
  refine ⟨⟨fun _ => hpair, ?_⟩, trivial⟩
  intro hqueue
  cases hqueue

theorem allAllowed_wizardConfirm {d : Dialog} (hpair : HasPair d.data)
    : d.AllAllowed (wizardConfirm d.data) := by
  obtain ⟨region, queue, hregion, hqueue, hvalid⟩ := hpair
  unfold wizardConfirm
  rw [hregion, hqueue]
  exact ⟨hvalid, trivial, trivial⟩

theorem allAllowed_changeQueue {d : Dialog} (known : Bool) : d.AllAllowed (changeQueue known) := by
  unfold changeQueue
  split
  . exact allAllowed_enter "edit_from_schedule"
  . trivial

theorem Inv.hasPair {d : Dialog} (h : d.Inv) {fsm : FsmState} (hfsm : d.fsm = fsm)
    (hafter : fsm ∈ afterQueue) : HasPair d.data :=
  h.pair (hfsm ▸ hafter)

theorem allAllowed_ite {d : Dialog} {p : Prop} [Decidable p] {ws ws' : List Write}
    (hpos : p → d.AllAllowed ws) (hneg : d.AllAllowed ws') : d.AllAllowed (if p then ws else ws') := by
  split
  . next hp => exact hpos hp
  . exact hneg

theorem allAllowed_pressed {d : Dialog} (h : d.Inv) (callbackData : String) (row : UserRow)
    : d.AllAllowed (d.pressed callbackData row) := by
  unfold pressed
  apply allAllowed_ite (fun _ => allAllowed_enter "new")
  apply allAllowed_ite (fun hpress => allAllowed_wizardRegion hpress.1 callbackData)
  apply allAllowed_ite (fun _ => allAllowed_nil)
  apply allAllowed_ite (fun hpress => allAllowed_wizardQueue h hpress.1 callbackData)
  apply allAllowed_ite (fun _ => allAllowed_backToRegion)
  apply allAllowed_ite (fun hpress =>
    allAllowed_wizardNotifyBot (h.hasPair hpress.1 (by decide)) row.hasSettings)
  apply allAllowed_ite (fun hpress => allAllowed_wizardNotifyBack (h.hasPair hpress.1 (by decide)))
  apply allAllowed_ite (fun _ => allAllowed_clear)
  apply allAllowed_ite (fun hpress =>
    allAllowed_wizardNotifyChannel (h.hasPair hpress.1 (by decide)))
  apply allAllowed_ite (fun hpress => allAllowed_wizardConfirm (h.hasPair hpress.1 (by decide)))
  apply allAllowed_ite (fun _ => allAllowed_enter "edit")
  apply allAllowed_ite (fun _ => allAllowed_changeQueue row.known)
  exact allAllowed_nil

theorem allAllowed_writes {d : Dialog} (h : d.Inv) (u : Update) : d.AllAllowed (d.writes u) := by
  cases u with
  | start registers =>
    unfold writes cmdStart
    dsimp only
    split
    . exact ⟨trivial, allAllowed_enter "new"⟩
    . exact allAllowed_clear
  | press callbackData row => exact allAllowed_pressed h callbackData row
  | otherHandler clears =>
    unfold writes
    dsimp only
    split
    . exact allAllowed_clear
    . refine ⟨⟨?_, nofun⟩, trivial⟩
      intro hafter
      exact absurd hafter (by decide)
  | lost => exact allAllowed_clear

theorem inv_step {d d' : Dialog} {u : Update × Nat} (h : d.Inv) (hstep : d.step u = some d') : d'.Inv := by
  cases hstep
  exact h.foldl_take (allAllowed_writes h u.1) u.2

/--
After the choice of the queue the data have a valid pair, and only valid pairs are stored.
-/
theorem storesValidPairs {d : Dialog} {updates : List (Update × Nat)}
    (hrun : Run.exec step {} updates = some d)
    : (d.fsm ∈ afterQueue → HasPair d.data) ∧ ∀ pair ∈ d.saved, IsValidPair pair.1 pair.2 := by
  have hinv := Run.invariant' inv_step inv_start hrun
  exact ⟨hinv.pair, hinv.saved⟩

def kyivRun : List (Update × Nat) := [
  (.start true, 3), (.press "region_kyiv" ⟨false, false⟩, 2), (.press "queue_7.1" ⟨false, false⟩, 2),
  (.press "back_to_region" ⟨false, false⟩, 1), (.press "region_odesa" ⟨false, false⟩, 1),
  (.press "region_kyiv" ⟨false, false⟩, 2), (.press "queue_12.1" ⟨false, false⟩, 2),
  (.press "wizard_notify_bot" ⟨true, true⟩, 3)]

theorem storesValidPairs_kyivRun
    : ∃ d, Run.exec step {} kyivRun = some d ∧ d.fsm = .botNotifications ∧
        d.saved = [("kyiv", "12.1")] ∧
        (d.fsm ∈ afterQueue → HasPair d.data) ∧ ∀ pair ∈ d.saved, IsValidPair pair.1 pair.2 := by
  have hend : (Run.exec step {} kyivRun).map (fun d => (d.fsm, d.saved)) =
      some (.botNotifications, [("kyiv", "12.1")]) := by
    decide +kernel
  obtain ⟨d, hd, hpair⟩ := Option.map_eq_some_iff.mp hend
  exact ⟨d, hd, (Prod.mk.inj hpair).1, (Prod.mk.inj hpair).2, storesValidPairs hd⟩

end Dialog

end Wizard
