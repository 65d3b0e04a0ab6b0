import VoltykBot.Lib.Run

/-!
This module contains the dialog in which an admin writes, previews and sends a broadcast, and the runs in
which only previewed texts are sent.
-/

namespace Broadcast

def broadcastHeader : String := "📢 <b>Повідомлення від адміністрації:</b>\n\n"

def broadcastMaxTextLen : Nat := 4096 - broadcastHeader.length

inductive FsmState where
  | none
  | waitingForText
  | preview
  | other
  deriving DecidableEq, Repr

inductive LogEntry where
  | accepted (text : String)
  | cleared
  deriving DecidableEq, Repr

structure Start where
  fullText : String
  preview : Nat
  deriving DecidableEq, Repr

/--
The dialog of one admin. `text` is `broadcast_text` of the data, and `previews` has the texts of the
preview messages that were sent. No handler reads `started` and `log`, which has the last entry first.
-/
structure Dialog where
  fsm : FsmState := .none
  text : Option String := none
  running : Bool := false
  previews : List String := []
  started : List Start := []
  log : List LogEntry := []
  deriving DecidableEq, Repr

/--
What the admin does. A press is `answered` unless `callback.answer` raises. A preview message is not
`sent` if the API rejects its text; its buttons can be pressed at any later time. `otherHandler` is any
other handler that writes to the state: it sets one of its own states or clears state and data.
-/
inductive Action where
  | openDialog (answered : Bool)
  | message (text : Option String) (sent : Bool)
  | pressEdit (answered : Bool)
  | pressCancel (answered : Bool)
  | pressConfirm (preview : Nat) (answered : Bool)
  | otherHandler (clears : Bool)
  | broadcastStarted
  | broadcastFinished
  deriving DecidableEq, Repr

namespace Dialog

variable (d : Dialog)

def clear : Dialog := { d with fsm := .none, text := none, log := .cleared :: d.log }

def adminBroadcast (answered : Bool) : Dialog :=
  if d.running then d else if answered then { d with fsm := .waitingForText } else d

def Accepted (text : String) : Prop := text ≠ "" ∧ text.length ≤ broadcastMaxTextLen

instance (text : String) : Decidable (Accepted text) := inferInstanceAs (Decidable (_ ∧ _))

def broadcastText (text : Option String) (sent : Bool) : Dialog :=
  match text with
  | none => d
  | some text =>
    if Accepted text then
      { d with
        fsm := .preview
        text := some text
        previews := if sent then d.previews ++ [text] else d.previews
        log := .accepted text :: d.log }
    else
      d

def broadcastEditText (answered : Bool) : Dialog :=
  if answered then { d with fsm := .waitingForText } else d

def broadcastCancel (answered : Bool) : Dialog := if answered then d.clear else d

/--
`broadcast_confirm_send`, which does not ask for the state
-/
def broadcastConfirmSend (preview : Nat) (answered : Bool) : Dialog :=
  if d.running then
    d
  else if answered then
    { d.clear with
      running := true
      started := { fullText := broadcastHeader ++ d.text.getD "", preview := preview } :: d.started }
  else
    d.clear

def step (a : Action) : Option Dialog :=
  match a with
  | .openDialog answered => some (d.adminBroadcast answered)
  | .message text sent =>
    -- in other states the message goes to other handlers
    if d.fsm = .waitingForText then some (d.broadcastText text sent) else some d
  | .pressEdit answered => some (d.broadcastEditText answered)
  | .pressCancel answered => some (d.broadcastCancel answered)
  | .pressConfirm preview answered =>
    if preview < d.previews.length then some (d.broadcastConfirmSend preview answered) else none
  | .otherHandler clears => some (if clears then d.clear else { d with fsm := .other })
  -- the broadcast of another admin
  | .broadcastStarted => if d.running then none else some { d with running := true }
  | .broadcastFinished => some { d with running := false }

/--
The text of each broadcast is the header with the accepted text of the preview that was confirmed.
-/
def SendsPreviewed : Prop :=
  ∀ start ∈ d.started, ∃ text, d.previews[start.preview]? = some text ∧ Accepted text ∧
    start.fullText = broadcastHeader ++ text

def lastAccepted : Option String :=
  match d.log with
  | .accepted text :: _ => some text
  | _ => none

/--
A press that starts a broadcast is on a preview of the text that was accepted last, and nothing has
cleared the data since.
-/
def ConfirmsLast (a : Action) : Prop :=
  match a with
  | .pressConfirm preview true => d.running = false → d.previews[preview]? = d.lastAccepted
  | _ => True

instance (a : Action) : Decidable (d.ConfirmsLast a) :=
  match a with
  | .pressConfirm _ true => inferInstanceAs (Decidable (_ → _))
  | .pressConfirm _ false => isTrue trivial
  | .openDialog _ => isTrue trivial
  | .message _ _ => isTrue trivial
  | .pressEdit _ => isTrue trivial
  | .pressCancel _ => isTrue trivial
  | .otherHandler _ => isTrue trivial
  | .broadcastStarted => isTrue trivial
  | .broadcastFinished => isTrue trivial

structure Inv : Prop where
  sends : d.SendsPreviewed
  text : d.text = d.lastAccepted
  accepted : ∀ text ∈ d.previews, Accepted text

variable {d}

theorem inv_start : Inv {} := by
  constructor
  . intro start hstart
    cases hstart
  . rfl
  . intro text htext
    cases htext

theorem Inv.clear (h : d.Inv) : d.clear.Inv := ⟨h.sends, rfl, h.accepted⟩

theorem Inv.of_eq {d' : Dialog} (h : d.Inv) (hstarted : d'.started = d.started)
    (hpreviews : d'.previews = d.previews) (htext : d'.text = d.text) (hlog : d'.log = d.log)
    : d'.Inv := by
  constructor
  . unfold SendsPreviewed
    rw [hstarted, hpreviews]
    exact h.sends
  . unfold lastAccepted
    rw [htext, hlog]
    exact h.text
  . rw [hpreviews]
    exact h.accepted

theorem Inv.broadcastText (h : d.Inv) (text : Option String) (sent : Bool)
    : (d.broadcastText text sent).Inv := by
  unfold Dialog.broadcastText
  split
  . exact h
  . next text =>
    split
    . next haccepted =>
      constructor
      . intro start hstart
        obtain ⟨shown, hshown, hrest⟩ := h.sends start hstart
        refine ⟨shown, ?_, hrest⟩
        dsimp only
        split
        . rw [List.getElem?_append_left (List.getElem?_eq_some_iff.mp hshown).1]
          exact hshown
        . exact hshown
      . rfl
      . intro shown hshown
        dsimp only at hshown
        split at hshown
        . cases List.mem_append.mp hshown with
          | inl hold => exact h.accepted shown hold
          | inr hnew => exact List.mem_singleton.mp hnew ▸ haccepted
        . exact h.accepted shown hshown
    . exact h

theorem sendsPreviewed_confirm (h : d.Inv) {preview : Nat} (hpreview : preview < d.previews.length)
    : (d.broadcastConfirmSend preview true).SendsPreviewed ↔ d.ConfirmsLast (.pressConfirm preview true) := by
  have hshown : d.previews[preview]? = some d.previews[preview] := List.getElem?_eq_getElem hpreview
  have haccepted := h.accepted _ (List.getElem_mem hpreview)
  unfold broadcastConfirmSend ConfirmsLast
  split
  . next hrunning =>
    refine iff_of_true h.sends fun hnot => ?_
    rw [hrunning] at hnot
    cases hnot
  . next hrunning =>
    rw [Bool.not_eq_true] at hrunning
    rw [if_pos rfl]
    dsimp only
    rw [imp_iff_right hrunning, ← h.text, hshown]
    constructor
    . intro hsends
      obtain ⟨text, htext, _, hfull⟩ := hsends _ List.mem_cons_self
      have htext : d.previews[preview]? = some text := htext
      rw [hshown, Option.some_inj] at htext
      rw [String.append_right_inj] at hfull
      cases hdata : d.text with
      | none =>
        rw [hdata, Option.getD_none] at hfull
        rw [htext] at haccepted
        exact absurd hfull.symm haccepted.1
      | some sent =>
        rw [hdata, Option.getD_some] at hfull
        rw [htext, hfull]
    . intro htext start hstart
      cases List.mem_cons.mp hstart with
      | inl hnew =>
        rw [hnew]
        refine ⟨_, hshown, haccepted, ?_⟩
        dsimp only
        rw [← htext, Option.getD_some]
      | inr hold => exact h.sends start hold

theorem inv_step {d' : Dialog} {a : Action} (h : d.Inv) (hstep : d.step a = some d')
    : (d.ConfirmsLast a → d'.Inv) ∧ (¬ d.ConfirmsLast a → ¬ d'.SendsPreviewed) := by
  have hfree (ha : d.ConfirmsLast a) (hinv : d'.Inv)
      : (d.ConfirmsLast a → d'.Inv) ∧ (¬ d.ConfirmsLast a → ¬ d'.SendsPreviewed) :=
    ⟨fun _ => hinv, fun hnot => absurd ha hnot⟩
  cases a with
  | openDialog answered =>
    cases hstep
    apply hfree trivial
    unfold adminBroadcast
    split
    . exact h
    . split
      . exact h.of_eq rfl rfl rfl rfl
      . exact h
  | message text sent =>
    unfold step at hstep
    dsimp only at hstep
    split at hstep
    . cases hstep
      exact hfree trivial (h.broadcastText text sent)
    . cases hstep
      exact hfree trivial h
  | pressEdit answered =>
    cases hstep
    apply hfree trivial
    unfold broadcastEditText
    split
    . exact h.of_eq rfl rfl rfl rfl
    . exact h
  | pressCancel answered =>
    cases hstep
    apply hfree trivial
    unfold broadcastCancel
    split
    . exact h.clear
    . exact h
  | pressConfirm preview answered =>
    unfold step at hstep
    dsimp only at hstep
    split at hstep
    . next hpreview =>
      cases hstep
      cases answered with
      | true =>
        have hconfirm := sendsPreviewed_confirm h hpreview
        refine ⟨fun hlast => ⟨hconfirm.mpr hlast, ?_, ?_⟩, fun hnot hsends => hnot (hconfirm.mp hsends)⟩
        . unfold broadcastConfirmSend
          split
          . exact h.text
          . rfl
        . unfold broadcastConfirmSend
          split
          . exact h.accepted
          . exact h.accepted
      | false =>
        apply hfree trivial
        unfold broadcastConfirmSend
        split
        . exact h
        . exact h.clear
    . cases hstep
  | otherHandler clears =>
    cases hstep
    apply hfree trivial
    split
    . exact h.clear
    . exact h.of_eq rfl rfl rfl rfl
  | broadcastStarted =>
    unfold step at hstep
    dsimp only at hstep
    split at hstep
    . cases hstep
    . cases hstep
      exact hfree trivial (h.of_eq rfl rfl rfl rfl)
  | broadcastFinished =>
    cases hstep
    exact hfree trivial (h.of_eq rfl rfl rfl rfl)

theorem sendsPreviewed_iff {d : Dialog} {actions : List Action} (hrun : Run.exec step {} actions = some d)
    : Run.Always step SendsPreviewed {} actions ↔ Run.StepsMeet step ConfirmsLast {} actions := by
  refine Run.always_iff_stepsMeet (fun h hlast hstep => (inv_step h hstep).1 hlast)
    (fun h => h.sends) ?_ inv_start hrun
  exact fun h hnot hstep => (inv_step h hstep).2 hnot

def correctedText : List Action := [
  .openDialog true, .message (some "Планові роботи") true, .pressEdit true,
  .message (some "Планові роботи завтра") true, .pressConfirm 1 true, .broadcastFinished]

theorem sendsPreviewed_correctedText : Run.Always step SendsPreviewed {} correctedText := by
  have hrun : (Run.exec step {} correctedText).isSome := by decide +kernel
  exact (sendsPreviewed_iff (Option.some_get hrun).symm).mpr (by decide +kernel)

def earlierPreview (second : Action) : List Action := [
  .openDialog true, .message (some "Планові роботи") true, .openDialog true, second, .pressConfirm 0 true]

theorem not_sendsPreviewed_earlierPreview
    : (∃ d, Run.exec step {} (earlierPreview (.message (some "Чернетка") true)) = some d ∧
        ¬ d.SendsPreviewed) ∧
      ∃ d, Run.exec step {} (earlierPreview (.pressCancel true)) = some d ∧ ¬ d.SendsPreviewed := by
  constructor
  . have hend : (Run.exec step {} (earlierPreview (.message (some "Чернетка") true))).map
        (fun d => (d.started, d.previews)) =
          some ([⟨broadcastHeader ++ "Чернетка", 0⟩], ["Планові роботи", "Чернетка"]) := by
      decide +kernel
    obtain ⟨d, hd, hpair⟩ := Option.map_eq_some_iff.mp hend
    refine ⟨d, hd, ?_⟩
    intro hsends
    unfold SendsPreviewed at hsends
    rw [(Prod.mk.inj hpair).1, (Prod.mk.inj hpair).2] at hsends
    obtain ⟨text, htext, _, hfull⟩ := hsends _ List.mem_cons_self
    rw [String.append_right_inj] at hfull
    rw [← hfull] at htext
    revert htext
    decide
  . have hend : (Run.exec step {} (earlierPreview (.pressCancel true))).map (·.started) =
        some [⟨broadcastHeader ++ "", 0⟩] := by
      decide +kernel
    obtain ⟨d, hd, hstarted⟩ := Option.map_eq_some_iff.mp hend
    refine ⟨d, hd, ?_⟩
    intro hsends
    unfold SendsPreviewed at hsends
    rw [hstarted] at hsends
    obtain ⟨text, _, haccepted, hfull⟩ := hsends _ List.mem_cons_self
    rw [String.append_right_inj] at hfull
    exact haccepted.1 hfull.symm

end Dialog

end Broadcast
