import VoltykBot.Power.State
import VoltykBot.Reminders.NextEvent

/-!
This module contains the texts of power messages: the one that `_handle_power_state_change` composes, the
one that `update_power_notifications_on_schedule_change` replaces it with, and when the two have the same
headline and the same duration.
-/

namespace PowerMonitor

open Scheduler (NextEvent IsoTime)

/--
The offsets from UTC, in seconds: of `KYIV_TZ`, and of the datetimes that the database returns.
-/
structure Zones where
  kyiv : Time → Int
  database : Time → Int

def pad2 (n : Int) : String :=
  if n < 10 then "0" ++ toString n else toString n

/--
`strftime("%H:%M")` of an instant in a zone.
-/
def hourMinute (zone : Time → Int) (t : Time) : String :=
  let shown := t + seconds (zone t)
  pad2 (shown / seconds 3600 % 24) ++ ":" ++ pad2 (shown / seconds 60 % 60)

def formatTime (t : IsoTime) : String :=
  pad2 (t.half / 2 : Nat) ++ ":" ++ pad2 (t.half % 2 * 30 : Nat)

def hoursMinutes (hours minutes : Int) : String :=
  if hours = 0 then
    if minutes = 0 then "менше хвилини" else toString minutes ++ " хв"
  else if minutes = 0 then
    toString hours ++ " год"
  else
    toString hours ++ " год " ++ toString minutes ++ " хв"

/--
`_format_exact_duration`, of a duration that is given in microseconds.
-/
def formatExactDuration (total : Time) : String :=
  let totalMinutes := total / seconds 60
  hoursMinutes (totalMinutes / 60) (totalMinutes % 60)

structure Message where
  headline : String
  durationLine : String
  scheduleText : String
  deriving DecidableEq, Repr

def Message.text (message : Message) : String :=
  message.headline ++ "\n" ++ message.durationLine ++ message.scheduleText

def headline (state : PowerState) (timeStr : String) : String :=
  match state with
  | .off => "🔴 <b>" ++ timeStr ++ "Світло зникло</b>"
  | .on => "🟢 <b>" ++ timeStr ++ "Світло з'явилося</b>"

def durationLine (state : PowerState) (durationText : String) : String :=
  let shown := if durationText = "" then "—" else durationText
  match state with
  | .off => "🕓 Воно було " ++ shown
  | .on => "🕓 Його не було " ++ shown

def plannedLine (next : NextEvent) : String :=
  match next.endTime with
  | some endTime =>
    "\n🗓 Наступне планове: <b>" ++ formatTime next.time ++ " - " ++ formatTime endTime ++ "</b>"
  | none => "\n🗓 Наступне планове: <b>" ++ formatTime next.time ++ "</b>"

def returnLine (next : NextEvent) : String :=
  "\n🗓 Світло має з'явитися: <b>" ++ formatTime next.time ++ "</b>"

/-! ## `_handle_power_state_change` -/

inductive PowerMessageType where
  | offScheduled
  | offUnscheduled
  | onWithNext
  | onNoNext
  deriving DecidableEq, Repr

def isScheduledOutage (next : Option NextEvent) : Bool :=
  next.any (·.type = .powerOn)

def scheduleText (newState : PowerState) (next : Option NextEvent) : String :=
  match newState, next with
  | .off, some ev =>
    if isScheduledOutage next then returnLine ev else "\n⚠️ Позапланове відключення"
  | .off, none => "\n⚠️ Позапланове відключення"
  | .on, some ev => if ev.type = .powerOff then plannedLine ev else ""
  | .on, none => ""

def powerMessageType (newState : PowerState) (next : Option NextEvent) : PowerMessageType :=
  match newState with
  | .off => if isScheduledOutage next then .offScheduled else .offUnscheduled
  | .on => if next.any (·.type = .powerOff) then .onWithNext else .onNoNext

/--
What the handler composes its message from. `timeStr` is the hour and minute of `event_time`.
-/
structure Notice where
  newState : PowerState
  timeStr : String
  duration : Option Time
  scheduleText : String
  deriving DecidableEq

def sentDurationText (duration : Option Time) : String :=
  match duration with
  | some d => if d < seconds 60 then "менше хвилини" else formatExactDuration d
  | none => ""

def Notice.message (notice : Notice) : Message where
  headline := headline notice.newState (notice.timeStr ++ " ")
  durationLine := durationLine notice.newState (sentDurationText notice.duration)
  scheduleText := notice.scheduleText

/-! ## `update_power_notifications_on_schedule_change` -/

def newScheduleLine (currentState : PowerState) (next : Option NextEvent) : Option String :=
  match currentState, next with
  | .on, some ev => if ev.type = .powerOff then some (plannedLine ev) else none
  | .off, some ev => if ev.type = .powerOn then some (returnLine ev) else none
  | _, none => none

def editMessage (zones : Zones) (currentState : PowerState) (powerChangedAt : Option Time) (now : Time)
    (newScheduleLine : String) : Message :=
  -- without the `or '—'` that the text for a channel lacks the line is the same
  match powerChangedAt with
  | some changed => {
      headline := headline currentState (hourMinute zones.kyiv changed ++ " ")
      durationLine := durationLine currentState (formatExactDuration (now - changed))
      scheduleText := newScheduleLine }
  | none => {
      headline := headline currentState ""
      durationLine := durationLine currentState "—"
      scheduleText := newScheduleLine }

def Message.SameButSchedule (message message' : Message) : Prop :=
  message.headline = message'.headline ∧ message.durationLine = message'.durationLine

instance (message message' : Message) : Decidable (message.SameButSchedule message') :=
  inferInstanceAs (Decidable (_ ∧ _))

def shownMinutes (duration : Time) : Int :=
  if duration < seconds 60 then 0 else duration / seconds 60

theorem repr_inj_nat {m n : Nat} (h : m.repr = n.repr) : m = n := by
  have hdigits := congrArg String.toList h
  rw [Nat.toList_repr, Nat.toList_repr] at hdigits
  rw [← Nat.ofDigitChars_toDigits (b := 10) (n := m) (by decide) (by decide), hdigits,
    Nat.ofDigitChars_toDigits (by decide) (by decide)]

theorem isDigit_of_mem_repr {n : Nat} {c : Char} (h : c ∈ n.repr.toList) : c.isDigit = true := by
  rw [Nat.toList_repr] at h
  exact Nat.isDigit_of_mem_toDigits (by decide) (by decide) h

theorem repr_ne_minus (m : Nat) (s : String) : m.repr ≠ "-" ++ s := by
  intro h
  have hmem : '-' ∈ m.repr.toList := by
    rw [h]
    simp
  cases isDigit_of_mem_repr hmem

theorem toString_inj {m n : Int} (h : toString m = toString n) : m = n := by
  rw [Int.toString_eq_repr, Int.toString_eq_repr, Int.repr_eq_if, Int.repr_eq_if] at h
  split at h
  . split at h
    . have := repr_inj_nat h
      omega
    . exact absurd h (repr_ne_minus _ _)
  . split at h
    . exact absurd h.symm (repr_ne_minus _ _)
    . rw [String.append_right_inj] at h
      have := repr_inj_nat h
      omega

theorem ne_blank_of_mem_toString {n : Int} {c : Char} (h : c ∈ (toString n).toList) : c ≠ ' ' := by
  rintro rfl
  rw [Int.toString_eq_repr, Int.repr_eq_if] at h
  split at h
  . cases isDigit_of_mem_repr h
  . rw [String.toList_append, List.mem_append] at h
    cases h with
    | inl hminus => simp at hminus
    | inr hdigit => cases isDigit_of_mem_repr hdigit

theorem takeWhile_toString (n : Int) (rest : List Char)
    : ((toString n).toList ++ ' ' :: rest).takeWhile (· ≠ ' ') = (toString n).toList := by
  rw [List.takeWhile_append_of_pos]
  . simp
  . intro c hc
    exact decide_eq_true (ne_blank_of_mem_toString hc)

theorem dropWhile_toString (n : Int) (rest : List Char)
    : ((toString n).toList ++ ' ' :: rest).dropWhile (· ≠ ' ') = ' ' :: rest := by
  rw [List.dropWhile_append_of_pos]
  . simp
  . intro c hc
    exact decide_eq_true (ne_blank_of_mem_toString hc)

def numerals (text : List Char) : List Char × List Char :=
  let word := text.takeWhile (· ≠ ' ')
  let rest := text.dropWhile (· ≠ ' ')
  if rest = " хвилини".toList then
    (['0'], ['0'])
  else if rest = " хв".toList then
    (['0'], word)
  else if rest = " год".toList then
    (word, ['0'])
  else
    (word, (rest.drop 5).takeWhile (· ≠ ' '))

theorem numerals_hoursMinutes (hours minutes : Int)
    : numerals (hoursMinutes hours minutes).toList =
        ((toString hours).toList, (toString minutes).toList) := by
  unfold hoursMinutes
  by_cases hhours : hours = 0
  . rw [if_pos hhours]
    by_cases hminutes : minutes = 0
    . rw [if_pos hminutes, hhours, hminutes]
      decide
    . rw [if_neg hminutes, hhours]
      have hlist : (toString minutes ++ " хв").toList = (toString minutes).toList ++ ' ' :: ['х', 'в'] := by
        simp
      unfold numerals
      rw [hlist, takeWhile_toString, dropWhile_toString]
      rfl
  . rw [if_neg hhours]
    by_cases hminutes : minutes = 0
    . rw [if_pos hminutes, hminutes]
      have hlist : (toString hours ++ " год").toList =
          (toString hours).toList ++ ' ' :: ['г', 'о', 'д'] := by
        simp
      unfold numerals
      rw [hlist, takeWhile_toString, dropWhile_toString]
      rfl
    . rw [if_neg hminutes]
      have hlist : (toString hours ++ " год " ++ toString minutes ++ " хв").toList =
          (toString hours).toList ++
            ' ' :: (['г', 'о', 'д', ' '] ++ ((toString minutes).toList ++ ' ' :: ['х', 'в'])) := by
        simp
      unfold numerals
      rw [hlist, takeWhile_toString, dropWhile_toString]
      have hword := takeWhile_toString minutes ['х', 'в']
      simpa using hword

theorem hoursMinutes_inj {hours minutes hours' minutes' : Int}
    (h : hoursMinutes hours minutes = hoursMinutes hours' minutes')
    : hours = hours' ∧ minutes = minutes' := by
  have hnumerals := congrArg (fun text => numerals text.toList) h
  simp only [numerals_hoursMinutes, Prod.mk.injEq, String.toList_inj] at hnumerals
  exact ⟨toString_inj hnumerals.1, toString_inj hnumerals.2⟩

theorem formatExactDuration_inj {d d' : Time}
    : formatExactDuration d = formatExactDuration d' ↔ d / seconds 60 = d' / seconds 60 := by
  constructor
  . intro h
    rcases hoursMinutes_inj h with ⟨hhours, hminutes⟩
    rw [← Int.mul_ediv_add_emod (d / seconds 60) 60, hhours, hminutes, Int.mul_ediv_add_emod]
  . intro h
    unfold formatExactDuration
    rw [h]

theorem hoursMinutes_has_blank (hours minutes : Int) : ' ' ∈ (hoursMinutes hours minutes).toList := by
  unfold hoursMinutes
  split
  . split
    . decide
    . simp
  . split
    . simp
    . simp

theorem formatExactDuration_ne {d : Time} {text : String} (h : ' ' ∉ text.toList)
    : formatExactDuration d ≠ text := by
  rintro rfl
  exact h (hoursMinutes_has_blank _ _)

theorem sentDurationText_some (d : Time)
    : sentDurationText (some d) = formatExactDuration (seconds 60 * shownMinutes d) := by
  unfold sentDurationText shownMinutes
  dsimp only
  split
  . decide
  . rw [formatExactDuration_inj, Int.mul_ediv_cancel_left _ (by decide)]

theorem headline_inj {s s' : PowerState} {t t' : String}
    : headline s t = headline s' t' ↔ s = s' ∧ t = t' := by
  constructor
  . intro h
    cases s with
    | off =>
      cases s' with
      | off => simpa [headline] using h
      | on =>
        have hlist := congrArg String.toList h
        simp [headline] at hlist
    | on =>
      cases s' with
      | on => simpa [headline] using h
      | off =>
        have hlist := congrArg String.toList h
        simp [headline] at hlist
  . rintro ⟨rfl, rfl⟩
    rfl

theorem durationLine_inj {s : PowerState} {t t' : String} (ht : t ≠ "") (ht' : t' ≠ "")
    : durationLine s t = durationLine s t' ↔ t = t' := by
  unfold durationLine
  rw [if_neg ht, if_neg ht']
  cases s with
  | off => exact String.append_right_inj _
  | on => exact String.append_right_inj _

/--
The edit keeps the headline and the duration of the message if and only if the state that it reads is the one
sent, the change that it reads is of the hour and minute sent, and as many whole minutes have gone by since
that change as the message gives for the time between the last two changes.
-/
theorem sameButSchedule_editMessage {zones : Zones} {notice : Notice} {currentState : PowerState}
    {powerChangedAt : Option Time} {now : Time} {line : String}
    : (editMessage zones currentState powerChangedAt now line).SameButSchedule notice.message ↔
        currentState = notice.newState ∧ ∃ changed, powerChangedAt = some changed ∧
          hourMinute zones.kyiv changed = notice.timeStr ∧ ∃ d, notice.duration = some d ∧
            (now - changed) / seconds 60 = shownMinutes d := by
  have hempty (d : Time) : formatExactDuration d ≠ "" := formatExactDuration_ne (by decide)
  unfold Message.SameButSchedule Notice.message
  dsimp only
  cases powerChangedAt with
  | none =>
    constructor
    . rintro ⟨hheadline, _⟩
      have hlist := congrArg String.toList (headline_inj.mp hheadline).2
      simp at hlist
    . rintro ⟨_, changed, hchanged, _⟩
      cases hchanged
  | some changed =>
    dsimp only [editMessage]
    rw [headline_inj, String.append_left_inj, and_assoc]
    refine and_congr_right ?_
    rintro rfl
    cases hduration : notice.duration with
    | none =>
      constructor
      . rintro ⟨_, hline⟩
        have hdash : durationLine notice.newState (sentDurationText none) =
            durationLine notice.newState "—" := by
          rfl
        rw [hdash, durationLine_inj (hempty _) (by decide)] at hline
        exact absurd hline (formatExactDuration_ne (by decide))
      . rintro ⟨_, _, _, d, hd, _⟩
        cases hd
    | some d =>
      rw [sentDurationText_some, durationLine_inj (hempty _) (hempty _), formatExactDuration_inj,
        show seconds 60 * shownMinutes d / seconds 60 = shownMinutes d from
          Int.mul_ediv_cancel_left _ (by decide)]
      simp

end PowerMonitor
