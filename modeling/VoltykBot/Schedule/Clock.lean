/-!
This module contains the wall clock of the scheduler.
-/

namespace Scheduler

/--
What `datetime.now(KYIV_TZ)` shows, in microseconds since the midnight that begins day 0. Python compares
and subtracts two datetimes of one zone by what they show.
-/
abbrev WallTime := Int

abbrev Date := Int

def minuteUs : Int := 60 * 1000000

def hourUs : Int := 3600 * 1000000

def dayUs : Int := 24 * hourUs

namespace WallTime

def date (t : WallTime) : Date := t / dayUs

def hour (t : WallTime) : Int := t % dayUs / hourUs

def atSix (t : WallTime) : WallTime := t.date * dayUs + 6 * hourUs

def nextTarget (now : WallTime) : WallTime :=
  if now ≥ now.atSix then now.atSix + dayUs else now.atSix

def isQuietHours (t : WallTime) : Bool := t.hour < 6

end WallTime

abbrev Pair := String × String

end Scheduler
