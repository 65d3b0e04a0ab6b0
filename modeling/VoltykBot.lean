import VoltykBot.Lib.KeyDiff
import VoltykBot.Lib.Latest
import VoltykBot.Lib.Paint
import VoltykBot.Power.Debounce
import VoltykBot.Power.Restore
import VoltykBot.Power.Recorded
import VoltykBot.Power.Week
import VoltykBot.Power.Edits
import VoltykBot.Power.Departed
import VoltykBot.Power.Eviction
import VoltykBot.Power.RestartTime
import VoltykBot.Power.OwnUser
import VoltykBot.Power.PingSpacing
import VoltykBot.Power.CheckCycle
import VoltykBot.Schedule.Detector
import VoltykBot.Schedule.Loops
import VoltykBot.Schedule.Classify
import VoltykBot.Schedule.Announce
import VoltykBot.Schedule.Fanout
import VoltykBot.Schedule.Outdated
import VoltykBot.Schedule.Patch
import VoltykBot.Schedule.Overnight
import VoltykBot.Schedule.Interrupted
import VoltykBot.Schedule.HourStates
import VoltykBot.Reminders.Channels
import VoltykBot.Reminders.Once
import VoltykBot.Reminders.Cleanup
import VoltykBot.Reminders.OutageEnd
import VoltykBot.Reminders.OldRows
import VoltykBot.Reminders.ReminderText
import VoltykBot.Reminders.TimerPopup
import VoltykBot.Schedule.ParsedForm
import VoltykBot.Schedule.Message
import VoltykBot.Schedule.SourceEtags
import VoltykBot.Schedule.Metadata
import VoltykBot.Schedule.Fetch
import VoltykBot.Schedule.Tokens
import VoltykBot.Utils.RateLimiter
import VoltykBot.Utils.Reference
import VoltykBot.Utils.BreakerCalls
import VoltykBot.Utils.AddressVerdict
import VoltykBot.Handlers.Broadcast
import VoltykBot.Handlers.BroadcastProgress
import VoltykBot.Handlers.Wizard
import VoltykBot.Lib.Ipv4
import VoltykBot.Handlers.ChannelOwners
import VoltykBot.Utils.AppendTimestamp
import VoltykBot.Utils.HtmlRender
import VoltykBot.Utils.SafeEdit
import VoltykBot.App.Supervisor
import VoltykBot.Middlewares.Throttle
import VoltykBot.Handlers.ActiveAlerts
import VoltykBot.Handlers.ScheduleCheck
import VoltykBot.Handlers.SwitchRuns
import VoltykBot.Handlers.UserRelations
import VoltykBot.AutoDelete.Starvation
import VoltykBot.AutoDelete.Blocked
import VoltykBot.AutoDelete.Turns
import VoltykBot.Power.Duration
import VoltykBot.Lib.Recording
import VoltykBot.Power.Ledger
import VoltykBot.Power.Cooldown
