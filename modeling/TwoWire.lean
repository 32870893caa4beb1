import TwoWire.Bus.Basic
import TwoWire.Bus.Faults
import TwoWire.Bus.Replay
import TwoWire.Bus.Simulation
import TwoWire.Checker.Arrival
import TwoWire.Checker.Basic
import TwoWire.Checker.Progress
import TwoWire.Checker.Protocol
import TwoWire.Checker.Reaction
import TwoWire.Checker.Run
import TwoWire.Config
import TwoWire.Config.Format
import TwoWire.Controller.Program
import TwoWire.Controller.Timing
import TwoWire.Grammar.Phase
import TwoWire.Grammar.Responses
import TwoWire.Grammar.Shifter
import TwoWire.Json.Library
import TwoWire.Json.Reader
import TwoWire.Json.Records
import TwoWire.Json.Token
import TwoWire.Json.Value
import TwoWire.Json.Writer
import TwoWire.Probe.Basic
import TwoWire.Probe.Edge
import TwoWire.Probe.Idle
import TwoWire.Probe.Journal
import TwoWire.Probe.Lines
import TwoWire.Probe.Still
import TwoWire.Probe.Stretch
import TwoWire.Probe.Watch
import TwoWire.Proofs.Account
import TwoWire.Proofs.Answer
import TwoWire.Proofs.Beat
import TwoWire.Proofs.Clocked
import TwoWire.Proofs.Elapse
import TwoWire.Proofs.Findings
import TwoWire.Proofs.Follow
import TwoWire.Proofs.Forward
import TwoWire.Proofs.Frame
import TwoWire.Proofs.Octet
import TwoWire.Proofs.Pace
import TwoWire.Proofs.Pulses
import TwoWire.Proofs.Rest
import TwoWire.Proofs.Scenario
import TwoWire.Proofs.Sound
import TwoWire.Proofs.Stage
import TwoWire.Proofs.StartUp
import TwoWire.Proofs.Talk
import TwoWire.Proofs.Transaction
import TwoWire.Proofs.Turn
import TwoWire.Proofs.Underway
import TwoWire.Proofs.Wired
import TwoWire.Random.ChaCha
import TwoWire.Random.Source
import TwoWire.Random.Stream
import TwoWire.Report.Record
import TwoWire.Report.RecordLog
import TwoWire.Speed.Class
import TwoWire.Speed.Meter
import TwoWire.Time
import TwoWire.Time.Source
import TwoWire.Timing
import TwoWire.Wire
import TwoWire.Proofs.Course
import TwoWire.Proofs.Levels
import TwoWire.Proofs.Rerun
import TwoWire.Proofs.History
import TwoWire.Proofs.Framing
import TwoWire.Proofs.Segment
import TwoWire.Proofs.Reported
import TwoWire.Proofs.Passage
import TwoWire.Proofs.Steady
import TwoWire.Proofs.Calls
import TwoWire.Proofs.Driven
import TwoWire.Proofs.Spending
import TwoWire.Proofs.Ways
import TwoWire.Proofs.Released
import TwoWire.Proofs.Decided
import TwoWire.Proofs.Sourced
import TwoWire.Proofs.Refused
import TwoWire.Proofs.Endings
import TwoWire.Proofs.Wakeups
import TwoWire.Proofs.Finite
import TwoWire.Proofs.Stretched
import TwoWire.Proofs.Faults
import TwoWire.Proofs.Simultaneous
import TwoWire.Proofs.Stray
import TwoWire.Proofs.Moments
import TwoWire.Proofs.Range
import TwoWire.Proofs.Timings
import TwoWire.Proofs.Intervals
import TwoWire.Proofs.Timed
import TwoWire.Proofs.Excursion
import TwoWire.Proofs.Window
import TwoWire.Proofs.Unjudged
import TwoWire.Proofs.Abreast
import TwoWire.Proofs.Stutters
import TwoWire.Proofs.CutShort
import TwoWire.Proofs.Forgets
import TwoWire.Proofs.Spurious
import TwoWire.Proofs.Twins
import TwoWire.Proofs.TwoBuses
import TwoWire.Proofs.Advance
import TwoWire.Proofs.FirstChange
import TwoWire.Proofs.Stamped
import TwoWire.Proofs.Measured
import TwoWire.Proofs.Spans
import TwoWire.Proofs.Horizon
import TwoWire.Proofs.Later
import TwoWire.Proofs.Postponed
import TwoWire.Proofs.Retained
import TwoWire.Proofs.Noticed
import TwoWire.Proofs.Transitions
import TwoWire.Proofs.Retraced
import TwoWire.Proofs.Reach
import TwoWire.Proofs.Mirrored
import TwoWire.Proofs.Laid
import TwoWire.Proofs.Jittered
import TwoWire.Proofs.Shortened
import TwoWire.Proofs.Wording
import TwoWire.Proofs.Legible
import TwoWire.Proofs.Lexed
import TwoWire.Proofs.Reread
import TwoWire.Proofs.Codecs
import TwoWire.Proofs.Configured
import TwoWire.Proofs.Passes
import TwoWire.Proofs.Distance
