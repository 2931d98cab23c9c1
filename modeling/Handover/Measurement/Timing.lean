import Handover.Config.Error

/-!
# Standard times

A terminal can only be asked for the times that the radio protocol lists: how
long the condition of an event has to hold, and how often a report is repeated.
-/

namespace Handover

/-- Text of a standard time. -/
def standardTimeName (millis : UInt32) : String :=
  "Ms" ++ toString millis.toNat

/-- How long the condition of an event has to hold before a report. -/
structure TimeToTrigger where
  /-- The time in milliseconds. -/
  millis : UInt32
  /-- The time is one of the listed ones. -/
  standard : millis ∈
    [0, 40, 64, 80, 100, 128, 160, 256, 320, 480, 512, 640, 1024, 1280, 2560, 5120]
deriving DecidableEq, Repr

/-- How often a report is repeated. -/
structure ReportInterval where
  /-- The time in milliseconds. -/
  millis : UInt32
  /-- The time is one of the listed ones. -/
  standard : millis ∈ [120, 240, 480, 640, 1024, 2048, 5120, 10240]
deriving DecidableEq, Repr

namespace TimeToTrigger

/-- No waiting. -/
def zero : TimeToTrigger :=
  ⟨0, by decide⟩

/-- The standard time of exactly this many milliseconds. -/
def ofMillis {α : Type} (millis : UInt32) : Except (ConfigError α) TimeToTrigger :=
  if standard : millis ∈
      [0, 40, 64, 80, 100, 128, 160, 256, 320, 480, 512, 640, 1024, 1280, 2560, 5120] then
    .ok ⟨millis, standard⟩
  else
    .error (.timeToTrigger millis)

/-- Text of the time. -/
def name (time : TimeToTrigger) : String :=
  standardTimeName time.millis

end TimeToTrigger

namespace ReportInterval

/-- The shortest interval. -/
def shortest : ReportInterval :=
  ⟨120, by decide⟩

/-- The standard interval of exactly this many milliseconds. -/
def ofMillis {α : Type} (millis : UInt32) : Except (ConfigError α) ReportInterval :=
  if standard : millis ∈ [120, 240, 480, 640, 1024, 2048, 5120, 10240] then
    .ok ⟨millis, standard⟩
  else
    .error (.reportInterval millis)

/-- Text of the interval. -/
def name (interval : ReportInterval) : String :=
  standardTimeName interval.millis

end ReportInterval

end Handover
