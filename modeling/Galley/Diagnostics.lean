import Galley.Text.Integer

/-!
# Diagnostics

Warnings and errors go to the standard error stream through one channel. Once it is set up, the
channel has a single sink and writes the records that reach its level, one line each.
-/

namespace Galley

structure Record where
  level : Int
  message : String
  deriving DecidableEq, Repr

namespace Record

def warningLevel : Int := 30

def errorLevel : Int := 40

def warning (message : String) : Record := ⟨warningLevel, message⟩

def error (message : String) : Record := ⟨errorLevel, message⟩

def levelName (level : Int) : String :=
  if level = 10 then "DEBUG"
  else if level = 20 then "INFO"
  else if level = 30 then "WARNING"
  else if level = 40 then "ERROR"
  else if level = 50 then "CRITICAL"
  else "Level " ++ Text.integer level

def line (record : Record) : String :=
  levelName record.level ++ ": " ++ record.message ++ "\n"

end Record

/-- Where records go: to the sinks of the channel and, as long as it propagates, to the channel
above, which is not part of this account. Level 0 stands for the level above. -/
structure Channel where
  level : Int := 0
  propagates : Bool := true
  sinks : Nat := 0
  deriving DecidableEq, Repr

namespace Channel

/-- Sets a level. A sink is added only when there is none. -/
def configure (channel : Channel) (level : Int) : Channel :=
  ⟨level, false, if channel.sinks = 0 then 1 else channel.sinks⟩

/-- The channel as it is set up for a run. -/
def default : Channel :=
  Channel.configure {} Record.warningLevel

/-- The level that a record has to reach. -/
def threshold (channel : Channel) : Int :=
  if channel.level = 0 then Record.warningLevel else channel.level

/-- What a record makes the sinks write. -/
def write (channel : Channel) (record : Record) : String :=
  if 1 ≤ record.level && channel.threshold ≤ record.level then
    String.join (List.replicate channel.sinks record.line)
  else ""

def writeAll (channel : Channel) (records : List Record) : String :=
  String.join (records.map channel.write)

end Channel

end Galley
