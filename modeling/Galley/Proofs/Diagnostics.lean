import Mathlib.Data.List.Induction
import Galley.Diagnostics

/-!
# Diagnostics over whole runs

A record is logged at the channel of the program or at one below it, and passes upwards from there.
Between records the channel may be set up again any number of times.
-/

namespace Galley.Channel

/-! ## The way of a record -/

/-- A channel on the way of a record, and the form in which its sinks write records. -/
structure Stage where
  channel : Channel
  form : Record → String

/-- The level of the first channel on the way up that has one of its own. -/
def levelAlong : List Stage → Int
  | [] => 0
  | stage :: above => if stage.channel.level = 0 then levelAlong above else stage.channel.level

/-- What the sinks on the way up write, as far as the channels propagate. -/
def writtenAlong (record : Record) : List Stage → String
  | [] => ""
  | stage :: above =>
    String.join (List.replicate stage.channel.sinks (stage.form record)) ++
      if stage.channel.propagates then writtenAlong record above else ""

/-- What is written when a record is logged at the first channel of a way. -/
def logAlong (way : List Stage) (record : Record) : String :=
  if 1 ≤ record.level ∧ levelAlong way ≤ record.level then writtenAlong record way else ""

/-- The topmost channel. Its level is that of warnings, and its sinks write in a form of their
own. -/
structure Root where
  sinks : Nat
  form : Record → String

def Root.stage (root : Root) : Stage :=
  ⟨⟨Record.warningLevel, true, root.sinks⟩, root.form⟩

/-- The way up through the program's channel from one that some names lead down to. The channels
below have no levels and no sinks of their own. -/
def way (root : Root) (channel : Channel) (below : List String) : List Stage :=
  below.map (fun _ => ⟨{}, Record.line⟩) ++ [⟨channel, Record.line⟩, root.stage]

theorem levelAlong_way (root : Root) (channel : Channel) (below : List String) :
    levelAlong (way root channel below) = channel.threshold := by
  induction below with
  | nil => simp [way, levelAlong, threshold, Root.stage, Record.warningLevel]
  | cons name below ih => simpa [way, levelAlong] using ih

/-- A channel that does not propagate keeps a record from all sinks above it. -/
theorem writtenAlong_way (root : Root) {channel : Channel} (h : channel.propagates = false)
    (below : List String) (record : Record) :
    writtenAlong record (way root channel below) =
      String.join (List.replicate channel.sinks record.line) := by
  induction below with
  | nil => simp [way, writtenAlong, h]
  | cons name below ih => simpa [way, writtenAlong, String.join] using ih

/-- What the program's channel writes is all that is written, at whatever channel below it a record
is logged. -/
theorem logAlong_way (root : Root) {channel : Channel} (h : channel.propagates = false)
    (below : List String) (record : Record) :
    logAlong (way root channel below) record = channel.write record := by
  rw [logAlong, levelAlong_way, writtenAlong_way root h, write]
  simp

/-! ## Runs -/

inductive Call where
  | configure (level : Int)
  | log (below : List String) (record : Record)

def Call.level? : Call → Option Int
  | .configure level => some level
  | .log _ _ => none

/-- The program's channel behind a call. -/
def step (channel : Channel) : Call → Channel
  | .configure level => channel.configure level
  | .log _ _ => channel

/-- What a call writes. -/
def output (root : Root) (channel : Channel) : Call → String
  | .configure _ => ""
  | .log below record => logAlong (way root channel below) record

/-- The program's channel behind each call of a run, with what the call has written. -/
def run (root : Root) : Channel → List Call → List (Channel × String)
  | _, [] => []
  | channel, call :: calls =>
    (channel.step call, output root channel call) :: run root (channel.step call) calls

/-- The level that was set last. -/
def lastLevel? (calls : List Call) : Option Int :=
  (calls.filterMap Call.level?).getLast?

/-- How the channel stands after the last level that was set. -/
inductive Follows : Option Int → Channel → Prop where
  | untouched : Follows none {}
  | configured (level : Int) : Follows (some level) ⟨level, false, 1⟩

theorem run_append (root : Root) (channel : Channel) (before after : List Call) :
    run root channel (before ++ after) =
      run root channel before ++ run root (before.foldl step channel) after := by
  induction before generalizing channel with
  | nil => rfl
  | cons call before ih => simp [run, ih]

theorem length_run (root : Root) (channel : Channel) (calls : List Call) :
    (run root channel calls).length = calls.length := by
  induction calls generalizing channel with
  | nil => rfl
  | cons call calls ih => simp [run, ih]

theorem getElem?_run (root : Root) (channel : Channel) (before : List Call) (call : Call)
    (after : List Call) :
    (run root channel (before ++ call :: after))[before.length]? =
      some ((before ++ [call]).foldl step channel,
        output root (before.foldl step channel) call) := by
  rw [run_append, List.getElem?_append_right (Nat.le_of_eq (length_run root channel before)),
    length_run, Nat.sub_self, List.foldl_append]
  rfl

theorem lastLevel?_concat (calls : List Call) (call : Call) :
    lastLevel? (calls ++ [call]) = call.level?.or (lastLevel? calls) := by
  cases call <;> simp [lastLevel?, Call.level?]

theorem Follows.step {last : Option Int} {channel : Channel} (h : Follows last channel)
    (call : Call) : Follows (call.level?.or last) (channel.step call) := by
  cases call with
  | configure level =>
      cases h with
      | untouched => exact .configured level
      | configured old => exact .configured level
  | log below record => exact h

theorem follows_foldl_step (calls : List Call) :
    Follows (lastLevel? calls) (calls.foldl step {}) := by
  induction calls using List.reverseRecOn with
  | nil => exact .untouched
  | append_singleton calls call ih =>
      rw [lastLevel?_concat, List.foldl_append]
      exact ih.step call

theorem Follows.output_log {level : Int} {channel : Channel} (h : Follows (some level) channel)
    (root : Root) (below : List String) {record : Record} (hlevel : 1 ≤ record.level) :
    output root channel (.log below record) =
      if (if level = 0 then Record.warningLevel else level) ≤ record.level then
        Record.levelName record.level ++ ": " ++ record.message ++ "\n"
      else "" := by
  cases h with
  | configured =>
      rw [output, logAlong_way root rfl]
      simp [write, threshold, hlevel, Record.line]

/-- After every call of a run the channel has no sink if it was never set up, and otherwise one
sink, no way up and the level that was set last. From then on each record that reaches this level
is written once, on one line, and no other is written. Level 0 counts as that of warnings. -/
theorem run_follows_last_level (root : Root) (calls : List Call) :
    (run root {} calls).length = calls.length ∧
      ∀ before call after, calls = before ++ call :: after →
        ∃ channel written, (run root {} calls)[before.length]? = some (channel, written) ∧
          Follows (lastLevel? (before ++ [call])) channel ∧
          ∀ below record level, call = .log below record → 1 ≤ record.level →
            lastLevel? before = some level →
              written =
                if (if level = 0 then Record.warningLevel else level) ≤ record.level then
                  Record.levelName record.level ++ ": " ++ record.message ++ "\n"
                else "" := by
  refine ⟨length_run root {} calls, ?_⟩
  rintro before call after rfl
  refine ⟨_, _, getElem?_run root {} before call after, follows_foldl_step _, ?_⟩
  rintro below record level rfl hlevel hlast
  have hfollows := follows_foldl_step before
  rw [hlast] at hfollows
  exact hfollows.output_log root below hlevel

/-- Setting a lower level does not make the channel write twice. -/
example : (run ⟨1, fun _ => "root"⟩ {} [.configure 30, .configure 10,
    .log ["parser", "log"] ⟨20, "found"⟩, .log [] ⟨5, "read"⟩]).map Prod.snd =
      ["", "", "INFO: found\n", ""] := by
  decide

end Galley.Channel
