import Galley.Diagnostics
import Galley.Failure

/-! # What a run leaves behind -/

namespace Galley

/-- The result of a stage, with the commands that it started and the records that it logged. -/
structure Run (α : Type) where
  commands : List (List String)
  records : List Record
  outcome : Except Failure α

namespace Run

variable {α β : Type}

def fail (failure : Failure) : Run α :=
  ⟨[], [], .error failure⟩

/-- Goes on with a stage that starts and logs nothing. -/
def andThen (run : Run α) (next : α → Except Failure β) : Run β :=
  ⟨run.commands, run.records, run.outcome.bind next⟩

end Run

end Galley
