import Galley.Pipeline
import Galley.Report.Layout

/-!
# The command line

One optional file name and the option `-h` or `--help`. Notices and reports go to the standard
output, diagnostics to the standard error stream.
-/

namespace Galley.CommandLine

/-! ## Reading the arguments -/

/-- What the arguments ask for. -/
inductive Invocation where
  | run (fileName : Option String)
  | help
  | invalid (message : String)
  deriving DecidableEq, Repr

/-- The role of an argument before the separator `--`. A help option is rejected when something is
attached to it, with an equals sign or, behind `-h`, without one. -/
inductive Role where
  | positional
  | help
  | rejected (attached : List Char)
  | unknown
  deriving DecidableEq, Repr

def longHelp : List Char := "--help".toList

/-- What is attached to `-h` may only repeat it: `-hh` and `-h=h` ask for help, `-hx` and `-h=` are
rejected. -/
def shortHelp (attached : List Char) : Role :=
  if attached.isEmpty then .rejected []
  else
    match attached.dropWhile (· == 'h') with
    | [] => .help
    | rest => .rejected rest

/-- A minus sign before digits, or before digits with one dot that digits follow. A line feed may
stand at the end. -/
def isNegativeNumber : List Char → Bool
  | '-' :: cs =>
    let cs := if cs.getLast? == some '\n' then cs.dropLast else cs
    match cs.dropWhile Text.isDigit with
    | [] => !cs.isEmpty
    | '.' :: places => !places.isEmpty && places.all Text.isDigit
    | _ => false
  | _ => false

/-- Options are known by any beginning of their long form. A word that could be an option but
looks like a negative number or holds a space is positional. -/
def role (word : List Char) : Role :=
  let name := word.takeWhile (· != '=')
  let attached := word.drop (name.length + 1)
  let isAttached := name.length < word.length
  match word with
  | [] => .positional
  | ['-'] => .positional
  | ['-', 'h'] => .help
  | '-' :: '-' :: _ =>
    if name.isPrefixOf longHelp then if isAttached then .rejected attached else .help
    else if word.contains ' ' then .positional
    else .unknown
  | '-' :: 'h' :: rest => shortHelp (if name.length = 2 then attached else rest)
  | '-' :: _ =>
    if isNegativeNumber word || word.contains ' ' then .positional else .unknown
  | _ => .positional

/-- The arguments that have been read: the file name, whether it was the last of them, and what
could not be placed. -/
structure Progress where
  fileName : Option String := none
  justNamed : Bool := false
  surplus : List String := []
  deriving DecidableEq, Repr

def Progress.addSurplus (progress : Progress) (words : List String) : Progress :=
  ⟨progress.fileName, false, progress.surplus ++ words⟩

/-- The first positional argument is the file name. -/
def Progress.addPositional (progress : Progress) (word : String) : Progress :=
  match progress.fileName with
  | none => ⟨some word, true, progress.surplus⟩
  | some _ => progress.addSurplus [word]

/-- The separator is dropped next to the file name and surplus elsewhere. Every argument after it
is positional. -/
def Progress.addSeparated (progress : Progress) (words : List String) : Progress :=
  match progress.fileName, words with
  | none, [] => progress
  | none, word :: words => (progress.addPositional word).addSurplus words
  | some _, words =>
    progress.addSurplus (if progress.justNamed then words else "--" :: words)

def Progress.finish (progress : Progress) : Invocation :=
  if progress.surplus.isEmpty then .run progress.fileName
  else .invalid ("unrecognized arguments: " ++ " ".intercalate progress.surplus)

/-- Reads arguments from left to right. A help option ends the reading, and so does a rejected
one. -/
def readFrom (progress : Progress) : List String → Invocation
  | [] => progress.finish
  | word :: words =>
    if word = "--" then (progress.addSeparated words).finish
    else
      match role word.toList with
      | .help => .help
      | .rejected attached =>
        .invalid ("argument -h/--help: ignored explicit argument " ++
          Text.quote (String.ofList attached))
      | .unknown => readFrom (progress.addSurplus [word]) words
      | .positional => readFrom (progress.addPositional word) words

def read (arguments : List String) : Invocation :=
  readFrom {} arguments

/-! ## Answering -/

def usageLine : String := "usage: tex-length [-h] [filename]\n"

def helpText : String :=
  usageLine ++ "\n" ++
  "Estimate the length of a LaTeX manuscript following the PRL length guide\n\n" ++
  "positional arguments:\n" ++
  "  filename    Manuscript base name, with or without extension\n\n" ++
  "options:\n" ++
  "  -h, --help  show this help message and exit\n"

/-- What a call writes and starts, and the status that it ends with. A fault ends it without. -/
structure Execution where
  output : String
  errors : String
  commands : List (List String)
  status : Except Fault Nat

/-- The answer to a run that has ended. Warnings come before the error that ended it. -/
def ofRun (run : Run Report) : Execution :=
  let warnings := Channel.default.writeAll run.records
  let failed (message : String) : Execution :=
    ⟨"", warnings ++ Channel.default.write (.error message), run.commands, .ok 1⟩
  match run.outcome with
  | .ok report =>
    match report.text with
    | .ok text => ⟨text, warnings, run.commands, .ok 0⟩
    | .error fault => ⟨"", warnings, run.commands, .error fault⟩
  | .error (.notice cause) => ⟨cause.message ++ "\n", warnings, run.commands, .ok 0⟩
  | .error (.unavailable cause) => failed cause.message
  | .error (.mismatch cause) => failed cause.message
  | .error (.fault cause) => ⟨"", warnings, run.commands, .error cause⟩

/-- The answer to a call in a setting. -/
def execute (setting : Setting) (arguments : List String) : Execution :=
  match read arguments with
  | .help => ⟨helpText, "", [], .ok 0⟩
  | .invalid message => ⟨"", usageLine ++ "tex-length: error: " ++ message ++ "\n", [], .ok 2⟩
  | .run none => ofRun (.fail (.notice .usage))
  | .run (some fileName) => ofRun (setting.report fileName)

end Galley.CommandLine
