import StyleOrder.Lint.Report

namespace StyleOrder
namespace Batch

/-!
# Batches

The files of a batch are handed out to workers.  Results arrive in any order,
tagged with the place of their file, and are put back in order; a place from
which nothing arrived is reported as lost.  So neither the number of workers nor
their speed shows in the report.
-/

/-- A file to lint: the name it is reported under and its text, or the path that
could not be read. -/
structure Input where
  name : String
  text : Except (String × ReadFailure) String

namespace Input

def ofText (name text : String) : Input where
  name := name
  text := .ok text

def lint (input : Input) (settings : RuleSettings) : FileReport where
  file := input.name
  outcome :=
    match input.text with
    | .error (path, cause) => .error (.unreadable path cause)
    | .ok text =>
        match lintSource input.name text settings with
        | .ok violations => .ok violations
        | .error malformed => .error (.malformed malformed)

end Input

/-- A file and its place in the batch. -/
abbrev Job := Input × Nat

/-- A result and the place of its file in the batch. -/
abbrev Arrival := Nat × FileReport

/-- What a worker sends when it has linted a file. -/
def result (settings : RuleSettings) (job : Job) : Arrival :=
  (job.2, job.1.lint settings)

/-- The result for one place.  Should several arrive, the last counts. -/
def slot (arrivals : List Arrival) (place : Nat) : Option FileReport :=
  (arrivals.reverse.find? (·.1 = place)).map Prod.snd

def lost (name : String) : FileReport where
  file := name
  outcome := .error .lostWorker

/-- Results in the order of the batch. -/
def reassemble (names : List String) (arrivals : List Arrival) : List FileReport :=
  names.zipIdx.map fun (name, place) => (slot arrivals place).getD (lost name)

/-- Number of workers for a batch: at least one, and no more than there are
files. -/
def workers (jobs total : Nat) : Nat :=
  max 1 (min jobs total)

/-- The arrivals when workers take turns: worker `w` lints the places that leave
the remainder `w`, and the workers finish one after the other. -/
def arrivals (count : Nat) (inputs : List Input) (settings : RuleSettings) : List Arrival :=
  (List.range count).flatMap fun worker =>
    (inputs.zipIdx.filter (·.2 % count = worker)).map (result settings)

/-- Lint a batch with up to `jobs` workers.  A single worker takes the files in
their order, and nothing has to be put back. -/
def lint (inputs : List Input) (settings : RuleSettings) (jobs : Nat) : Report where
  files :=
    let count := workers jobs inputs.length
    if count = 1 then inputs.map (·.lint settings)
    else reassemble (inputs.map Input.name) (arrivals count inputs settings)

end Batch
end StyleOrder
