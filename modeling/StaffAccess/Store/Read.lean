import StaffAccess.Fault

/-!
# Reads of a store

A read returns a value, fails, or blocks for longer than anyone waits. Several reads are made at
once by a number of workers: each worker takes the next read in order as soon as it is free, and
a worker whose read blocks never becomes free again. So a read gets its turn exactly if fewer
reads before it block than there are workers.

* `Read`: the outcome of a read.
* `Read.Job.started`: the reads that get their turn.
* `Read.gather`: what comes of several reads made at once.
-/

namespace StaffAccess

/-- The outcome of a read. -/
inductive Read (α : Type)
  /-- It returns a value. -/
  | returned (value : α)
  /-- It fails. -/
  | failed (cause : Fault)
  /-- It takes longer than anyone waits. -/
  | blocked
  deriving Repr

namespace Read

variable {α β : Type}

instance : Monad Read where
  pure := returned
  bind r f := match r with
    | returned a => f a
    | failed e => failed e
    | blocked => blocked

/-- A computation that cannot block. -/
def ofExcept : Except Fault α → Read α
  | .ok a => returned a
  | .error e => failed e

/-- What a read returns when it is the only one, under the name by which it is reported. -/
def alone (name : String) : Read α → Except Fault α
  | returned a => .ok a
  | failed e => .error e
  | blocked => .error (.storeUnavailable (.timedOut [name]))

/-- Whether a read blocks. -/
def isBlocked : Read α → Bool
  | blocked => true
  | _ => false

/-! ## Several reads -/

/-- A read with a name, whatever it returns. -/
structure Job where
  /-- The name by which it is reported. -/
  name : String
  /-- Its outcome, without the value. -/
  outcome : Read Unit

/-- A read as a job. -/
def job (name : String) (r : Read α) : Job := ⟨name, (fun _ => ()) <$> r⟩

namespace Job

/-- The jobs that get their turn while so many workers are free. -/
def started : (free : Nat) → List Job → List Job
  | 0, _ => []
  | _ + 1, [] => []
  | free + 1, j :: js => j :: started (if j.outcome.isBlocked then free else free + 1) js

/-- The jobs that never end: those that block, and those that never get their turn. -/
def unfinished : (free : Nat) → List Job → List Job
  | 0, js => js
  | _ + 1, [] => []
  | free + 1, j :: js =>
    if j.outcome.isBlocked then j :: unfinished free js else unfinished (free + 1) js

/-- The cause of the first failure, if there is one. -/
def firstFailure : List Job → Option Fault
  | [] => none
  | j :: js => match j.outcome with
    | failed e => some e
    | _ => firstFailure js

end Job

/-- The number of workers for so many jobs: at least one, and no more than asked for. -/
def workerCount (most : Int) (jobs : Nat) : Nat := max 1 (min most.toNat jobs)

/-- What comes of several reads made at once: the first failure among those that get their turn,
    else the names of those that never end, else success. -/
def gather (most : Int) (jobs : List Job) : Except Fault Unit :=
  let workers := workerCount most jobs.length
  match Job.firstFailure (Job.started workers jobs) with
  | some e => .error e
  | none =>
    match Job.unfinished workers jobs with
    | [] => .ok ()
    | late => .error (.storeUnavailable (.timedOut
        ((late.map Job.name).mergeSort fun a b => decide (a ≤ b))))

end Read

end StaffAccess
