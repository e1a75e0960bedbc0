import StaffAccess.Fault

/-!
# Assignments of managers

Every user has at most one manager, so the managers above a user form a chain. A user may be put
under a candidate if the user is not on the candidate's chain and the chain above the user does
not become longer than a limit. The store may already hold loops, so both walks stop at users
they have met, and after as many steps as the limit allows.

The walks ask for managers in any monad, so that they can be run on a store that fails or counts
its reads.

* `Assignment.cyclePath`: the chain from the candidate to the user, if there is one.
* `Assignment.depth`: how deep the user would be, up to one more than the limit.
* `Assignment.validate`: whether the assignment is accepted.
-/

namespace StaffAccess.Assignment

variable {m : Type → Type} [Monad m] (managerOf : String → m (Option String))

/-- Looks for a user on the chain of managers that starts with `current`, among its next `left`
    members. The members met before are `path`; the answer is the whole path up to the user. -/
def findOnChain (user : String) : (left : Nat) → (path : List String) → (current : String) →
    m (Option (List String))
  | 0, _, _ => return none
  | left + 1, path, current => do
    if current ∈ path then return none
    else if current = user then return some (path ++ [current])
    else match ← managerOf current with
      | none => return none
      | some manager => findOnChain user left (path ++ [current]) manager

/-- The chain from a candidate to the user, if the candidate is below the user: the assignment
    would close it. One more member than the limit is looked at. -/
def cyclePath (limit : Int) (user candidate : String) : m (Option (List String)) :=
  findOnChain managerOf user (limit + 1).toNat [] candidate

/-- The number of steps, up to `left`, that lead from `current` to managers not met before. -/
def climb : (left : Nat) → (met : List String) → (current : String) → m Nat
  | 0, _, _ => return 0
  | left + 1, met, current => do
    match ← managerOf current with
    | none => return 0
    | some manager =>
      if manager ∈ current :: met then return 0
      else return (← climb left (current :: met) manager) + 1

/-- How deep a user would be under a candidate: one below a root is at depth one. Counting ends
    at one more than the limit. -/
def depth (limit : Int) (user candidate : String) : m Nat :=
  return (← climb managerOf limit.toNat [user] candidate) + 1

/-- Whether a user may be put under a candidate: there must be no cycle, and the depth must
    stay within the limit. Nothing is written. -/
def validate (limit : Int) (user candidate : String) : m (Except AssignmentFault Unit) := do
  match ← cyclePath managerOf limit user candidate with
  | some path => return .error (.cycle user candidate path)
  | none =>
    if limit < (← depth managerOf limit user candidate) then
      return .error (.tooDeep user candidate limit)
    else return .ok ()

end StaffAccess.Assignment
