import StaffAccess.Authorization
import StaffAccess.Context.Compile
import StaffAccess.ContextService
import StaffAccess.Database.Query
import StaffAccess.Hierarchy.Assignment
import StaffAccess.Settings

/-!
# The engine

Everything put together: security contexts are compiled from the database and kept in a cache,
and all questions are answered from them. The world that an engine works in has the tables, the
cache store and the time; questions change nothing but the cache store.

* `Engine`: the settings of an engine.
* `World`: what it works in.
* `Engine.contexts`, `Engine.authorization`: the source of contexts, and the questions.
* `Engine.invalidate`, `Engine.invalidateAll`, `Engine.validateAssignment`: the other operations.
-/

namespace StaffAccess

/-- What an engine works in. -/
structure World (σ : Type) where
  /-- The tables. -/
  database : Database
  /-- The cache store. -/
  store : σ
  /-- The present time, in seconds. -/
  now : Double

/-- The settings of an engine. -/
structure Engine where
  /-- The policy. -/
  policy : Policy
  /-- The cache of contexts. -/
  cache : ContextCache
  /-- How many reads of the database are made at once. -/
  workers : Int
  /-- How many managers there may be above a user. -/
  maxDepth : Int

namespace Engine

/-- The engine of some settings and a policy. -/
def ofSettings (settings : Settings) (policy : Policy) : Engine where
  policy := policy
  cache := { ttl := settings.ttl, maxAge := settings.maxAge }
  workers := settings.workers
  maxDepth := settings.maxDepth

variable {σ : Type} [CacheStore σ] (engine : Engine)

/-! ## Contexts -/

/-- The store of users and rules in a world. -/
def ruleStore (world : World σ) : RuleStore (Except Fault) :=
  world.database.ruleStore world.now

/-- The context of a user, compiled anew. Reads of the tables never block. -/
def compile (world : World σ) (user : String) : Except Fault SecurityContext :=
  SecurityContext.compile ((ruleStore world).lift .ofExcept) engine.workers world.now user

/-- Runs an operation on the cache store of a world. -/
def onStore {α : Type} (op : CacheM σ α) : StateM (World σ) (Except Fault α) := fun world =>
  let (result, store) := op.run.run world.store
  (result, { world with store })

/-- The context of whom a value names. No user is named by null, and none can be looked up by a
    list or a record. -/
def compileFor (world : World σ) (user : Value) : Except Fault SecurityContext :=
  match user with
  | .text name => engine.compile world name
  | .null => .error (.identityNotFound .null)
  | user =>
    if user.isKey then
      match engine.compile world user.display with
      | .error (.identityNotFound _) => .error (.identityNotFound user)
      | result => result
    else .error (.storeUnavailable (.failed "find_user_identity"))

/-- The contexts of users: from the cache, or compiled and put there. -/
def contexts : ContextSource (StateM (World σ)) := fun user => do
  let world ← get
  onStore (ContextService.get engine.cache (fun _ => engine.compileFor world user) world.now
    user.display)

/-- All questions about users. -/
def authorization : Authorization (StateM (World σ)) := ⟨engine.contexts, engine.policy⟩

/-- Forgets the context of a user. -/
def invalidate (user : Value) : StateM (World σ) (Except Fault Unit) :=
  onStore (ContextCache.invalidate user.display)

/-- Forgets all contexts, and counts them. -/
def invalidateAll : StateM (World σ) (Except Fault Nat) := onStore ContextCache.invalidateAll

/-! ## Hierarchies -/

/-- Whether a manager may be assigned to a user. -/
def validateAssignment (world : World σ) (user candidate : String) : Except Fault Unit := do
  match ← Assignment.validate (ruleStore world).findManager engine.maxDepth user candidate with
  | .ok () => return
  | .error cause => throw (.assignmentRejected cause)

/-! ## Rows -/

/-- The row filters of a user for some objects, as if they were in force. -/
def rowFilters (user : Value) (objects : List Value) :
    StateM (World σ) (Except Fault RowFilters) := do
  let compiled ← objects.mapM fun object => do
    return (object, ← engine.authorization.compileFilter user object)
  return if objects.all Value.isKey then .ok (.ofEntries compiled) else .error .wrongType

end Engine

end StaffAccess
