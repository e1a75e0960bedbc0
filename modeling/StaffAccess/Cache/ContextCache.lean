import StaffAccess.Cache.Payload
import StaffAccess.Cache.Store
import StaffAccess.Context.Codec

/-!
# The cache of security contexts

Contexts are kept under the ids of their users for some time. The cache only saves work: what it
holds is replaced as a whole, a context that has become too old counts as missing even where the
store still has it, and an entry that cannot be read is removed.

* `ContextCache`: the settings of a cache.
* `ContextCache.get`, `ContextCache.put`: one context.
* `ContextCache.invalidate`, `ContextCache.invalidateAll`: making it forget.
-/

namespace StaffAccess

/-- The settings of a cache. -/
structure ContextCache where
  /-- How long entries are kept, in seconds. -/
  ttl : Int := 3600
  /-- The age from which on a context is too old, in seconds. -/
  maxAge : Double := .ofInt 3600
  /-- How contexts are written. -/
  format : PayloadFormat := .json

namespace ContextCache

variable {σ : Type} [CacheStore σ] (cache : ContextCache)

/-- What the keys of all contexts start with. -/
def keyPrefix : String := "security_context:"

/-- The key of a user's context. -/
def keyFor (user : String) : String := keyPrefix ++ user

/-- The context in a payload. -/
def decode (payload : Text.Octets) : Except Fault SecurityContext := do
  SecurityContext.ofValue (← cache.format.decode payload)

/-- Whether a context is too old. -/
def isStale (now : Double) (ctx : SecurityContext) : Bool :=
  cache.maxAge.le (now.sub ctx.lastUpdated)

/-- The context of a user, if there is one that can be read and is not too old. -/
def get (now : Double) (user : String) : CacheM σ (Option SecurityContext) := do
  match ← CacheStore.get now (keyFor user) with
  | none => return none
  | some payload =>
    match cache.decode payload with
    | .ok ctx => return if cache.isStale now ctx then none else some ctx
    | .error e =>
      if e.isUnreadable then
        CacheStore.delete (keyFor user)
        return none
      else throw e

/-- Keeps a context, for `ttl?` seconds if that is given. -/
def put (now : Double) (user : String) (ctx : SecurityContext) (ttl? : Option Int) :
    CacheM σ Unit := do
  match ctx.toValue with
  | .ok v => CacheStore.set now (keyFor user) (cache.format.encode v) (ttl?.getD cache.ttl)
  | .error e => throw e

/-- Forgets the context of a user. -/
def invalidate (user : String) : CacheM σ Unit := CacheStore.delete (keyFor user)

/-- Forgets all contexts, and counts them. -/
def invalidateAll : CacheM σ Nat := CacheStore.deletePrefix keyPrefix

end ContextCache

end StaffAccess
