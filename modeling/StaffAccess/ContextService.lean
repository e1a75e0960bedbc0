import StaffAccess.Cache.ContextCache

/-!
# The service of security contexts

A context comes from the cache or, failing that, is compiled and put into the cache. A cache
that fails is passed by when reading and when writing; only whoever makes it forget something
is told that it did not.

* `ContextService.lookup`, `ContextService.keep`: the two uses of the cache.
* `ContextService.get`: the context of a user, made of these and a compilation in between.
-/

namespace StaffAccess

namespace ContextService

variable {σ : Type} [CacheStore σ] (cache : ContextCache)

/-- Passes by a failure of the cache. -/
def tolerating {α : Type} (fallback : α) (op : CacheM σ α) : CacheM σ α :=
  tryCatch op fun
    | .cacheDegraded _ _ => return fallback
    | e => throw e

/-- The context in the cache; a cache that fails has none. -/
def lookup (now : Double) (user : String) : CacheM σ (Option SecurityContext) :=
  tolerating none (cache.get now user)

/-- Puts a context into the cache, if the cache takes it. -/
def keep (now : Double) (user : String) (ctx : SecurityContext) : CacheM σ Unit :=
  tolerating () (cache.put now user ctx none)

/-- The context of a user, compiled if the cache does not have it. -/
def get (compile : String → Except Fault SecurityContext) (now : Double) (user : String) :
    CacheM σ SecurityContext := do
  match ← lookup cache now user with
  | some ctx => return ctx
  | none =>
    match compile user with
    | .error e => throw e
    | .ok ctx =>
      keep cache now user ctx
      return ctx

end ContextService

end StaffAccess
