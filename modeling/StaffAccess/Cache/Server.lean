import StaffAccess.Cache.Store

/-!
# A cache on a server

The server is asked by calls, one after the other. While it is down every call fails and nothing
on the server changes. Keys that start in one way are removed in two calls: the server first
lists the keys that match a pattern, and the keys listed are then removed by name.

* `ServerStore`: the server, with the calls it got.
* `ServerStore.request`: one call.
-/

namespace StaffAccess

/-- A call of a server. -/
inductive ServerCall
  /-- Read a key. -/
  | get (key : String)
  /-- Write a key for some seconds. -/
  | set (key : String) (payload : Text.Octets) (ttl : Int)
  /-- Remove some keys. -/
  | delete (keys : List String)
  /-- List the keys that match a pattern, so many at a time. -/
  | scan (pattern : String) (count : Int)
  deriving Repr, DecidableEq

/-- A server. How it matches keys against patterns is up to the server. -/
structure ServerStore (accepts : String → String → Bool) where
  /-- What it keeps. -/
  entries : OrderedMap String Text.Octets := .empty
  /-- The failure of all calls while it is down. -/
  down : Option String := none
  /-- How many keys are listed at a time. -/
  scanCount : Int := 500
  /-- The calls it got, the latest first. -/
  calls : List ServerCall := []

namespace ServerStore

variable {accepts : String → String → Bool}

/-- Makes a call, which is noted down whether it fails or not. -/
def request (kind : CacheCall) (call : ServerCall) : CacheM (ServerStore accepts) Unit := do
  modify fun server => { server with calls := call :: server.calls }
  let server ← get
  match server.down with
  | some error => throw (.cacheDegraded kind error)
  | none => pure ()

/-- The pattern for the keys that start in some way. -/
def patternFor (start : String) : String := start ++ "*"

/-- The keys that match a pattern, sorted. -/
def keysMatching (pattern : String) (server : ServerStore accepts) : List String :=
  sortTexts (server.entries.keys.filter (accepts pattern))

/-- The server without some keys. -/
def removeKeys (keys : List String) (server : ServerStore accepts) : ServerStore accepts :=
  { server with entries := server.entries.filter fun key _ => !keys.contains key }

instance : CacheStore (ServerStore accepts) where
  get _ key := do
    request .get (.get key)
    let server ← MonadState.get
    return server.entries.get? key
  set _ key payload ttl := do
    request .set (.set key payload ttl)
    modify fun server => { server with entries := server.entries.put key payload }
  delete key := do
    request .delete (.delete [key])
    modify fun server => { server with entries := server.entries.erase key }
  deletePrefix start := do
    let server ← MonadState.get
    request .deletePrefix (.scan (patternFor start) server.scanCount)
    let keys := server.keysMatching (patternFor start)
    unless keys.isEmpty do
      request .deletePrefix (.delete keys)
      modify (removeKeys keys)
    return keys.length
  keys server := server.entries.keys

/-- The patterns of a server that takes all but the final star of a pattern literally. -/
def literally (pattern key : String) : Bool :=
  pattern.toList.dropLast.isPrefixOf key.toList

end ServerStore

end StaffAccess
