import StaffAccess.Cache.Store

/-!
# A cache within the program

Entries have a time from which on they are gone. They are not looked for at that time: an entry
disappears when it is read, and until then its key is still listed and counted.

* `MemoryStore`: the store.
* `MemoryStore.lookup`: reading, which is where entries disappear.
-/

namespace StaffAccess

/-- What is kept under a key. -/
structure MemoryEntry where
  /-- The octets. -/
  payload : Text.Octets
  /-- The time from which on they are gone. -/
  expiresAt : Double
  deriving Repr

/-- A store within the program. -/
structure MemoryStore where
  /-- The entries. -/
  entries : OrderedMap String MemoryEntry := .empty

namespace MemoryStore

/-- What is kept under a key at some time, and the store without the key if its time is over. -/
def lookup (now : Double) (key : String) (store : MemoryStore) :
    Option Text.Octets × MemoryStore :=
  match store.entries.get? key with
  | none => (none, store)
  | some e =>
    if e.expiresAt.le now then (none, ⟨store.entries.erase key⟩) else (some e.payload, store)

/-- The store with something kept until a time. -/
def keep (key : String) (payload : Text.Octets) (expiresAt : Double) (store : MemoryStore) :
    MemoryStore :=
  ⟨store.entries.put key ⟨payload, expiresAt⟩⟩

/-- Keeps something until a time, if there is such a time. -/
def keepUntil (key : String) (payload : Text.Octets) : Option Double → CacheM MemoryStore Unit
  | none => throw .outOfRange
  | some expiresAt => modify (keep key payload expiresAt)

/-- The store without a key. -/
def remove (key : String) (store : MemoryStore) : MemoryStore := ⟨store.entries.erase key⟩

/-- The number of keys that start in some way, and the store without them. -/
def removeAll (start : String) (store : MemoryStore) : Nat × MemoryStore :=
  ((store.entries.keys.filter (startsWith start)).length,
    ⟨store.entries.filter fun key _ => !startsWith start key⟩)

instance : CacheStore MemoryStore where
  get now key := modifyGet (lookup now key)
  set now key payload ttl := keepUntil key payload ((Double.ofInt? ttl).map now.add)
  delete key := modify (remove key)
  deletePrefix start := modifyGet (removeAll start)
  keys store := store.entries.keys

end MemoryStore

end StaffAccess
