import StaffAccess.Fault
import StaffAccess.OrderedMap
import StaffAccess.Text.Encoding

/-!
# Cache stores

Where octets are kept under a key for some time. Every operation that depends on it is told the
present time; it may fail, and even a failing operation can change the state of the store.

* `CacheM`: operations on a store.
* `CacheStore`: the four operations, and the keys.
* The instance for sums: one of two stores.
-/

namespace StaffAccess

/-- Operations on a store with states `σ`. -/
abbrev CacheM (σ : Type) := ExceptT Fault (StateM σ)

/-- The operations of a store with states `σ`. Times are in seconds. -/
class CacheStore (σ : Type) where
  /-- What is kept under a key. -/
  get (now : Double) (key : String) : CacheM σ (Option Text.Octets)
  /-- Keeps something under a key for `ttl` seconds. -/
  set (now : Double) (key : String) (payload : Text.Octets) (ttl : Int) : CacheM σ Unit
  /-- Removes a key. -/
  delete (key : String) : CacheM σ Unit
  /-- Removes all keys that start in one way, and counts them. -/
  deletePrefix (start : String) : CacheM σ Nat
  /-- The keys that are there, expired ones included. -/
  keys : σ → List String

/-- Whether a key starts in some way. -/
def startsWith (start key : String) : Bool := start.toList.isPrefixOf key.toList

/-- Texts in code-point order. -/
def sortTexts (texts : List String) : List String := texts.mergeSort fun a b => decide (a ≤ b)

/-! ## One of two stores -/

section Sum

variable {σ τ α : Type}

/-- An operation on whichever of two stores there is. -/
def CacheM.either (left : CacheM σ α) (right : CacheM τ α) : CacheM (σ ⊕ τ) α :=
  ExceptT.mk fun
    | .inl s =>
      let (result, s) := left.run.run s
      (result, .inl s)
    | .inr t =>
      let (result, t) := right.run.run t
      (result, .inr t)

instance [CacheStore σ] [CacheStore τ] : CacheStore (σ ⊕ τ) where
  get now key := .either (CacheStore.get now key) (CacheStore.get now key)
  set now key payload ttl :=
    .either (CacheStore.set now key payload ttl) (CacheStore.set now key payload ttl)
  delete key := .either (CacheStore.delete key) (CacheStore.delete key)
  deletePrefix start := .either (CacheStore.deletePrefix start) (CacheStore.deletePrefix start)
  keys
    | .inl s => CacheStore.keys s
    | .inr t => CacheStore.keys t

end Sum

end StaffAccess
