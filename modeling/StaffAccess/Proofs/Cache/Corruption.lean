import StaffAccess.Proofs.Cache.Freshness
import StaffAccess.Proofs.Context.Reading
import StaffAccess.Proofs.Json.Faults

/-!
# Entries that cannot be read

What becomes of any octets at all that a store holds for a user. If they are no context they are
removed, nothing is found, and asking the service compiles a context and writes it in their
place. If they are a context, it is found unless it is too old.

Two kinds of payloads escape this. A number that is too large to be converted, and lists and
records that lie too deep in each other, have faults that are raised and leave the entry where it
is. And a time that is not a number is never too old.

* `ContextCache.IsMeasurable`: the payloads of neither kind.
* `ContextCache.isMeasurable_of_isInRange`: numbers in range and few enough brackets are enough.
* `Answering`: the stores that answer, with what they keep.
* `ContextCache.get_isMiss_or_fresh`: what becomes of an entry.
* `ContextCache.unmeasurable_escapes`: what becomes of the others.
-/

namespace StaffAccess

/-- A number minus anything but NaN is not NaN. -/
theorem Double.sub_ne_nan_of_isFinite {a b : Double} (ha : a.IsFinite) (hb : b ≠ .nan) :
    a.sub b ≠ .nan := by
  cases b with
  | nan => exact absurd rfl hb
  | finite s u => exact sub_ne_nan ha ⟨s, u, rfl⟩
  | infinite s =>
    obtain ⟨t, u, rfl⟩ := ha
    exact nofun

theorem Double.le_nan (a : Double) : a.le .nan = false := by cases a <;> rfl

/-! ## Payloads -/

namespace ContextCache

variable {cache : ContextCache} {payload : Text.Octets}

/-- Whether a payload has no fault beyond being unreadable, and no time that cannot be
    compared. -/
structure IsMeasurable (cache : ContextCache) (payload : Text.Octets) : Prop where
  inRange : cache.decode payload ≠ .error .outOfRange
  notTooDeep : cache.decode payload ≠ .error .tooDeep
  time : ∀ ctx, cache.decode payload = .ok ctx → ctx.lastUpdated ≠ .nan

/-- Whether the text of a payload does not open more lists and records than may lie in each
    other. -/
def IsShallow (payload : Text.Octets) : Prop :=
  ∀ s, Text.decode? payload = some s → Json.openings s.toList ≤ Json.maxDepth

theorem outcome_format (hformat : cache.format = .json) (payload : Text.Octets) :
    Outcome (fun _ => True) (fun e => e = .badValue ∨ e = .tooDeep ∧ ¬IsShallow payload)
      (cache.format.decode payload) := by
  rw [hformat]
  cases hs : Text.decode? payload with
  | none =>
    simp only [PayloadFormat.json, hs]
    exact .inl rfl
  | some s =>
    simp only [PayloadFormat.json, hs]
    refine (Json.outcome_read s).imp (fun _ h => h) fun e he => ?_
    rcases he with rfl | ⟨rfl, hdeep⟩
    · exact .inl rfl
    · exact .inr ⟨rfl, fun h => Nat.not_le_of_lt hdeep (h s hs)⟩

/-- The faults of reading a payload: it is unreadable, a number in it is not in range, or it lies
    too deep. -/
theorem outcome_decode (hformat : cache.format = .json) {p : Prop}
    (hrange : p → ∀ v, cache.format.decode payload = .ok v → v.IsInRange) :
    Outcome (fun _ => True) (fun e => e.IsOfReading p ∨ e = .tooDeep ∧ ¬IsShallow payload)
      (cache.decode payload) := by
  have hvalue := outcome_format hformat payload
  rw [decode]
  cases hv : cache.format.decode payload with
  | error e =>
    rw [hv] at hvalue
    rcases hvalue with rfl | hdeep
    · exact .inl (.inl rfl)
    · exact .inr hdeep
  | ok v =>
    exact (SecurityContext.outcome_ofValue fun hp => hrange hp v hv).imp (fun _ h => h)
      fun _ he => .inl he

/-- A fault of a measurable payload says that it is unreadable. -/
theorem IsMeasurable.isUnreadable (h : cache.IsMeasurable payload) (hformat : cache.format = .json)
    {e : Fault} (he : cache.decode payload = .error e) : e.isUnreadable = true := by
  have hdecode : Outcome _ _ (cache.decode payload) :=
    outcome_decode hformat fun hp : False => hp.elim
  rw [he] at hdecode
  rcases hdecode with (hunreadable | ⟨rfl, -⟩) | ⟨rfl, -⟩
  · exact hunreadable
  · exact absurd he h.inRange
  · exact absurd he h.notTooDeep

/-- Payloads with numbers in range, with few enough brackets and with a time that is a number are
    measurable. -/
theorem isMeasurable_of_isInRange (hformat : cache.format = .json) (hshallow : IsShallow payload)
    (hrange : ∀ v, cache.format.decode payload = .ok v → v.IsInRange)
    (htime : ∀ ctx, cache.decode payload = .ok ctx → ctx.lastUpdated ≠ .nan) :
    cache.IsMeasurable payload := by
  have hdecode : Outcome _ _ (cache.decode payload) :=
    outcome_decode hformat fun _ : True => hrange
  refine ⟨fun he => ?_, fun he => ?_, htime⟩
  · rw [he] at hdecode
    rcases hdecode with (hunreadable | ⟨-, hp⟩) | ⟨he, -⟩
    · cases hunreadable
    · exact hp trivial
    · cases he
  · rw [he] at hdecode
    rcases hdecode with (hunreadable | ⟨he, -⟩) | ⟨-, hdeep⟩
    · cases hunreadable
    · cases he
    · exact hdeep hshallow

end ContextCache

/-! ## Stores that answer -/

/-- A store that answers every call in the states of which something holds, and ends in such a
    state. Reading finds what is kept, or nothing if that is gone from then on. -/
structure Answering (σ : Type) [CacheStore σ] (kept : σ → Kept) (up : σ → Prop) : Prop where
  get : ∀ (now : Double) (key : String) (s : σ), up s → ∃ found s',
    (CacheStore.get now key).run s = (.ok found, s') ∧ up s' ∧
      (found = kept s key ∨ found = none ∧ kept s' key = none)
  set : ∀ (now : Double) (key : String) (payload : Text.Octets) (ttl : Int) (s : σ), up s →
    Double.ofInt? ttl ≠ none → ∃ s', (CacheStore.set now key payload ttl).run s = (.ok (), s') ∧
      kept s' key = some payload
  delete : ∀ (key : String) (s : σ), up s → ∃ s',
    (CacheStore.delete key).run s = (.ok (), s') ∧ up s' ∧ kept s' key = none

namespace Answering

open StoreLaws

theorem memoryKept_erase (store : MemoryStore) (key : String) :
    memoryKept ⟨store.entries.erase key⟩ key = none := by
  rw [memoryKept, OrderedMap.get?_erase_self]
  rfl

/-- A store within the program always answers. -/
theorem memory : Answering MemoryStore memoryKept fun _ => True where
  get now key store _ := by
    refine ⟨(store.lookup now key).1, (store.lookup now key).2, rfl, trivial, ?_⟩
    rw [MemoryStore.lookup]
    cases hentry : store.entries.get? key with
    | none =>
      left
      rw [memoryKept, hentry]
      rfl
    | some e =>
      dsimp only
      split_ifs with hover
      · exact .inr ⟨rfl, memoryKept_erase store key⟩
      · left
        rw [memoryKept, hentry]
        rfl
  set now key payload ttl store _ httl := by
    obtain ⟨seconds, hseconds⟩ := Option.ne_none_iff_exists'.1 httl
    rw [set_eq_keepUntil]
    beta_reduce
    rw [hseconds]
    exact ⟨_, rfl, by rw [memoryKept_keep, Function.update_self]⟩
  delete key store _ := ⟨_, rfl, trivial, memoryKept_erase store key⟩

variable {accepts : String → String → Bool}

/-- A server answers while it is not down. -/
theorem server : Answering (ServerStore accepts) serverKept fun server => server.down = none where
  get now key server hup := by
    obtain ⟨entries, down, scanCount, calls⟩ := server
    obtain rfl : down = none := hup
    exact ⟨_, _, rfl, rfl, .inl rfl⟩
  set now key payload ttl server hup _ := by
    obtain ⟨entries, down, scanCount, calls⟩ := server
    obtain rfl : down = none := hup
    exact ⟨_, rfl, OrderedMap.get?_put_self _ _ _⟩
  delete key server hup := by
    obtain ⟨entries, down, scanCount, calls⟩ := server
    obtain rfl : down = none := hup
    refine ⟨_, rfl, rfl, ?_⟩
    refine Option.eq_none_iff_forall_ne_some.2 fun payload h => ?_
    simpa using (OrderedMap.get?_filter_eq_some_iff.1 h).2

section Sum

variable {σ τ α : Type} {op : CacheM σ α} {op' : CacheM τ α} {result : Except Fault α}

theorem run_either_inl {s s' : σ} (h : op.run s = (result, s')) :
    (CacheM.either op op').run (.inl s) = (result, .inl s') :=
  congrArg (fun r : Except Fault α × σ => (r.1, (Sum.inl r.2 : σ ⊕ τ))) h

theorem run_either_inr {t t' : τ} (h : op'.run t = (result, t')) :
    (CacheM.either op op').run (.inr t) = (result, .inr t') :=
  congrArg (fun r : Except Fault α × τ => (r.1, (Sum.inr r.2 : σ ⊕ τ))) h

/-- One of two stores answers if that store does. -/
theorem sum [CacheStore σ] [CacheStore τ] {left : σ → Kept} {right : τ → Kept} {up : σ → Prop}
    {up' : τ → Prop} (hleft : Answering σ left up) (hright : Answering τ right up') :
    Answering (σ ⊕ τ) (sumKept left right) (Sum.elim up up') where
  get now key
    | .inl s, hup => by
      obtain ⟨found, s', hrun, hup', hfound⟩ := hleft.get now key s hup
      exact ⟨found, .inl s', run_either_inl hrun, hup', hfound⟩
    | .inr t, hup => by
      obtain ⟨found, t', hrun, hup', hfound⟩ := hright.get now key t hup
      exact ⟨found, .inr t', run_either_inr hrun, hup', hfound⟩
  set now key payload ttl
    | .inl s, hup, httl => by
      obtain ⟨s', hrun, hkept⟩ := hleft.set now key payload ttl s hup httl
      exact ⟨.inl s', run_either_inl hrun, hkept⟩
    | .inr t, hup, httl => by
      obtain ⟨t', hrun, hkept⟩ := hright.set now key payload ttl t hup httl
      exact ⟨.inr t', run_either_inr hrun, hkept⟩
  delete key
    | .inl s, hup => by
      obtain ⟨s', hrun, hup', hkept⟩ := hleft.delete key s hup
      exact ⟨.inl s', run_either_inl hrun, hup', hkept⟩
    | .inr t, hup => by
      obtain ⟨t', hrun, hup', hkept⟩ := hright.delete key t hup
      exact ⟨.inr t', run_either_inr hrun, hup', hkept⟩

end Sum

end Answering

/-! ## Entries -/

namespace ContextCache

section Entries

variable {σ : Type} [CacheStore σ] {kept : σ → Kept} {up : σ → Prop} {s s' : σ}
  {cache : ContextCache} {user : String} {payload : Text.Octets} {now : Double}

/-- Looking for a context finds the one in the payload unless it is too old, and removes what is
    none. -/
theorem get_of_kept (hstore : Answering σ kept up) (hup : up s)
    (hkept : kept s (keyFor user) = some payload) (hformat : cache.format = .json)
    (hmeasurable : cache.IsMeasurable payload) (now : Double) :
    ∃ found s', (cache.get now user).run s = (.ok found, s') ∧ up s' ∧
      (∀ ctx, found = some ctx → cache.decode payload = .ok ctx ∧ cache.isStale now ctx = false) ∧
      ((∀ ctx, cache.decode payload ≠ .ok ctx) → found = none ∧ kept s' (keyFor user) = none) := by
  obtain ⟨found, s₁, hget, hup₁, hfound⟩ := hstore.get now (keyFor user) s hup
  rcases hfound with rfl | ⟨rfl, hgone⟩
  · rw [hkept] at hget
    cases hdecode : cache.decode payload with
    | ok ctx =>
      have hrun : (cache.get now user).run s =
          (.ok (if cache.isStale now ctx then none else some ctx), s₁) := by
        refine (CacheM.run_bind_of_ok hget).trans ?_
        dsimp only
        rw [hdecode]
        rfl
      refine ⟨_, s₁, hrun, hup₁, fun ctx' h => ?_, fun h => absurd rfl (h ctx)⟩
      rw [Option.ite_none_left_eq_some] at h
      cases h.2
      exact ⟨rfl, Bool.eq_false_iff.2 h.1⟩
    | error e =>
      obtain ⟨s₂, hdelete, hup₂, hgone⟩ := hstore.delete (keyFor user) s₁ hup₁
      have hrun : (cache.get now user).run s = (.ok none, s₂) := by
        refine (CacheM.run_bind_of_ok hget).trans ?_
        dsimp only
        rw [hdecode]
        dsimp only
        rw [if_pos (hmeasurable.isUnreadable hformat hdecode)]
        exact CacheM.run_bind_of_ok hdelete
      exact ⟨none, s₂, hrun, hup₂, nofun, fun _ => ⟨rfl, hgone⟩⟩
  · -- The time of the entry is over.
    exact ⟨none, s₁, CacheM.run_bind_of_ok hget, hup₁, nofun, fun _ => ⟨rfl, hgone⟩⟩

/-- Where nothing is found, the service compiles a context and puts it into the cache. -/
theorem service_compiles (hstore : Answering σ kept up) (httl : Double.ofInt? cache.ttl ≠ none)
    (hget : (cache.get now user).run s = (.ok none, s')) (hup : up s')
    {compile : String → Except Fault SecurityContext}
    (hrecovers : ∀ ctx, compile user = .ok ctx → cache.Recovers ctx) :
    ∃ s'', (ContextService.get cache compile now user).run s = (compile user, s'') ∧
      ∀ ctx, compile user = .ok ctx → ∃ payload, kept s'' (keyFor user) = some payload ∧
        cache.decode payload = .ok ctx := by
  have hlookup : (ContextService.get cache compile now user).run s = _ :=
    CacheM.run_bind_of_ok (CacheM.run_tolerating_of_ok hget)
  rw [hlookup]
  dsimp only
  cases hcompile : compile user with
  | error e => exact ⟨s', rfl, nofun⟩
  | ok ctx =>
    obtain ⟨v, hv, hdecode⟩ := hrecovers ctx hcompile
    obtain ⟨s'', hset, hkept⟩ :=
      hstore.set now (keyFor user) (cache.format.encode v) cache.ttl s' hup httl
    have hput : (cache.put now user ctx none : CacheM σ Unit) =
        CacheStore.set now (keyFor user) (cache.format.encode v) cache.ttl := by
      rw [put, hv]
      rfl
    have hkeep : (ContextService.keep cache now user ctx).run s' = (.ok (), s'') :=
      CacheM.run_tolerating_of_ok (hput ▸ hset)
    refine ⟨s'', CacheM.run_bind_of_ok hkeep, fun ctx' h => ?_⟩
    cases h
    exact ⟨_, hkept, hdecode⟩

end Entries

/-! ## Both kinds of stores -/

variable {accepts : String → String → Bool}

/-- What either kind of store keeps. -/
def keptBy : MemoryStore ⊕ ServerStore accepts → Kept :=
  StoreLaws.sumKept StoreLaws.memoryKept StoreLaws.serverKept

/-- Whether either kind of store can be reached. -/
def CanBeReached : MemoryStore ⊕ ServerStore accepts → Prop :=
  Sum.elim (fun _ => True) fun server => server.down = none

/-- Whatever a store that can be reached holds for a user, if it is measurable: looking for a
    context does not fail. It finds nothing or a context that is not too old, if there is a limit
    to compare with, and what is no context is removed, so that the service answers by compiling
    and writes what it compiled, if the time to keep it for is in range. The rows that are compiled
    then are within the limits of JSON texts. -/
theorem get_isMiss_or_fresh {cache : ContextCache} (hformat : cache.format = .json)
    {s : MemoryStore ⊕ ServerStore accepts} (hreach : CanBeReached s) {user : String}
    {payload : Text.Octets} (hkept : keptBy s (keyFor user) = some payload)
    (hmeasurable : cache.IsMeasurable payload) {c : Circumstances} (hc : c.IsWritable) :
    ∃ found s', (cache.get c.now user).run s = (.ok found, s') ∧
      (cache.maxAge ≠ .nan → ∀ ctx, found = some ctx →
        (c.now.sub ctx.lastUpdated).lt cache.maxAge = true) ∧
      ((∀ ctx, cache.decode payload ≠ .ok ctx) →
        found = none ∧ keptBy s' (keyFor user) = none ∧
        (Double.ofInt? cache.ttl ≠ none →
          ∃ s'', (ContextService.get cache c.compile c.now user).run s = (c.compile user, s'') ∧
            ∀ ctx, c.compile user = .ok ctx → ∃ payload',
              keptBy s'' (keyFor user) = some payload' ∧ cache.decode payload' = .ok ctx)) := by
  have hstore : Answering (MemoryStore ⊕ ServerStore accepts) keptBy CanBeReached :=
    Answering.memory.sum Answering.server
  obtain ⟨found, s', hget, hup, hfound, hremoved⟩ :=
    get_of_kept hstore hreach hkept hformat hmeasurable c.now
  refine ⟨found, s', hget, fun hmaxAge ctx hctx => ?_, fun hunreadable => ?_⟩
  · obtain ⟨hdecode, hfresh⟩ := hfound ctx hctx
    have htime := hmeasurable.time ctx hdecode
    exact Double.lt_of_not_le hmaxAge (Double.sub_ne_nan_of_isFinite hc.now htime) hfresh
  · obtain ⟨rfl, hgone⟩ := hremoved hunreadable
    refine ⟨rfl, hgone, fun httl => ?_⟩
    have hback : c.AreReadBack cache.format user := hformat ▸ hc.areReadBack user
    exact service_compiles hstore httl hget hup fun ctx => recovers_of_compile hc.isTyped hback

/-! ### Entries for one teacher -/

/-- A store within the program that holds a payload for the teacher, for good. -/
def holding (payload : Text.Octets) : MemoryStore ⊕ ServerStore ServerStore.literally :=
  .inl (MemoryStore.keep (keyFor "t1") payload (.infinite false) {})

theorem keptBy_holding (payload : Text.Octets) :
    keptBy (holding payload) (keyFor "t1") = some payload := by
  rw [keptBy, holding, StoreLaws.sumKept, StoreLaws.memoryKept_keep, Function.update_self]

theorem get_holding (payload : Text.Octets) :
    (CacheStore.get teacherAsks.now (keyFor "t1")).run (holding payload) =
      (.ok (some payload), holding payload) := by
  refine Answering.run_either_inl (s := MemoryStore.keep _ _ _ _) ?_
  have hlookup : MemoryStore.lookup teacherAsks.now (keyFor "t1")
      (MemoryStore.keep (keyFor "t1") payload (.infinite false) {}) =
        (some payload, MemoryStore.keep (keyFor "t1") payload (.infinite false) {}) := by
    rw [MemoryStore.lookup, MemoryStore.keep, OrderedMap.get?_put_self]
    rfl
  exact congrArg (fun r : Option Text.Octets × MemoryStore => (Except.ok r.1, r.2)) hlookup

theorem decode_encode_eq {v : Value} (h : v.IsJson Json.maxDepth) :
    ({} : ContextCache).decode (PayloadFormat.json.encode v) = SecurityContext.ofValue v := by
  show (PayloadFormat.json.decode _ >>= _) = _
  rw [PayloadFormat.decode_encode h, ok_bind]

/-- A context whose permissions are a list. -/
def misshapen : Value := .record [("user_id", .text "t1"), ("permissions", .list [.text "doc"])]

theorem decode_misshapen : ({} : ContextCache).decode (PayloadFormat.json.encode misshapen) =
    .error (.context .partsNotRecords) := by
  rw [decode_encode_eq]
  · rfl
  · refine .record (by decide) fun e he => ?_
    rcases List.mem_pair.1 he with rfl | rfl
    · exact .text _
    · exact .list fun x hx => List.mem_singleton.1 hx ▸ .text _

/-- The misshapen context is removed, and the service compiles another one. -/
theorem misshapen_isMiss : CanBeReached (holding (PayloadFormat.json.encode misshapen)) ∧
    ({} : ContextCache).IsMeasurable (PayloadFormat.json.encode misshapen) ∧
    (∃ s', (({} : ContextCache).get teacherAsks.now "t1").run
        (holding (PayloadFormat.json.encode misshapen)) = (.ok none, s') ∧
      keptBy s' (keyFor "t1") = none) ∧
    ∃ s'', (ContextService.get {} teacherAsks.compile teacherAsks.now "t1").run
      (holding (PayloadFormat.json.encode misshapen)) = (teacherAsks.compile "t1", s'') := by
  have hreach : CanBeReached (holding (PayloadFormat.json.encode misshapen)) := trivial
  have hmeasurable : ({} : ContextCache).IsMeasurable (PayloadFormat.json.encode misshapen) := by
    refine ⟨?_, ?_, ?_⟩ <;> rw [decode_misshapen] <;> exact nofun
  have httl : Double.ofInt? ({} : ContextCache).ttl ≠ none := by decide +kernel
  obtain ⟨found, s', hget, -, hremoved⟩ := get_isMiss_or_fresh rfl hreach
    (keptBy_holding _) hmeasurable teacherAsks_isWritable
  obtain ⟨rfl, hgone, hcompiles⟩ := hremoved (by rw [decode_misshapen]; exact nofun)
  obtain ⟨s'', hservice, -⟩ := hcompiles httl
  exact ⟨hreach, hmeasurable, ⟨s', hget, hgone⟩, s'', hservice⟩

/-- A context with a rule whose priority is infinite. -/
def unbounded : Value := .record
  [("user_id", .text "t1"), ("scope", .text "SCHOOL"), ("user_type", .text "TEACHER"),
   ("data_filters", .record [("doc", .list
     [.record [("kind", .text "TENANT"), ("priority", .double (.infinite false))]])])]

/-- A context of an indefinite time. -/
def timeless : SecurityContext where
  userId := "t1"
  scope := .school
  userType := "TEACHER"
  tenantId := .null
  permissions := .empty
  rowRules := .empty
  uiRules := []
  hierarchy := none
  lastUpdated := .nan

theorem isJson_timeless : timeless.IsJson where
  tenantId := .null
  rowRules _ he := absurd he List.not_mem_nil
  uiRules _ hr := absurd hr List.not_mem_nil
  hierarchy := nofun
  lastUpdated := trivial

theorem isJson_unbounded : unbounded.IsJson Json.maxDepth := by
  have hrule : (Value.record
      [("kind", .text "TENANT"), ("priority", .double (.infinite false))]).IsJson 1 := by
    refine .record (by decide) fun e he => ?_
    rcases List.mem_pair.1 he with rfl | rfl
    · exact .text _
    · exact .double trivial
  refine .record (by decide) fun e he => ?_
  simp only [List.mem_cons, List.not_mem_nil, or_false] at he
  rcases he with rfl | rfl | rfl | rfl
  · exact .text _
  · exact .text _
  · exact .text _
  · refine .record (by decide) fun e he => List.mem_singleton.1 he ▸ ?_
    exact .list fun x hx => List.mem_singleton.1 hx ▸ hrule.mono (by decide)

theorem decode_unbounded : ({} : ContextCache).decode (PayloadFormat.json.encode unbounded) =
    .error .outOfRange := by
  rw [decode_encode_eq isJson_unbounded]
  rfl

/-- An infinite priority is no context, but the fault is raised and the entry stays. A context of
    an indefinite time is found although its age is not below the limit. -/
theorem unmeasurable_escapes :
    (∃ payload, (∀ ctx, ({} : ContextCache).decode payload ≠ .ok ctx) ∧
      (({} : ContextCache).get teacherAsks.now "t1").run (holding payload) =
        (.error .outOfRange, holding payload)) ∧
    ∃ payload ctx, (({} : ContextCache).get teacherAsks.now "t1").run (holding payload) =
        (.ok (some ctx), holding payload) ∧
      (teacherAsks.now.sub ctx.lastUpdated).lt ({} : ContextCache).maxAge = false := by
  refine ⟨⟨PayloadFormat.json.encode unbounded, ?_, ?_⟩, ?_⟩
  · rw [decode_unbounded]
    exact nofun
  · refine (CacheM.run_bind_of_ok (get_holding _)).trans ?_
    dsimp only
    rw [decode_unbounded]
    rfl
  · obtain ⟨v, -, hdecode⟩ := SecurityContext.decode_encode isJson_timeless
    refine ⟨PayloadFormat.json.encode v, timeless, ?_, rfl⟩
    refine (CacheM.run_bind_of_ok (get_holding _)).trans ?_
    dsimp only
    rw [show ({} : ContextCache).decode (PayloadFormat.json.encode v) = .ok timeless from hdecode]
    dsimp only
    rw [show ({} : ContextCache).isStale teacherAsks.now timeless = false from Double.le_nan _]
    rfl

end ContextCache

end StaffAccess
