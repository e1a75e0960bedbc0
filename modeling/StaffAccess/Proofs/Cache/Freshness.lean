import StaffAccess.Proofs.Cache.Runs
import StaffAccess.Proofs.Context.Compilation

/-!
# Fresh contexts

What the service hands out in the course of a run that starts with an empty cache: contexts that
were compiled since they were last forgotten, and either just now or not too long ago. The rows
have their declared types and clocks give numbers; beyond that, rows and clocks do what they like,
and any call of the cache's store can fail.

What is kept has to be read back as it was written. That is assumed of the contexts which are
compiled in the run and of nothing else, so that conditions may be as deep and numbers as long as
the format of the cache allows; nothing is said about contexts that it cannot write. Compact JSON
reads back what rows within its limits give.

* `Circumstances.IsTyped`: rows of the declared types, and numbers as times.
* `Circumstances.AreReadBack`: a format reads back what is compiled.
* `Circumstances.IsWritable.areReadBack`: compact JSON does, within its limits.
* `recovers_of_compile`: what is compiled and read back is the same context again.
* `exists_command_of_mem_notes`: what is noted as compiled was compiled for a command.
* `serviceRun_spec`: the answers in every run, for both kinds of stores.
-/

namespace StaffAccess

/-! ## Ages -/

/-- Whether a double is a number. -/
def Double.IsFinite (d : Double) : Prop := ∃ s u, d = .finite s u

namespace Double

theorem ofRatio_ne_nan (negative : Bool) (num den : Nat) : ofRatio negative num den ≠ nan := by
  rw [ofRatio]
  split_ifs <;> intro h <;> cases h

/-- The difference of two numbers may be too large, but it is always there. -/
theorem sub_ne_nan {a b : Double} (ha : a.IsFinite) (hb : b.IsFinite) : a.sub b ≠ nan := by
  obtain ⟨s, m, rfl⟩ := ha
  obtain ⟨t, n, rfl⟩ := hb
  show (if signed s m + signed (!t) n = 0 then finite (s && !t) 0
    else ofRatio _ (signed s m + signed (!t) n).natAbs 1) ≠ nan
  split_ifs
  · exact nofun
  · exact ofRatio_ne_nan _ _ _

theorem exists_exact {a : Double} (h : a ≠ nan) : ∃ q, a.exact = some q := by
  cases a with
  | nan => exact absurd rfl h
  | infinite s => exact ⟨_, rfl⟩
  | finite s u => exact ⟨_, rfl⟩

theorem lt_of_not_le {a b : Double} (ha : a ≠ nan) (hb : b ≠ nan) (h : a.le b = false) :
    b.lt a = true := by
  obtain ⟨x, hx⟩ := exists_exact ha
  obtain ⟨y, hy⟩ := exists_exact hb
  rw [le, hx, hy] at h
  rw [lt, hx, hy]
  simpa [Quantity.le] using h

end Double

/-! ## Declared circumstances -/

/-- Whether rows have the declared types and times are numbers. -/
structure Circumstances.IsTyped (c : Circumstances) : Prop where
  rules : c.rules.IsTyped
  compiledAt : c.compiledAt.IsFinite
  now : c.now.IsFinite

/-- Whether rows have the declared types and are within the limits of JSON texts, and times are
    numbers that such texts can stand for. -/
structure Circumstances.IsWritable (c : Circumstances) : Prop where
  rules : c.rules.IsWritable
  compiledAt : c.compiledAt.IsFinite
  compiledAt_isRepresentable : c.compiledAt.IsRepresentable
  now : c.now.IsFinite

/-- Whether a format reads back the values of the contexts that are compiled for a user, as it
    does with all values within its limits. -/
def Circumstances.AreReadBack (format : PayloadFormat) (user : String) (c : Circumstances) : Prop :=
  ∀ ctx v, c.compile user = .ok ctx → ctx.toValue = .ok v →
    format.decode (format.encode v) = .ok v

/-- Whether a command is given in circumstances of the declared types. -/
def Command.IsTyped : Command → Prop
  | get _ c => c.IsTyped
  | _ => True

/-- Whether a format reads back what is compiled for a command. -/
def Command.IsReadBack (format : PayloadFormat) : Command → Prop
  | get user c => c.AreReadBack format user
  | _ => True

namespace Circumstances

variable {c : Circumstances}

theorem IsWritable.isTyped (h : c.IsWritable) : c.IsTyped :=
  ⟨h.rules.isTyped, h.compiledAt, h.now⟩

variable {p : Value → Prop} {user : String}

theorem hasValues_of_compile (h : c.rules.HasValues p) {ctx : SecurityContext}
    (hctx : c.compile user = .ok ctx) : ctx.HasValues p ∧ ctx.lastUpdated = c.compiledAt := by
  rw [compile] at hctx
  have houtcome := SecurityContext.outcome_compile h c.workers c.compiledAt user
  rw [hctx] at houtcome
  exact houtcome

theorem not_isDegraded_of_compile (h : c.rules.HasValues p) {e : Fault}
    (he : c.compile user = .error e) : ¬e.IsDegraded := by
  rw [compile] at he
  have houtcome := SecurityContext.outcome_compile h c.workers c.compiledAt user
  rw [he] at houtcome
  exact houtcome

/-- Compact JSON reads back what rows within its limits give. -/
theorem IsWritable.areReadBack (h : c.IsWritable) (user : String) : c.AreReadBack .json user := by
  intro ctx v hctx hv
  obtain ⟨hvalues, hupdated⟩ := hasValues_of_compile h.rules hctx
  have hjson : ctx.IsJson := hvalues.isJson (hupdated ▸ h.compiledAt_isRepresentable)
  exact PayloadFormat.decode_encode (SecurityContext.isJson_toValue hjson hv)

end Circumstances

/-- What is compiled from rows of the declared types is the same context again, if its value is
    read back. -/
theorem recovers_of_compile {cache : ContextCache} {c : Circumstances} (h : c.IsTyped)
    {user : String} (hback : c.AreReadBack cache.format user) {ctx : SecurityContext}
    (hctx : c.compile user = .ok ctx) : cache.Recovers ctx := by
  have hvalues := (Circumstances.hasValues_of_compile h.rules hctx).1
  obtain ⟨v, hv, hsame⟩ := SecurityContext.ofValue_toValue hvalues.isWellFormed
  refine ⟨v, hv, ?_⟩
  rw [ContextCache.decode, hback ctx v hctx hv, ok_bind, hsame]

/-! ## Notes -/

section Notes

variable {σ : Type} [CacheStore σ] {cache : ContextCache} {w : ServiceState σ} {user : String}
  {result : Except Fault SecurityContext}

theorem mem_notes_step {command : Command}
    (h : .compiled user result ∈ (command.step cache w).notes) :
    .compiled user result ∈ w.notes ∨ ∃ c, command = .get user c ∧ c.compile user = result := by
  cases command with
  | get other c =>
    simp only [Command.step, ServiceState.get] at h
    split at h
    · rcases List.mem_cons.1 h with heq | h
      · cases heq
        exact .inr ⟨c, rfl, rfl⟩
      · exact .inl h
    · exact .inl h
  | invalidate other =>
    simp only [Command.step, ServiceState.invalidate] at h
    split at h
    · exact .inl ((List.mem_cons.1 h).resolve_left fun heq => by cases heq)
    · exact .inl h
  | invalidateAll =>
    simp only [Command.step, ServiceState.invalidateAll] at h
    split at h
    · exact .inl ((List.mem_cons.1 h).resolve_left fun heq => by cases heq)
    · exact .inl h

/-- What is noted as compiled was compiled for a command. -/
theorem exists_command_of_mem_notes {commands : List Command}
    (h : .compiled user result ∈ (w.run cache commands).notes) :
    .compiled user result ∈ w.notes ∨
      ∃ c, .get user c ∈ commands ∧ c.compile user = result := by
  induction commands generalizing w with
  | nil => exact .inl h
  | cons command commands ih =>
    rcases ih h with h | ⟨c, hc, hresult⟩
    · rcases mem_notes_step h with h | ⟨c, rfl, hresult⟩
      · exact .inl h
      · exact .inr ⟨c, List.mem_cons_self, hresult⟩
    · exact .inr ⟨c, List.mem_cons_of_mem _ hc, hresult⟩

end Notes

/-! ## Answers -/

section Answers

variable {σ : Type} [CacheStore σ] (laws : StoreLaws σ) {cache : ContextCache}
  {start : σ} {commands : List Command}

theorem isSound_run_of_isTyped (httl : Double.ofInt? cache.ttl ≠ none)
    (hempty : CacheStore.keys start = []) (htyped : ∀ command ∈ commands, command.IsTyped)
    (hback : ∀ command ∈ commands, command.IsReadBack cache.format) :
    IsSound cache (laws.kept (ServiceState.run cache ⟨start, []⟩ commands).store)
      (ServiceState.run cache ⟨start, []⟩ commands).notes := by
  refine isSound_run httl (isSound_of_empty hempty) commands fun command hcommand => ?_
  have htyped := htyped command hcommand
  have hback := hback command hcommand
  cases command with
  | get user c => exact fun ctx hctx => recovers_of_compile htyped hback hctx
  | invalidate user => trivial
  | invalidateAll => trivial

/-- A context that was noted as compiled has a number as its time. -/
theorem lastUpdated_isFinite (htyped : ∀ command ∈ commands, command.IsTyped) {user : String}
    {ctx : SecurityContext}
    (h : .compiled user (.ok ctx) ∈ (ServiceState.run cache ⟨start, []⟩ commands).notes) :
    ctx.lastUpdated.IsFinite := by
  obtain ⟨c, hc, hctx⟩ := (exists_command_of_mem_notes h).resolve_left List.not_mem_nil
  have htyped : c.IsTyped := htyped _ hc
  rw [(Circumstances.hasValues_of_compile htyped.rules hctx).2]
  exact htyped.compiledAt

/-- An answer is a context compiled for the same user since it was last forgotten, and compiled
    just now or not too old, or it is the fault of a compilation made just now. -/
structure IsCurrent (cache : ContextCache) (w : ServiceState σ) (user : String)
    (c : Circumstances) : Prop where
  compiled : ∀ ctx, (w.get cache user c).1 = .ok ctx →
    .compiled user (.ok ctx) ∈ Note.sinceForgotten user (w.get cache user c).2.notes
  fresh : ∀ ctx, (w.get cache user c).1 = .ok ctx →
    (w.get cache user c).2.notes = .compiled user (.ok ctx) :: w.notes ∨
      (c.now.sub ctx.lastUpdated).lt cache.maxAge = true
  fault : ∀ e, (w.get cache user c).1 = .error e →
    (w.get cache user c).2.notes = .compiled user (.error e) :: w.notes ∧
      c.compile user = .error e ∧ ¬e.IsDegraded

include laws in
/-- Every answer in the course of a run is current. -/
theorem isCurrent_run (httl : Double.ofInt? cache.ttl ≠ none) (hmaxAge : cache.maxAge ≠ .nan)
    (hempty : CacheStore.keys start = []) (htyped : ∀ command ∈ commands, command.IsTyped)
    (hback : ∀ command ∈ commands, command.IsReadBack cache.format) (user : String)
    {c : Circumstances} (hc : c.IsTyped) (hcback : c.AreReadBack cache.format user) :
    IsCurrent cache (ServiceState.run cache ⟨start, []⟩ commands) user c := by
  have hsound := isSound_run_of_isTyped laws httl hempty htyped hback
  rcases (get_cases user c httl hsound fun ctx => recovers_of_compile hc hcback).2 with
    ⟨found, hfound, hnotes, hmem, hfresh⟩ | ⟨hcompiled, hnotes⟩
  · -- The context was in the cache.
    refine ⟨fun ctx hctx => ?_, fun ctx hctx => .inr ?_, fun e he => ?_⟩
    · cases hfound.symm.trans hctx
      rw [hnotes]
      exact hmem
    · cases hfound.symm.trans hctx
      have hfinite := lastUpdated_isFinite htyped ((List.takeWhile_sublist _).subset hmem)
      exact Double.lt_of_not_le hmaxAge (Double.sub_ne_nan hc.now hfinite) hfresh
    · cases hfound.symm.trans he
  · -- The context was compiled.
    refine ⟨fun ctx hctx => ?_, fun ctx hctx => .inl ?_, fun e he => ?_⟩
    · rw [hnotes, ← hcompiled, hctx]
      exact List.mem_cons_self
    · rw [hnotes, ← hcompiled, hctx]
    · have hfault : c.compile user = .error e := hcompiled ▸ he
      exact ⟨by rw [hnotes, hfault], hfault,
        Circumstances.not_isDegraded_of_compile hc.rules hfault⟩

/-- Forgetting is done and noted down, or it fails as degraded. It fails if the call of the store
    does. -/
structure ReportsFailures (w : ServiceState (Unreliable σ)) : Prop where
  invalidate : ∀ user,
    (w.invalidate user).1 = .ok () ∧ (w.invalidate user).2.notes = .forgot user :: w.notes ∨
      ∃ e, (w.invalidate user).1 = .error e ∧ e.IsDegraded ∧
        (w.invalidate user).2.notes = w.notes
  invalidateAll :
    (∃ n, w.invalidateAll.1 = .ok n ∧ w.invalidateAll.2.notes = .forgotAll :: w.notes) ∨
      ∃ e, w.invalidateAll.1 = .error e ∧ e.IsDegraded ∧ w.invalidateAll.2.notes = w.notes
  failed : ∀ error, w.store.failures.head?.join = some error →
    (∀ user, (w.invalidate user).1 = .error (.cacheDegraded .delete error)) ∧
      w.invalidateAll.1 = .error (.cacheDegraded .deletePrefix error)

theorem reportsFailures (laws : StoreLaws σ) (cache : ContextCache)
    {w : ServiceState (Unreliable σ)}
    (hsound : IsSound cache (laws.unreliable.kept w.store) w.notes) : ReportsFailures w where
  invalidate user := (invalidate_cases hsound user).2
  invalidateAll := (invalidateAll_cases hsound).2
  failed error herror := by
    refine ⟨fun user => ?_, ?_⟩
    · exact congrArg Prod.fst (Unreliable.run_call_of_failure herror)
    · exact congrArg Prod.fst (Unreliable.run_call_of_failure herror)

end Answers

/-- In every run over a cache that starts empty, whichever of the two stores it has and whichever
    calls of it fail: every context that is handed out was compiled for its user since it was last
    forgotten, and was compiled for this very question or is not too old; the only faults are
    those of a compilation for this very question; and whoever makes the cache forget is told if
    it did not. The rows have their declared types, and the format of the cache reads back what
    is compiled from them. -/
theorem serviceRun_spec {accepts : String → String → Bool}
    (haccepts : ∀ key, startsWith ContextCache.keyPrefix key = true →
      accepts (ServerStore.patternFor ContextCache.keyPrefix) key = true)
    {cache : ContextCache} (httl : Double.ofInt? cache.ttl ≠ none) (hmaxAge : cache.maxAge ≠ .nan)
    {start : Unreliable (MemoryStore ⊕ ServerStore accepts)} (hempty : CacheStore.keys start = [])
    {commands : List Command} (htyped : ∀ command ∈ commands, command.IsTyped)
    (hback : ∀ command ∈ commands, command.IsReadBack cache.format) :
    (∀ user c, c.IsTyped → c.AreReadBack cache.format user →
      IsCurrent cache (ServiceState.run cache ⟨start, []⟩ commands) user c) ∧
    ReportsFailures (ServiceState.run cache ⟨start, []⟩ commands) := by
  have laws := StoreLaws.memory.sum (StoreLaws.server haccepts)
  have hsound := isSound_run_of_isTyped laws.unreliable httl hempty htyped hback
  refine ⟨fun user c hc hcback => ?_, reportsFailures laws cache hsound⟩
  exact isCurrent_run laws.unreliable httl hmaxAge hempty htyped hback user hc hcback

/-! ## A run -/

theorem literally_patternFor {start key : String} (h : startsWith start key = true) :
    ServerStore.literally (ServerStore.patternFor start) key = true := by
  rw [ServerStore.literally, ServerStore.patternFor, String.toList_append,
    show "*".toList = ['*'] from rfl, List.dropLast_concat]
  exact h

/-- A store with one teacher, who is in no group. -/
def oneTeacher : RuleStore Read where
  findIdentity user := .returned
    (if user = "t1" then some ⟨"t1", .school, "TEACHER", .text "s1", true⟩ else none)
  findMemberships _ := .returned []
  findPermissions _ := .returned []
  findVisibilityRules _ := .returned []
  findUiRules _ := .returned []
  findManager _ := .returned none
  findSubordinates _ := .returned []

theorem oneTeacher_isWritable : oneTeacher.IsWritable where
  identity user := by
    intro identity hidentity
    rw [Option.mem_def, Option.ite_none_right_eq_some] at hidentity
    cases hidentity.2
    exact ⟨.inr ⟨"s1", rfl⟩⟩
  memberships _ := trivial
  permissions _ := trivial
  visibilityRules _ := fun _ h => absurd h List.not_mem_nil
  uiRules _ := fun _ h => absurd h List.not_mem_nil
  manager _ := trivial
  subordinates _ := trivial

/-- The teacher asks, a thousand seconds after the epoch. -/
def teacherAsks : Circumstances :=
  ⟨oneTeacher, 4, .finite false (1000 * Double.one), .finite false (1000 * Double.one)⟩

theorem teacherAsks_isWritable : teacherAsks.IsWritable := by
  have hrounded : Double.IsRounded (1000 * Double.one) := by
    rw [Double.IsRounded]
    decide +kernel
  exact ⟨oneTeacher_isWritable, ⟨_, _, rfl⟩, hrounded, ⟨_, _, rfl⟩⟩

/-- A store within the program of which the first call and the third one fail. -/
def flakyStore : Unreliable (MemoryStore ⊕ ServerStore ServerStore.literally) :=
  ⟨.inl {}, [some "TimeoutError", none, some "TimeoutError"]⟩

/-- The teacher asks, and the context is to be forgotten, which is tried twice. -/
def teacherCommands : List Command :=
  [.get "t1" teacherAsks, .invalidate "t1", .invalidate "t1"]

theorem teacherCommands_areReadBack :
    ∀ command ∈ teacherCommands, command.IsTyped ∧ command.IsReadBack .json := by
  intro command hcommand
  simp only [teacherCommands, List.mem_cons, List.not_mem_nil, or_false] at hcommand
  rcases hcommand with rfl | rfl | rfl
  · exact ⟨teacherAsks_isWritable.isTyped, teacherAsks_isWritable.areReadBack "t1"⟩
  · exact ⟨trivial, trivial⟩
  · exact ⟨trivial, trivial⟩

/-- A context is written although the cache could not be read, and forgotten the second time. What
    is compiled in the run is read back from JSON, and so is what any rows within the limits of JSON
    give after it. -/
theorem teacherCommands_spec :
    (∀ command ∈ teacherCommands, command.IsTyped ∧ command.IsReadBack .json) ∧
    (∀ user c, c.IsWritable →
      IsCurrent {} (ServiceState.run {} ⟨flakyStore, []⟩ teacherCommands) user c) ∧
    ReportsFailures (ServiceState.run {} ⟨flakyStore, []⟩ teacherCommands) := by
  have haccepts : ∀ key, startsWith ContextCache.keyPrefix key = true →
      ServerStore.literally (ServerStore.patternFor ContextCache.keyPrefix) key = true :=
    fun _ h => literally_patternFor h
  have httl : Double.ofInt? ({} : ContextCache).ttl ≠ none := by decide +kernel
  have hmaxAge : ({} : ContextCache).maxAge ≠ .nan := by decide +kernel
  have hempty : CacheStore.keys flakyStore = [] := rfl
  obtain ⟨hcurrent, hreports⟩ := serviceRun_spec haccepts httl hmaxAge hempty
    (fun command h => (teacherCommands_areReadBack command h).1)
    (fun command h => (teacherCommands_areReadBack command h).2)
  refine ⟨teacherCommands_areReadBack, fun user c hc => ?_, hreports⟩
  exact hcurrent user c hc.isTyped (hc.areReadBack user)

end StaffAccess
