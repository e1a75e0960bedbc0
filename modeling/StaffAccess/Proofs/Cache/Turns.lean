import StaffAccess.Proofs.Cache.Runs

/-!
# Turns of questions

A question for a context takes three turns: the cache is looked at, a context is compiled, and it
is kept. Nothing holds the questions of a service apart, so between two turns of one question
others can take theirs.

* `Question`: a question, and how far it has come.
* `Turn`, `Traffic.take`, `Traffic.run`: the turns, in any order.
* `Traffic.run_alone`: the three turns of a question in a row are `ContextService.get`.
-/

namespace StaffAccess

/-! ## Questions -/

/-- How far a question for a context has come. -/
inductive Progress
  /-- The cache did not have the context. -/
  | missed
  /-- The context was compiled and is yet to be kept. -/
  | compiled (ctx : SecurityContext)
  /-- There is an answer, and the context that was compiled for it, if one was. -/
  | answered (compiled? : Option SecurityContext) (answer : Except Fault SecurityContext)

namespace Progress

/-- After looking at the cache. -/
def ofLookup : Except Fault (Option SecurityContext) → Progress
  | .ok none => missed
  | .ok (some ctx) => answered none (.ok ctx)
  | .error e => answered none (.error e)

/-- After compiling. -/
def ofCompile : Except Fault SecurityContext → Progress
  | .ok ctx => compiled ctx
  | .error e => answered none (.error e)

/-- The context that was compiled. -/
def compiled? : Progress → Option SecurityContext
  | missed => none
  | compiled ctx => some ctx
  | answered ctx? _ => ctx?

/-- The answer. -/
def answer? : Progress → Option (Except Fault SecurityContext)
  | answered _ answer => some answer
  | _ => none

@[simp] theorem compiled?_ofLookup (found : Except Fault (Option SecurityContext)) :
    (ofLookup found).compiled? = none := by
  rcases found with e | _ | ctx <;> rfl

theorem compiled?_ofCompile_eq_some_iff {result : Except Fault SecurityContext}
    {ctx : SecurityContext} : (ofCompile result).compiled? = some ctx ↔ result = .ok ctx := by
  rcases result with e | ctx' <;> simp [ofCompile, compiled?]

theorem answer?_ofLookup_eq_ok_iff {found : Except Fault (Option SecurityContext)}
    {ctx : SecurityContext} :
    (ofLookup found).answer? = some (.ok ctx) ↔ found = .ok (some ctx) := by
  rcases found with e | _ | ctx' <;> simp [ofLookup, answer?]

theorem answer?_ofLookup_eq_error_iff {found : Except Fault (Option SecurityContext)}
    {e : Fault} : (ofLookup found).answer? = some (.error e) ↔ found = .error e := by
  rcases found with e' | _ | ctx <;> simp [ofLookup, answer?]

theorem answer?_ofCompile_ne_ok {result : Except Fault SecurityContext} {ctx : SecurityContext} :
    (ofCompile result).answer? ≠ some (.ok ctx) := by
  rcases result with e | ctx' <;> simp [ofCompile, answer?]

theorem answer?_ofCompile_eq_error_iff {result : Except Fault SecurityContext} {e : Fault} :
    (ofCompile result).answer? = some (.error e) ↔ result = .error e := by
  rcases result with e' | ctx <;> simp [ofCompile, answer?]

end Progress

/-- A question for a context. -/
structure Question where
  /-- The user whose context is asked for. -/
  user : String
  /-- The time at which the cache was looked at. -/
  askedAt : Double
  /-- How far it has come. -/
  progress : Progress

/-! ## Turns -/

/-- What can happen next to a service. Places are those of the questions, in the order in which
    they were asked. -/
inductive Turn
  /-- A question is asked, and the cache is looked at. -/
  | ask (user : String) (now : Double)
  /-- The context that a question is about is compiled from the rows as they are at the time. -/
  | compile (place : Nat) (rules : RuleStore Read) (workers : Int) (now : Double)
  /-- The context that was compiled for a question is kept, and the question answered. -/
  | keep (place : Nat) (now : Double)
  /-- The context of a user is to be forgotten. -/
  | invalidate (user : String)
  /-- All contexts are to be forgotten. -/
  | invalidateAll

/-- A store, and the questions that were asked so far. -/
structure Traffic (σ : Type) where
  /-- The store. -/
  store : σ
  /-- The questions. -/
  questions : List Question

namespace Traffic

variable {σ : Type} [CacheStore σ] (cache : ContextCache) (t : Traffic σ)

/-- Looks at the cache for a new question. -/
def ask (user : String) (now : Double) : Traffic σ :=
  let found := (ContextService.lookup cache now user).run t.store
  ⟨found.2, t.questions ++ [⟨user, now, .ofLookup found.1⟩]⟩

/-- Compiles for the question at a place, if the cache did not have its context. -/
def compile (place : Nat) (rules : RuleStore Read) (workers : Int) (now : Double) : Traffic σ :=
  match t.questions[place]? with
  | some ⟨user, askedAt, .missed⟩ =>
    ⟨t.store, t.questions.set place
      ⟨user, askedAt, .ofCompile (SecurityContext.compile rules workers now user)⟩⟩
  | _ => t

/-- Keeps what was compiled for the question at a place, and answers the question. -/
def keep (place : Nat) (now : Double) : Traffic σ :=
  match t.questions[place]? with
  | some ⟨user, askedAt, .compiled ctx⟩ =>
    let kept := (ContextService.keep cache now user ctx).run t.store
    ⟨kept.2, t.questions.set place
      ⟨user, askedAt, .answered (some ctx) (kept.1.map fun _ => ctx)⟩⟩
  | _ => t

/-- One turn. A turn of a question that is at another one changes nothing. -/
def take : Turn → Traffic σ
  | .ask user now => t.ask cache user now
  | .compile place rules workers now => t.compile place rules workers now
  | .keep place now => t.keep cache place now
  | .invalidate user => { t with store := ((ContextCache.invalidate user).run t.store).2 }
  | .invalidateAll => { t with store := (ContextCache.invalidateAll.run t.store).2 }

/-- Some turns, one after the other. -/
def run (turns : List Turn) : Traffic σ := turns.foldl (take cache) t

theorem run_concat (turns : List Turn) (turn : Turn) :
    t.run cache (turns ++ [turn]) = (t.run cache turns).take cache turn := by
  rw [run, List.foldl_concat, ← run]

section Places

variable {cache} {store : σ} {before : List Question} {user : String} {askedAt : Double}

omit [CacheStore σ] in
/-- The turns of the question that was asked last. -/
theorem compile_missed (rules : RuleStore Read) (workers : Int) (now : Double) :
    compile ⟨store, before ++ [⟨user, askedAt, .missed⟩]⟩ before.length rules workers now =
      ⟨store, before ++ [⟨user, askedAt,
        .ofCompile (SecurityContext.compile rules workers now user)⟩]⟩ := by
  simp [compile]

theorem keep_compiled (ctx : SecurityContext) (now : Double) :
    keep cache ⟨store, before ++ [⟨user, askedAt, .compiled ctx⟩]⟩ before.length now =
      ⟨((ContextService.keep cache now user ctx).run store).2, before ++ [⟨user, askedAt,
        .answered (some ctx) (((ContextService.keep cache now user ctx).run store).1.map
          fun _ => ctx)⟩]⟩ := by
  simp [keep]

variable {ctx? : Option SecurityContext} {answer : Except Fault SecurityContext}

omit [CacheStore σ] in
theorem compile_answered (rules : RuleStore Read) (workers : Int) (now : Double) :
    compile ⟨store, before ++ [⟨user, askedAt, .answered ctx? answer⟩]⟩ before.length rules workers
      now = ⟨store, before ++ [⟨user, askedAt, .answered ctx? answer⟩]⟩ := by
  simp [compile]

theorem keep_answered (now : Double) :
    keep cache ⟨store, before ++ [⟨user, askedAt, .answered ctx? answer⟩]⟩ before.length now =
      ⟨store, before ++ [⟨user, askedAt, .answered ctx? answer⟩]⟩ := by
  simp [keep]

end Places

/-- If a question has its three turns in a row, it is answered as a whole. -/
theorem run_alone (user : String) (c : Circumstances) : ∃ progress : Progress,
    t.run cache [.ask user c.now, .compile t.questions.length c.rules c.workers c.compiledAt,
        .keep t.questions.length c.now] =
      ⟨((ContextService.get cache c.compile c.now user).run t.store).2,
        t.questions ++ [⟨user, c.now, progress⟩]⟩ ∧
    progress.answer? = some ((ContextService.get cache c.compile c.now user).run t.store).1 := by
  simp only [run, List.foldl_cons, List.foldl_nil, take, ask]
  -- A question that is answered from the cache lets its other two turns pass.
  rcases hlookup : (ContextService.lookup cache c.now user).run t.store with ⟨e | _ | ctx, s⟩
  · have hget : (ContextService.get cache c.compile c.now user).run t.store = (.error e, s) :=
      CacheM.run_bind_of_error hlookup
    rw [Progress.ofLookup, compile_answered, keep_answered, hget]
    exact ⟨_, rfl, rfl⟩
  · have hget : (ContextService.get cache c.compile c.now user).run t.store = _ :=
      CacheM.run_bind_of_ok hlookup
    dsimp only at hget
    rw [Progress.ofLookup, compile_missed, ← Circumstances.compile, hget]
    rcases c.compile user with e | ctx
    · rw [Progress.ofCompile, keep_answered]
      exact ⟨_, rfl, rfl⟩
    · rw [Progress.ofCompile, keep_compiled]
      dsimp only
      rcases hkeep : (ContextService.keep cache c.now user ctx).run s with ⟨e | ⟨⟩, s'⟩
      · rw [CacheM.run_bind_of_error hkeep]
        exact ⟨_, rfl, rfl⟩
      · rw [CacheM.run_bind_of_ok hkeep]
        exact ⟨_, rfl, rfl⟩
  · have hget : (ContextService.get cache c.compile c.now user).run t.store = (.ok ctx, s) :=
      CacheM.run_bind_of_ok hlookup
    rw [Progress.ofLookup, compile_answered, keep_answered, hget]
    exact ⟨_, rfl, rfl⟩

end Traffic

end StaffAccess
