import StaffAccess.Proofs.Context.Codec

/-!
# Faults of reading contexts

What can go wrong when a value is read as a security context. Almost every fault says that the
value could not be read. The one exception is a number that is too large to be converted, and it
takes such a number somewhere in the value.

* `Value.IsInRange`: the values without numbers that are too large.
* `Fault.IsOfReading`: the faults of reading.
* `SecurityContext.outcome_ofValue`: reading has no other faults.
-/

namespace StaffAccess

/-- Whether no number in a value is too large: there are no infinities, and whole numbers count
    as doubles. -/
inductive Value.IsInRange : Value → Prop
  | null : IsInRange .null
  | bool (b : Bool) : IsInRange (.bool b)
  | int {n : Int} (h : Double.ofInt? n ≠ none) : IsInRange (.int n)
  | double {d : Double} (h : ∀ s, d ≠ .infinite s) : IsInRange (.double d)
  | text (s : String) : IsInRange (.text s)
  | list {xs : List Value} (h : ∀ x ∈ xs, IsInRange x) : IsInRange (.list xs)
  | record {f : Fields} (h : ∀ e ∈ f, IsInRange e.2) : IsInRange (.record f)

/-- Whether a fault is one of reading: a value is unreadable, or else it is not in range. -/
def Fault.IsOfReading (inRange : Prop) (e : Fault) : Prop :=
  e.isUnreadable = true ∨ e = .outOfRange ∧ ¬inRange

variable {p : Prop} {v : Value}

/-! ## Conversions -/

namespace Value

theorem outcome_toInt (h : p → v.IsInRange) :
    Outcome (fun _ => True) (Fault.IsOfReading p) v.toInt := by
  cases v with
  | bool b => trivial
  | int n => trivial
  | double d =>
    cases d with
    | nan => exact .inl rfl
    | infinite s =>
      refine .inr ⟨rfl, fun hp => ?_⟩
      cases h hp with
      | double hd => exact hd s rfl
    | finite s u =>
      simp only [toInt]
      split
      · trivial
      · exact .inl rfl
  | text s =>
    rw [toInt]
    split
    · trivial
    · exact .inl rfl
  | _ => exact .inl rfl

theorem doubleOfInt_eq (n : Int) :
    doubleOfInt n = (Double.ofInt? n).elim (.error .outOfRange) .ok := by
  -- The functions are compared before they are applied: what is behind `Double.ofInt?` is never
  -- computed.
  have hfunctions : doubleOfInt = fun n => (Double.ofInt? n).elim (.error .outOfRange) .ok := by
    delta doubleOfInt
    funext n
    generalize Double.ofInt? n = d?
    cases d? <;> rfl
  exact congrFun hfunctions n

theorem doubleOfInt_eq_error {n : Int} {e : Fault} (h : doubleOfInt n = .error e) :
    e = .outOfRange ∧ Double.ofInt? n = none := by
  rw [doubleOfInt_eq] at h
  generalize Double.ofInt? n = d? at h ⊢
  cases d? with
  | none => exact ⟨(Except.error.inj h).symm, rfl⟩
  | some d => cases h

theorem outcome_toDouble (h : p → v.IsInRange) :
    Outcome (fun _ => True) (Fault.IsOfReading p) v.toDouble := by
  cases hd : v.toDouble with
  | ok d => trivial
  | error e =>
    cases v with
    | bool b =>
      rw [toDouble] at hd
      have hsome : ∀ b, Double.ofInt? (ofFlag b) ≠ none := by decide +kernel
      exact absurd (doubleOfInt_eq_error hd).2 (hsome b)
    | int n =>
      rw [toDouble] at hd
      obtain ⟨rfl, hnone⟩ := doubleOfInt_eq_error hd
      refine .inr ⟨rfl, fun hp => ?_⟩
      cases h hp with
      | int hn => exact hn hnone
    | double d => cases hd
    | text s =>
      rw [toDouble] at hd
      split at hd <;> cases hd
      exact .inl rfl
    | _ =>
      simp only [toDouble, Except.error.injEq] at hd
      exact .inl (hd ▸ rfl)

/-! ## Parts -/

theorem IsInRange.of_mem_list {xs : List Value} (h : (Value.list xs).IsInRange) (hv : v ∈ xs) :
    v.IsInRange := by
  cases h with
  | list h => exact h v hv

theorem IsInRange.of_mem_record {f : Fields} {e : String × Value} (h : (Value.record f).IsInRange)
    (he : e ∈ f) : e.2.IsInRange := by
  cases h with
  | record h => exact h e he

theorem IsInRange.of_lookup {f : Fields} {name : String} (h : (Value.record f).IsInRange)
    (hv : f.lookup name = some v) : v.IsInRange := by
  obtain ⟨before, after, rfl, -⟩ := List.lookup_eq_some_iff.1 hv
  exact h.of_mem_record (List.mem_append_right _ List.mem_cons_self)

theorem outcome_field (name : String) (h : p → v.IsInRange) :
    Outcome (fun x => p → x.IsInRange) (Fault.IsOfReading p) (v.field name) := by
  cases v with
  | record f =>
    rw [field]
    split
    · next x hx => exact fun hp => (h hp).of_lookup hx
    · exact .inl rfl
  | _ => exact .inl rfl

theorem outcome_field? (name : String) (h : p → v.IsInRange) :
    Outcome (fun x? => ∀ x, x? = some x → p → x.IsInRange) (Fault.IsOfReading p)
      (v.field? name) := by
  cases v with
  | record f => exact fun x hx hp => (h hp).of_lookup hx
  | _ => exact .inl rfl

theorem outcome_fieldD (name : String) (h : p → v.IsInRange) :
    Outcome (fun x => p → x.IsInRange) (Fault.IsOfReading p) (v.fieldD name) := by
  cases v with
  | record f =>
    intro hp
    cases hx : f.lookup name with
    | none => exact .null
    | some x => exact (h hp).of_lookup hx
  | _ => exact .inl rfl

/-- A number under a name, with a default in range. -/
theorem isInRange_getD {x? : Option Value} (hx : ∀ x, x? = some x → p → x.IsInRange)
    {fallback : Value} (hfallback : fallback.IsInRange) : p → (x?.getD fallback).IsInRange := by
  intro hp
  cases x? with
  | none => exact hfallback
  | some x => exact hx x rfl hp

theorem outcome_members (h : p → v.IsInRange) :
    Outcome (fun xs => ∀ x ∈ xs, p → x.IsInRange) (Fault.IsOfReading p) v.members := by
  cases v with
  | list xs => exact fun x hx hp => (h hp).of_mem_list hx
  | text s =>
    intro x hx _
    obtain ⟨c, -, rfl⟩ := List.mem_map.1 hx
    exact .text _
  | record f =>
    intro x hx _
    obtain ⟨e, -, rfl⟩ := List.mem_map.1 hx
    exact .text _
  | _ => exact .inl rfl

end Value

/-! ## Rules -/

theorem VisibilityRule.outcome_ofValue (h : p → v.IsInRange) :
    Outcome (fun _ => True) (Fault.IsOfReading p) (ofValue v) := by
  refine outcome_bind (Value.outcome_field "kind" h) fun kind _ => ?_
  have hrest (kind : RuleKind) : Outcome (fun _ => True) (Fault.IsOfReading p) (do
      let condition ← v.fieldD "condition"
      let priority ← ((← v.field? "priority").getD (.int 0)).toInt
      return { kind, condition := if condition.truthy then condition else .record [],
               priority := .int priority : VisibilityRule }) := by
    refine outcome_bind (Value.outcome_fieldD _ h) fun _ _ => ?_
    refine outcome_bind (Value.outcome_field? _ h) fun priority hpriority => ?_
    have hnumber := Value.isInRange_getD hpriority (.int (n := 0) (by decide +kernel))
    exact outcome_bind (Value.outcome_toInt hnumber) fun _ _ => trivial
  cases kind with
  | text s =>
    dsimp only
    cases RuleKind.ofWord? s with
    | none => exact .inl rfl
    | some kind => exact hrest kind
  | _ => exact .inl rfl

theorem UiRule.outcome_ofValue (h : p → v.IsInRange) :
    Outcome (fun _ => True) (Fault.IsOfReading p) (ofValue v) := by
  refine outcome_bind (Value.outcome_field _ h) fun _ _ => ?_
  refine outcome_bind (Value.outcome_field _ h) fun _ _ => ?_
  refine outcome_bind (Value.outcome_field _ h) fun _ _ => ?_
  refine outcome_bind (Value.outcome_field _ h) fun _ _ => ?_
  exact outcome_bind (Value.outcome_fieldD _ h) fun _ _ => trivial

/-! ## Hierarchy -/

theorem Subordinate.outcome_ofValue (h : p → v.IsInRange) :
    Outcome (fun _ => True) (Fault.IsOfReading p) (ofValue v) := by
  refine outcome_bind (Value.outcome_field _ h) fun _ _ => ?_
  refine outcome_bind (Value.outcome_field? _ h) fun _ _ => ?_
  refine outcome_bind (Value.outcome_field? _ h) fun level hlevel => ?_
  have hnumber := Value.isInRange_getD hlevel (.int (n := 1) (by decide +kernel))
  exact outcome_bind (Value.outcome_toInt hnumber) fun _ _ => trivial

theorem Hierarchy.outcome_ofValue (h : p → v.IsInRange) :
    Outcome (fun _ => True) (Fault.IsOfReading p) (ofValue v) := by
  refine outcome_bind (Value.outcome_fieldD _ h) fun _ _ => ?_
  refine outcome_bind (Value.outcome_fieldD _ h) fun subordinates hsubordinates => ?_
  dsimp only
  split_ifs
  · refine outcome_bind (Value.outcome_members hsubordinates) fun members hmembers => ?_
    exact outcome_bind (outcome_mapM fun x hx => Subordinate.outcome_ofValue (hmembers x hx))
      fun _ _ => trivial
  · trivial

/-! ## Contexts -/

namespace SecurityContext

/-- Whether the parts in which numbers are looked for are in range. -/
structure Parts.AreInRange (p : Prop) (parts : Parts) : Prop where
  rowRules : ∀ e ∈ parts.rowRules, p → e.2.IsInRange
  uiRules : ∀ x ∈ parts.uiRules, p → x.IsInRange
  hierarchy : ∀ x, parts.hierarchy = some x → p → x.IsInRange

theorem Parts.outcome_ofValue (h : p → v.IsInRange) :
    Outcome (AreInRange p) (Fault.IsOfReading p) (ofValue v) := by
  cases v with
  | record f =>
    have hpart (name : String) {fallback : Value} (hfallback : fallback.IsInRange) :
        p → ((f.lookup name).getD fallback).IsInRange :=
      Value.isInRange_getD (fun x hx hp => (h hp).of_lookup hx) hfallback
    have hrowRules := hpart "data_filters" (.record fun _ h => absurd h List.not_mem_nil)
    have huiRules := hpart "ui_rules" (.list fun _ h => absurd h List.not_mem_nil)
    have hhierarchy := hpart "hierarchy" .null
    simp only [ofValue]
    split
    · next hrows =>
      rw [hrows] at hrowRules
      split
      · next huis _ =>
        rw [huis] at huiRules
        exact ⟨fun e he hp => (hrowRules hp).of_mem_record he,
          fun x hx hp => (huiRules hp).of_mem_list hx, nofun⟩
      · next huis hrecord =>
        rw [huis] at huiRules
        rw [hrecord] at hhierarchy
        exact ⟨fun e he hp => (hrowRules hp).of_mem_record he,
          fun x hx hp => (huiRules hp).of_mem_list hx, fun x hx => Option.some.inj hx ▸ hhierarchy⟩
      · exact .inl rfl
    · exact .inl rfl
  | _ => exact .inl rfl

theorem outcome_scopeOf : Outcome (fun _ => True) (Fault.IsOfReading p) (scopeOf v) := by
  cases v with
  | text s =>
    rw [scopeOf]
    split
    · trivial
    · exact .inl rfl
  | _ => exact .inl rfl

theorem outcome_grantsOfValue (e : String × Value) :
    Outcome (fun _ => True) (Fault.IsOfReading p) (grantsOfValue e) := by
  obtain ⟨name, v⟩ := e
  cases v with
  | record f => trivial
  | _ => exact .inl rfl

theorem outcome_rulesOfValue {e : String × Value} (h : p → e.2.IsInRange) :
    Outcome (fun _ => True) (Fault.IsOfReading p) (rulesOfValue e) := by
  refine outcome_bind (Value.outcome_members h) fun members hmembers => ?_
  exact outcome_bind (outcome_mapM fun x hx => VisibilityRule.outcome_ofValue (hmembers x hx))
    fun _ _ => trivial

/-- Reading a context fails because something cannot be read, or else because of a number that
    is too large. -/
theorem outcome_ofValue (h : p → v.IsInRange) :
    Outcome (fun _ => True) (Fault.IsOfReading p) (ofValue v) := by
  refine outcome_bind (Parts.outcome_ofValue h) fun parts hparts => ?_
  refine outcome_bind (Value.outcome_field _ h) fun _ _ => ?_
  refine outcome_bind (Value.outcome_field _ h) fun _ _ => ?_
  refine outcome_bind outcome_scopeOf fun scope _ => ?_
  refine outcome_bind (Value.outcome_field _ h) fun _ _ => ?_
  refine outcome_bind (Value.outcome_fieldD _ h) fun _ _ => ?_
  refine outcome_bind (outcome_mapM fun e _ => outcome_grantsOfValue e) fun _ _ => ?_
  refine outcome_bind (outcome_mapM fun e he => outcome_rulesOfValue (hparts.rowRules e he))
    fun _ _ => ?_
  refine outcome_bind (outcome_mapM fun x hx => UiRule.outcome_ofValue (hparts.uiRules x hx))
    fun _ _ => ?_
  refine outcome_bind (p := fun _ => True) ?_ fun hierarchy _ => ?_
  · cases hhierarchy : parts.hierarchy with
    | none => trivial
    | some x =>
      exact outcome_bind (Hierarchy.outcome_ofValue (hparts.hierarchy x hhierarchy))
        fun _ _ => trivial
  refine outcome_bind (Value.outcome_field? _ h) fun time htime => ?_
  have hnumber := Value.isInRange_getD htime (.double (d := .finite false 0) nofun)
  refine outcome_bind (Value.outcome_toDouble hnumber) fun _ _ => ?_
  dsimp only
  split_ifs
  · exact .inl rfl
  · trivial

end SecurityContext

end StaffAccess
