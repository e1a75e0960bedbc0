import StaffAccess.Proofs.Predicate.RoundTrip
import StaffAccess.Proofs.RowFilter.Fields

/-!
# Predicates of callers

Whoever asks for rows may bring a predicate of one's own, and then gets the rows that satisfy both
that one and the filter. The two are put together like everything else, by a constructor that leaves
out constants, stops at them, and unwraps what is left alone. None of this changes what a predicate
means: a conjunction is satisfied by the records that satisfy all parts, a disjunction by those that
satisfy some part, also without parts, with one, and with constants among them; and a test for some
values by those whose field has one of them, however often and in whichever form it is listed. So a
predicate of one's own takes rows away and never brings any back.

* `Predicate.Holds`, `Predicate.Tells`: what a predicate means.
* `Predicate.tells_allOf`, `Predicate.tells_anyOf`, `Predicate.exists_fieldIn_tells`: what is put
  together means what it stands for.
* `RowFilter.IsCompiled`: the filters that there are.
* `Predicate.holds_of_withCaller`: no row comes back.
* `Predicate.simplification_keepsMeaning`: all of this together.
-/

namespace StaffAccess

namespace Predicate

variable {p security caller : Predicate} {parts : List Predicate} {values : List Value}
  {record : Fields} {statement statement' : Prop}

/-! ## Meaning -/

/-- Whether a record satisfies a predicate. -/
def Holds (p : Predicate) (record : Fields) : Prop := p.eval (.record record) = .ok true

/-- Whether a predicate has an answer on a record, and one that says if a statement is true. -/
def Tells (p : Predicate) (record : Fields) (statement : Prop) : Prop :=
  ∃ b, p.eval (.record record) = .ok b ∧ (b = true ↔ statement)

theorem Tells.congr (h : p.Tells record statement) (hiff : statement ↔ statement') :
    p.Tells record statement' :=
  h.imp fun _ hb => ⟨hb.1, hb.2.trans hiff⟩

theorem Tells.holds_iff (h : p.Tells record statement) : p.Holds record ↔ statement := by
  obtain ⟨b, hb, hiff⟩ := h
  rw [Holds, hb, Except.ok.injEq, hiff]

/-- A simplified conjunction means all of its parts. -/
theorem tells_allOf (h : ∀ p ∈ parts, p.IsProper) :
    (allOf parts).Tells record (∀ p ∈ parts, p.Holds record) := by
  obtain ⟨answer, hanswer⟩ := exists_answer fun p hp => (h p hp).exists_eval record
  refine ⟨_, eval_allOf hanswer, ?_⟩
  rw [List.all_eq_true]
  refine forall₂_congr fun p hp => ?_
  rw [Holds, hanswer p hp, Except.ok.injEq]

/-- A simplified disjunction means some of its parts. -/
theorem tells_anyOf (h : ∀ p ∈ parts, p.IsProper) :
    (anyOf parts).Tells record (∃ p ∈ parts, p.Holds record) :=
  exists_eval_anyOf fun p hp => (h p hp).exists_eval record

/-- A test for some values means that the field has one of them. -/
theorem exists_fieldIn_tells (h : ∀ v ∈ values, v.isKey = true) (field : String) :
    ∃ p, fieldIn field values = .ok p ∧ ∀ record : Fields, p.Tells record
      (∃ x, record.lookup field = some x ∧ ∃ v ∈ values, x.same v = true) := by
  obtain ⟨p, hp, -, heval⟩ := eval_fieldIn h field
  refine ⟨p, hp, fun record => ⟨_, heval record, ?_⟩⟩
  simp only [Option.any_eq_true, List.any_eq_true]
  refine exists_congr fun x => and_congr_right fun _ => exists_congr fun v =>
    and_congr_right fun hv => ?_
  rw [Value.same_comm_of_isKey (h v hv)]

/-! ## The caller's predicate -/

theorem tells_withCaller (hsecurity : security.IsProper) (hcaller : caller.IsProper) :
    (security.withCaller (some caller)).Tells record
      (security.Holds record ∧ caller.Holds record) := by
  have hparts : ∀ p ∈ [security, caller], p.IsProper :=
    List.forall_mem_cons.2 ⟨hsecurity, List.forall_mem_singleton.2 hcaller⟩
  refine (tells_allOf hparts).congr ?_
  rw [List.forall_mem_cons, List.forall_mem_singleton]

theorem evalAll_eq_true_iff {r : Value} :
    evalAll parts r = .ok true ↔ ∀ p ∈ parts, p.eval r = .ok true := by
  induction parts with
  | nil => simp [evalAll]
  | cons p parts ih =>
    rw [evalAll, List.forall_mem_cons, bind_eq_ok_iff]
    constructor
    · rintro ⟨b, hb, hrest⟩
      cases b with
      | false => cases hrest
      | true => exact ⟨hb, ih.1 hrest⟩
    · rintro ⟨hp, hrest⟩
      exact ⟨true, hp, ih.2 hrest⟩

/-- A simplified conjunction is satisfied together with all its parts, also if some have no
    answer. -/
theorem holds_allOf_iff : (allOf parts).Holds record ↔ ∀ p ∈ parts, p.Holds record := by
  rw [allOf]
  split_ifs with hnone
  · obtain ⟨p, hp, hpnone⟩ := List.any_eq_true.1 hnone
    obtain rfl := eq_matchNone_of_isNone hpnone
    constructor
    · intro h
      cases h
    · intro h
      cases h _ hp
  · -- What is left out is satisfied by every record.
    have hkept : (∀ p ∈ parts.filter fun p => !p.isAll, p.Holds record) ↔
        ∀ p ∈ parts, p.Holds record := by
      refine ⟨fun h p hp => ?_, fun h p hp => h p (List.mem_of_mem_filter hp)⟩
      cases hall : p.isAll with
      | true =>
        rw [eq_matchAll_of_isAll hall]
        exact (rfl : matchAll.eval _ = _)
      | false => exact h p (List.mem_filter.2 ⟨hp, by simp [hall]⟩)
    rw [← hkept]
    split
    · rename_i hnil
      rw [hnil]
      exact ⟨fun _ p hp => absurd hp List.not_mem_nil, fun _ => (rfl : matchAll.eval _ = _)⟩
    · rename_i p hp
      rw [hp, List.forall_mem_singleton]
    · exact evalAll_eq_true_iff

/-- Whatever the caller's predicate is, the rows that are left satisfy the other one. -/
theorem holds_of_withCaller {caller : Option Predicate}
    (h : (security.withCaller caller).Holds record) : security.Holds record := by
  cases caller with
  | none => exact h
  | some caller => exact holds_allOf_iff.1 h security List.mem_cons_self

end Predicate

/-! ## Filters -/

namespace RowFilter

/-- The filters that there are: what somebody gets who asks for one, and what a context gives. -/
inductive IsCompiled : RowFilter → Prop
  | compile (policy : Policy) (loaded : Except Fault SecurityContext) (object : Value) :
    IsCompiled (compile policy loaded object)
  | ofContext {ctx : SecurityContext} {object : Value} {policy : Policy} {filter : RowFilter}
    (h : ofContext ctx object policy = .ok filter) : IsCompiled filter

theorem IsCompiled.isProper {filter : RowFilter} (h : filter.IsCompiled) :
    filter.predicate.IsProper := by
  cases h with
  | ofContext h => exact (isBuiltOn_ofContext h).isNormal.isProper
  | compile policy loaded object =>
    rcases compile_cases policy loaded object with hdenied | ⟨ctx, -, h⟩
    · rw [hdenied]
      exact .matchNone
    · exact (isBuiltOn_ofContext h).isNormal.isProper

end RowFilter

namespace Predicate

/-- What is put together means what it stands for: all parts, some part, or that a field has one of
    some values. A filter narrowed by a caller's predicate means both, and without one it is the
    filter. So the rows that are left after narrowing satisfy the filter, whatever the caller's
    predicate is. -/
theorem simplification_keepsMeaning :
    (∀ (parts : List Predicate) (record : Fields), (∀ p ∈ parts, p.IsProper) →
      (allOf parts).Tells record (∀ p ∈ parts, p.Holds record) ∧
        (anyOf parts).Tells record (∃ p ∈ parts, p.Holds record)) ∧
    (∀ (field : String) (values : List Value), (∀ v ∈ values, v.IsScalar) →
      ∃ p, fieldIn field values = .ok p ∧ ∀ record : Fields,
        p.Tells record (∃ x, record.lookup field = some x ∧ ∃ v ∈ values, x.same v = true)) ∧
    (∀ filter : RowFilter, filter.IsCompiled → ∀ caller : Predicate, caller.IsProper →
      ∀ record, (filter.predicate.withCaller (some caller)).Tells record
        (filter.predicate.Holds record ∧ caller.Holds record)) ∧
    (∀ security : Predicate, security.withCaller none = security) ∧
    ∀ (security : Predicate) (caller : Option Predicate) (record : Fields),
      (security.withCaller caller).Holds record → security.Holds record := by
  refine ⟨fun parts record h => ⟨tells_allOf h, tells_anyOf h⟩,
    fun field values h => exists_fieldIn_tells (fun v hv => (h v hv).1) field,
    fun filter hfilter caller hcaller record => tells_withCaller hfilter.isProper hcaller,
    fun _ => rfl, fun _ _ _ => holds_of_withCaller⟩

/-- The open ones. -/
def isOpen : Predicate := .equals "status" (.text "open")

/-- An open document of somebody on the team is left when the filter is narrowed to open documents.
    A late one of somebody else is not shown, even to those who ask for everything. -/
theorem openDocument_isLeft :
    (allOf [.matchAll, isOpen]).Holds [("status", .text "open")] ∧
    (∃ p, fieldIn "level" [.int 1, .bool true, .text "first"] = .ok p ∧
      p.Holds [("level", .bool true)]) ∧
    ((RowFilter.compile {} (.ok .teamLead) (.text "doc")).predicate.withCaller (some isOpen)).Holds
      [("created_by_id", .text "bob"), ("status", .text "open")] ∧
    ¬((RowFilter.compile {} (.ok .teamLead) (.text "doc")).predicate.withCaller
        (some .matchAll)).Holds [("created_by_id", .text "eve"), ("status", .text "late")] := by
  obtain ⟨hjunctions, hfieldIn, hnarrowed, -, hleft⟩ := simplification_keepsMeaning
  have hparts : ∀ p ∈ [.matchAll, isOpen], p.IsProper :=
    List.forall_mem_cons.2 ⟨.matchAll, List.forall_mem_singleton.2 (.equals _ _)⟩
  have hvalues : ∀ v ∈ [.int 1, .bool true, .text "first"], Value.IsScalar v := by
    simp [Value.IsScalar, Value.isKey]
  have hnotShown : ¬(RowFilter.compile {} (.ok .teamLead) (.text "doc")).predicate.Holds
      [("created_by_id", .text "eve"), ("status", .text "late")] := by
    intro h
    cases h
  have hsame : (Value.bool true).same (.int 1) = true := by decide +kernel
  obtain ⟨p, hp, htells⟩ := hfieldIn "level" _ hvalues
  refine ⟨?_, ⟨p, hp, ?_⟩, ?_, fun h => hnotShown (hleft _ _ _ h)⟩
  · refine ((hjunctions _ _ hparts).1.holds_iff).2 (List.forall_mem_cons.2 ⟨rfl, ?_⟩)
    exact List.forall_mem_singleton.2 rfl
  · exact (htells _).holds_iff.2 ⟨.bool true, rfl, .int 1, List.mem_cons_self, hsame⟩
  · exact (hnarrowed _ (.compile _ _ _) isOpen (.equals _ _) _).holds_iff.2 ⟨rfl, rfl⟩

end Predicate

end StaffAccess
