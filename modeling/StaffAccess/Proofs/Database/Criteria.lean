import StaffAccess.Database.Criterion
import StaffAccess.Proofs.Predicate.Evaluation

/-!
# Criteria and answers

A predicate has an answer on a record, and as a criterion it selects rows of a table. In a table,
comparing with an empty column is open, and only what is true counts. On tables of texts the two
agree, however junctions are nested, with one exception: null in a list of values is found in an
empty field of a record, but not in an empty column. So a criterion never selects a row that the
predicate refuses, but it may leave out one that the predicate takes.

* `Database.Row.record`: the record of the columns of a row.
* `Predicate.IsTextual`: the predicates whose values are texts or null.
* `Predicate.Lists`: the lists of values that a predicate tests for.
* `Database.Criterion.truth_allOf`, `Database.Criterion.truth_anyOf`: the truth of junctions.
* `Predicate.criterion_selects_iff`: what a criterion selects, and where it agrees with the answer.
-/

namespace StaffAccess

/-- Whether a value is a text or null. -/
def Value.IsTextual (v : Value) : Prop := v = .null ∨ ∃ s, v = .text s

theorem Value.IsTextual.isKey {v : Value} (hv : v.IsTextual) : v.isKey = true := by
  rcases hv with rfl | ⟨s, rfl⟩ <;> rfl

namespace Database

/-- The record of the columns of a row. -/
def Row.record (row : Row) (columns : List Column) : Fields :=
  columns.map fun c => (c.name, row.get c.name)

theorem lookup_record (row : Row) (columns : List Column) (name : String) :
    (row.record columns).lookup name =
      (columns.find? fun c => c.name = name).map fun _ => row.get name := by
  induction columns with
  | nil => rfl
  | cons c columns ih =>
    rw [Row.record] at ih ⊢
    rw [List.map_cons, List.lookup_cons, List.find?_cons]
    by_cases hname : c.name = name
    · simp [hname]
    · have hother : (name == c.name) = false := by simpa using Ne.symm hname
      simpa [hname, hother] using ih

namespace Criterion

variable {row : Row} {cs : List Criterion}

/-! ## Junctions -/

theorem both_eq_true_iff {a b : Option Bool} :
    both a b = some true ↔ a = some true ∧ b = some true := by
  rcases a with _ | _ | _ <;> rcases b with _ | _ | _ <;> simp [both]

theorem either_eq_true_iff {a b : Option Bool} :
    either a b = some true ↔ a = some true ∨ b = some true := by
  rcases a with _ | _ | _ <;> rcases b with _ | _ | _ <;> simp [either]

theorem truthOfAll_eq_true_iff (h : ∀ c ∈ cs, c.isBlank = false) :
    truthOfAll cs row = some true ↔ ∀ c ∈ cs, c.truth row = some true := by
  induction cs with
  | nil => simp [truthOfAll]
  | cons c cs ih =>
    rw [List.forall_mem_cons] at h
    rw [truthOfAll, h.1, if_neg Bool.false_ne_true, both_eq_true_iff, ih h.2, List.forall_mem_cons]

theorem truthOfAny_eq_true_iff (h : ∀ c ∈ cs, c.isBlank = false) :
    truthOfAny cs row = some true ↔ ∃ c ∈ cs, c.truth row = some true := by
  induction cs with
  | nil => simp [truthOfAny]
  | cons c cs ih =>
    rw [List.forall_mem_cons] at h
    rw [truthOfAny, h.1, if_neg Bool.false_ne_true, either_eq_true_iff, ih h.2,
      List.exists_mem_cons_iff]

/-- Whether a criterion says something, and only compares with values that columns can have. -/
structure IsSound (c : Criterion) : Prop where
  isBlank : c.isBlank = false
  check : c.check = .ok ()

theorem areBlank_eq_false (hsome : cs ≠ []) (h : ∀ c ∈ cs, c.IsSound) : areBlank cs = false := by
  cases cs with
  | nil => exact absurd rfl hsome
  | cons c cs => rw [areBlank, (h c List.mem_cons_self).isBlank, Bool.false_and]

theorem checkAll_eq_ok (h : ∀ c ∈ cs, c.IsSound) : checkAll cs = .ok () := by
  induction cs with
  | nil => rfl
  | cons c cs ih =>
    rw [List.forall_mem_cons] at h
    rw [checkAll, h.1.check, ok_bind, ih h.2]

theorem isSound_conj (hsome : cs ≠ []) (h : ∀ c ∈ cs, c.IsSound) : (conj cs).IsSound :=
  ⟨by rw [isBlank, areBlank_eq_false hsome h], by rw [check, checkAll_eq_ok h]⟩

theorem isSound_disj (hsome : cs ≠ []) (h : ∀ c ∈ cs, c.IsSound) : (disj cs).IsSound :=
  ⟨by rw [isBlank, areBlank_eq_false hsome h], by rw [check, checkAll_eq_ok h]⟩

theorem eq_always_of_isAlways {c : Criterion} (h : c.isAlways = true) : c = always := by
  cases c <;> simp_all [isAlways]

theorem eq_never_of_isNever {c : Criterion} (h : c.isNever = true) : c = never := by
  cases c <;> simp_all [isNever]

theorem isSound_allOf (hsome : cs ≠ []) (h : ∀ c ∈ cs, c.IsSound) : (allOf cs).IsSound := by
  have hkept : ∀ c ∈ cs.filter fun c => !c.isAlways, c.IsSound :=
    fun c hc => h c (List.mem_of_mem_filter hc)
  have hempty : cs.isEmpty = false := by simpa using hsome
  simp only [allOf, hempty, if_neg Bool.false_ne_true]
  split_ifs with hnever
  · exact ⟨rfl, rfl⟩
  · split
    · exact ⟨rfl, rfl⟩
    · next c hc => exact hkept c (hc ▸ List.mem_singleton_self c)
    · next hne _ => exact isSound_conj hne hkept

/-- A simplified conjunction is true where all its parts are. -/
theorem truth_allOf (hsome : cs ≠ []) (h : ∀ c ∈ cs, c.IsSound) :
    (allOf cs).truth row = some true ↔ ∀ c ∈ cs, c.truth row = some true := by
  have hempty : cs.isEmpty = false := by simpa using hsome
  simp only [allOf, hempty, if_neg Bool.false_ne_true]
  split_ifs with hnever
  · obtain ⟨c, hc, hcnever⟩ := List.any_eq_true.1 hnever
    obtain rfl := eq_never_of_isNever hcnever
    exact ⟨nofun, fun hall => hall _ hc⟩
  · -- What is left out is true of every row.
    have hkept : (∀ c ∈ cs.filter fun c => !c.isAlways, c.truth row = some true) ↔
        ∀ c ∈ cs, c.truth row = some true := by
      refine ⟨fun hkept c hc => ?_, fun hall c hc => hall c (List.mem_of_mem_filter hc)⟩
      cases halways : c.isAlways with
      | true => rw [eq_always_of_isAlways halways, truth]
      | false => exact hkept c (List.mem_filter.2 ⟨hc, by simp [halways]⟩)
    rw [← hkept]
    split
    · next hnil => simp [hnil, truth]
    · next c hc => simp [hc]
    · rw [truth]
      exact truthOfAll_eq_true_iff fun c hc => (h c (List.mem_of_mem_filter hc)).isBlank

theorem isSound_anyOf (hsome : cs ≠ []) (h : ∀ c ∈ cs, c.IsSound) : (anyOf cs).IsSound := by
  have hkept : ∀ c ∈ cs.filter fun c => !c.isNever, c.IsSound :=
    fun c hc => h c (List.mem_of_mem_filter hc)
  have hempty : cs.isEmpty = false := by simpa using hsome
  simp only [anyOf, hempty, if_neg Bool.false_ne_true]
  split_ifs with halways
  · exact ⟨rfl, rfl⟩
  · split
    · exact ⟨rfl, rfl⟩
    · next c hc => exact hkept c (hc ▸ List.mem_singleton_self c)
    · next hne _ => exact isSound_disj hne hkept

/-- A simplified disjunction is true where one of its parts is. -/
theorem truth_anyOf (hsome : cs ≠ []) (h : ∀ c ∈ cs, c.IsSound) :
    (anyOf cs).truth row = some true ↔ ∃ c ∈ cs, c.truth row = some true := by
  have hempty : cs.isEmpty = false := by simpa using hsome
  simp only [anyOf, hempty, if_neg Bool.false_ne_true]
  split_ifs with halways
  · obtain ⟨c, hc, hcalways⟩ := List.any_eq_true.1 halways
    obtain rfl := eq_always_of_isAlways hcalways
    exact ⟨fun _ => ⟨_, hc, by rw [truth]⟩, fun _ => by rw [truth]⟩
  · -- What is left out is true of no row.
    have hkept : (∃ c ∈ cs.filter fun c => !c.isNever, c.truth row = some true) ↔
        ∃ c ∈ cs, c.truth row = some true := by
      refine ⟨fun ⟨c, hc, htrue⟩ => ⟨c, List.mem_of_mem_filter hc, htrue⟩,
        fun ⟨c, hc, htrue⟩ => ⟨c, List.mem_filter.2 ⟨hc, ?_⟩, htrue⟩⟩
      cases hnever : c.isNever with
      | true =>
        rw [eq_never_of_isNever hnever, truth] at htrue
        cases htrue
      | false => rfl
    rw [← hkept]
    split
    · next hnil => simp [hnil, truth]
    · next c hc => simp [hc]
    · rw [truth]
      exact truthOfAny_eq_true_iff fun c hc => (h c (List.mem_of_mem_filter hc)).isBlank

/-! ## Comparisons -/

theorem bound_of_isTextual {c : Column} (hkind : c.kind = .text) {v : Value} (hv : v.IsTextual) :
    c.kind.store v = .ok v ∧ bound c v = v := by
  rw [bound, hkind]
  rcases hv with rfl | ⟨s, rfl⟩ <;> exact ⟨rfl, rfl⟩

/-- A comparison is true where neither side is null and both are the same. -/
theorem sameTruth_eq_true_iff {x v : Value} :
    sameTruth x v = some true ↔ x ≠ .null ∧ v ≠ .null ∧ x.same v = true := by
  rw [sameTruth]
  split_ifs with hnull
  · rw [Bool.or_eq_true, Value.isNull_iff, Value.isNull_iff] at hnull
    exact ⟨nofun, fun ⟨hx, hv, _⟩ => absurd hnull (not_or.2 ⟨hx, hv⟩)⟩
  · rw [Bool.or_eq_true, Value.isNull_iff, Value.isNull_iff, not_or] at hnull
    simp [hnull]

/-- A list of values is matched where one of them is. -/
theorem truth_among {c : Column} (hkind : c.kind = .text) {vs : List Value}
    (hvs : ∀ v ∈ vs, v.IsTextual) : (among c vs).truth row = some true ↔
      ∃ v ∈ vs, sameTruth (row.get c.name) v = some true := by
  rw [truth]
  induction vs with
  | nil => simp
  | cons v vs ih =>
    rw [List.forall_mem_cons] at hvs
    rw [List.foldr_cons, either_eq_true_iff, (bound_of_isTextual hkind hvs.1).2, ih hvs.2,
      List.exists_mem_cons_iff]

end Criterion

end Database

/-! ## Predicates -/

namespace Predicate

open Database

/-- The predicates whose values are texts or null. Junctions have parts. -/
inductive IsTextual : Predicate → Prop
  | matchAll : IsTextual matchAll
  | matchNone : IsTextual matchNone
  | equals (field : String) {v : Value} (hv : v.IsTextual) : IsTextual (equals field v)
  | among (field : String) {vs : List Value} (hvs : ∀ v ∈ vs, v.IsTextual) :
      IsTextual (among field vs)
  | conj {parts : List Predicate} (hsome : parts ≠ []) (h : ∀ p ∈ parts, IsTextual p) :
      IsTextual (conj parts)
  | disj {parts : List Predicate} (hsome : parts ≠ []) (h : ∀ p ∈ parts, IsTextual p) :
      IsTextual (disj parts)

/-- Whether a predicate tests somewhere whether a field has one of some values. -/
inductive Lists (field : String) (vs : List Value) : Predicate → Prop
  | among : Lists field vs (among field vs)
  | conj {parts : List Predicate} {p : Predicate} (hp : p ∈ parts) (h : Lists field vs p) :
      Lists field vs (conj parts)
  | disj {parts : List Predicate} {p : Predicate} (hp : p ∈ parts) (h : Lists field vs p) :
      Lists field vs (disj parts)

/-- Whether no list of values in a predicate has null for a column that is empty in a row. -/
def AvoidsEmpty (columns : List Column) (row : Row) (p : Predicate) : Prop :=
  ∀ c ∈ columns, ∀ vs, p.Lists c.name vs → .null ∈ vs → row.get c.name ≠ .null

variable {columns : List Column} {row : Row} {ps : List Predicate}

theorem criteria_eq {crit : Predicate → Criterion}
    (h : ∀ p ∈ ps, p.criterion columns = .ok (crit p)) :
    criteria columns ps = .ok (ps.map crit) := by
  induction ps with
  | nil => rfl
  | cons p ps ih =>
    rw [List.forall_mem_cons] at h
    rw [criteria, h.1, ok_bind, ih h.2]
    rfl

/-- A predicate, its criterion and its answer for a row: the criterion is true only where the
    answer is yes, and wherever it is if the lists avoid null. -/
structure Agrees (columns : List Column) (row : Row) (p : Predicate) (c : Criterion) (b : Bool) :
    Prop where
  criterion : p.criterion columns = .ok c
  isSound : c.IsSound
  eval : p.eval (.record (row.record columns)) = .ok b
  of_truth : c.truth row = some true → b = true
  truth : p.AvoidsEmpty columns row → b = true → c.truth row = some true

/-- The answer on the record of a row depends on the column that has the name of the field. -/
theorem lookup_record_eq_some {c : Column} {field : String}
    (hfind : columns.find? (fun c => c.name = field) = some c) :
    (row.record columns).lookup field = some (row.get c.name) := by
  have hname : c.name = field := by simpa using List.find?_some hfind
  rw [lookup_record, hfind, hname]
  rfl

theorem exists_agrees_equals (hcolumns : ∀ c ∈ columns, c.kind = .text) (field : String)
    {v : Value} (hv : v.IsTextual) : ∃ c b, Agrees columns row (equals field v) c b := by
  cases hfind : columns.find? fun c => c.name = field with
  | none =>
    refine ⟨.never, false, ?_, ⟨rfl, rfl⟩, ?_, nofun, nofun⟩
    · rw [Predicate.criterion, hfind]
    · rw [eval_equals, lookup_record, hfind]
      rfl
  | some c =>
    have hkind := hcolumns c (List.mem_of_find?_eq_some hfind)
    have hstore := Criterion.bound_of_isTextual hkind hv
    have heval : (equals field v).eval (.record (row.record columns)) =
        .ok ((row.get c.name).same v) := by
      rw [eval_equals, lookup_record_eq_some hfind]
      rfl
    have hcrit : (equals field v).criterion columns =
        .ok (if v.isNull then .isNull c else .equals c v) := by
      rw [Predicate.criterion, hfind]
    rcases hv with rfl | ⟨s, rfl⟩
    · -- Comparing with null asks whether the column is empty.
      have htruth : (Criterion.isNull c).truth row = some true ↔
          (row.get c.name).same .null = true := by
        rw [Criterion.truth, Option.some.injEq, Value.isNull_iff, Value.same_null_right]
      exact ⟨.isNull c, _, hcrit, ⟨rfl, rfl⟩, heval, htruth.1, fun _ => htruth.2⟩
    · have htruth : (Criterion.equals c (.text s)).truth row = some true ↔
          (row.get c.name).same (.text s) = true := by
        rw [Criterion.truth, hstore.2, Criterion.sameTruth_eq_true_iff, Value.same_text_right_iff]
        exact ⟨fun h => h.2.2, fun h => ⟨by rw [h]; nofun, nofun, h⟩⟩
      refine ⟨.equals c (.text s), _, hcrit, ⟨rfl, ?_⟩, heval, htruth.1, fun _ => htruth.2⟩
      rw [Criterion.check, hstore.1]
      rfl

theorem eval_among (record : Fields) (field : String) (vs : List Value) :
    (among field vs).eval (.record record) =
      .ok ((record.lookup field).any fun x => vs.any (·.same x)) := rfl

theorem exists_agrees_among (hcolumns : ∀ c ∈ columns, c.kind = .text) (field : String)
    {vs : List Value} (hvs : ∀ v ∈ vs, v.IsTextual) :
    ∃ c b, Agrees columns row (among field vs) c b := by
  cases hfind : columns.find? fun c => c.name = field with
  | none =>
    refine ⟨.never, false, ?_, ⟨rfl, rfl⟩, ?_, nofun, nofun⟩
    · rw [Predicate.criterion, hfind]
    · rw [eval_among, lookup_record, hfind]
      rfl
  | some c =>
    have hmem : c ∈ columns := List.mem_of_find?_eq_some hfind
    have hname : c.name = field := by simpa using List.find?_some hfind
    have hkind := hcolumns c hmem
    have hsame : ∀ v ∈ vs, v.same (row.get c.name) = (row.get c.name).same v := fun v hv =>
      Value.same_comm_of_isKey (hvs v hv).isKey _
    refine ⟨.among c vs, vs.any (·.same (row.get c.name)), ?_, ⟨rfl, ?_⟩, ?_, ?_, ?_⟩
    · rw [Predicate.criterion, hfind]
    · have hstored : vs.mapM c.kind.store = .ok vs :=
        mapM_eq_ok_iff.2 (List.forall₂_same.2 fun v hv =>
          (Criterion.bound_of_isTextual hkind (hvs v hv)).1)
      rw [Criterion.check, hstored]
      rfl
    · rw [eval_among, lookup_record_eq_some hfind]
      rfl
    · rw [Criterion.truth_among hkind hvs, List.any_eq_true]
      rintro ⟨v, hv, htrue⟩
      exact ⟨v, hv, (hsame v hv).trans (Criterion.sameTruth_eq_true_iff.1 htrue).2.2⟩
    · rw [Criterion.truth_among hkind hvs, List.any_eq_true]
      rintro havoids ⟨v, hv, hyes⟩
      rw [hsame v hv] at hyes
      have hfilled : row.get c.name ≠ .null ∧ v ≠ .null := by
        rcases hvs v hv with rfl | ⟨s, rfl⟩
        · rw [Value.same_null_right] at hyes
          exact absurd hyes (havoids c hmem vs (hname ▸ .among) hv)
        · rw [(Value.same_text_right_iff s _).1 hyes]
          exact ⟨nofun, nofun⟩
      exact ⟨v, hv, Criterion.sameTruth_eq_true_iff.2 ⟨hfilled.1, hfilled.2, hyes⟩⟩

/-- Junctions agree if their parts do. -/
theorem agrees_conj (hsome : ps ≠ []) {crit : Predicate → Criterion} {answer : Predicate → Bool}
    (h : ∀ p ∈ ps, Agrees columns row p (crit p) (answer p)) :
    Agrees columns row (conj ps) (.allOf (ps.map crit)) (ps.all answer) := by
  have hsome' : ps.map crit ≠ [] := by simpa using hsome
  have hsound : ∀ c ∈ ps.map crit, c.IsSound := by
    rw [List.forall_mem_map]
    exact fun p hp => (h p hp).isSound
  refine ⟨?_, Criterion.isSound_allOf hsome' hsound, ?_, ?_, ?_⟩
  · rw [Predicate.criterion, criteria_eq fun p hp => (h p hp).criterion]
    rfl
  · rw [eval, evalAll_eq fun p hp => (h p hp).eval]
  · rw [Criterion.truth_allOf hsome' hsound, List.forall_mem_map, List.all_eq_true]
    exact fun htrue p hp => (h p hp).of_truth (htrue p hp)
  · rw [Criterion.truth_allOf hsome' hsound, List.forall_mem_map, List.all_eq_true]
    exact fun havoids hyes p hp =>
      (h p hp).truth (fun c hc vs hlists => havoids c hc vs (.conj hp hlists)) (hyes p hp)

theorem agrees_disj (hsome : ps ≠ []) {crit : Predicate → Criterion} {answer : Predicate → Bool}
    (h : ∀ p ∈ ps, Agrees columns row p (crit p) (answer p)) :
    Agrees columns row (disj ps) (.anyOf (ps.map crit)) (ps.any answer) := by
  have hsome' : ps.map crit ≠ [] := by simpa using hsome
  have hsound : ∀ c ∈ ps.map crit, c.IsSound := by
    rw [List.forall_mem_map]
    exact fun p hp => (h p hp).isSound
  refine ⟨?_, Criterion.isSound_anyOf hsome' hsound, ?_, ?_, ?_⟩
  · rw [Predicate.criterion, criteria_eq fun p hp => (h p hp).criterion]
    rfl
  · rw [eval, evalAny_eq fun p hp => (h p hp).eval]
  · rw [Criterion.truth_anyOf hsome' hsound, List.any_eq_true]
    rintro ⟨c, hc, htrue⟩
    obtain ⟨p, hp, rfl⟩ := List.mem_map.1 hc
    exact ⟨p, hp, (h p hp).of_truth htrue⟩
  · rw [Criterion.truth_anyOf hsome' hsound, List.any_eq_true]
    rintro havoids ⟨p, hp, hyes⟩
    exact ⟨crit p, List.mem_map_of_mem hp,
      (h p hp).truth (fun c hc vs hlists => havoids c hc vs (.disj hp hlists)) hyes⟩

/-- On tables of texts, every predicate on texts has a criterion that agrees with its answer. -/
theorem IsTextual.exists_agrees {p : Predicate} (hp : p.IsTextual)
    (hcolumns : ∀ c ∈ columns, c.kind = .text) (row : Row) :
    ∃ c b, Agrees columns row p c b := by
  have : Nonempty Criterion := ⟨.always⟩
  induction hp with
  | matchAll => exact ⟨.always, true, rfl, ⟨rfl, rfl⟩, rfl, fun _ => rfl, fun _ _ => rfl⟩
  | matchNone => exact ⟨.never, false, rfl, ⟨rfl, rfl⟩, rfl, nofun, nofun⟩
  | equals field hv => exact exists_agrees_equals hcolumns field hv
  | among field hvs => exact exists_agrees_among hcolumns field hvs
  | conj hsome _ ih =>
    choose! crit answer hagrees using ih
    exact ⟨_, _, agrees_conj hsome hagrees⟩
  | disj hsome _ ih =>
    choose! crit answer hagrees using ih
    exact ⟨_, _, agrees_disj hsome hagrees⟩

/-- On tables of texts a predicate always has a criterion and an answer. Its criterion never
    selects a row that the predicate refuses, and it selects every row that the predicate takes,
    unless null is listed as a value for a column that is empty in the row. -/
theorem criterion_selects_iff (columns : List Column) (hcolumns : ∀ c ∈ columns, c.kind = .text)
    (row : Row) (p : Predicate) (hp : p.IsTextual) :
    ∃ c b, p.criterion columns = .ok c ∧ c.check = .ok () ∧
      p.eval (.record (row.record columns)) = .ok b ∧ (c.selects row = true → b = true) ∧
      (p.AvoidsEmpty columns row → (c.selects row = true ↔ b = true)) := by
  obtain ⟨c, b, h⟩ := hp.exists_agrees hcolumns row
  have hselects : c.selects row = true ↔ c.truth row = some true := by
    rw [Criterion.selects, h.isSound.isBlank, Bool.false_or, decide_eq_true_eq]
  refine ⟨c, b, h.criterion, h.isSound.check, h.eval, ?_⟩
  rw [hselects]
  exact ⟨h.of_truth, fun havoids => ⟨h.of_truth, h.truth havoids⟩⟩

/-! ### Documents -/

/-- The columns of documents that row filters test. -/
def ownerColumns : List Column :=
  [TableName.optionalText "created_by_id", TableName.optionalText "establishment_id"]

/-- A document by its author that belongs to no establishment. -/
def loneDocument : Row := [("id", .int 1), ("created_by_id", .text "ana")]

/-- The author's documents, if they belong to one of two schools or to no establishment. -/
def ofAuthor : Predicate :=
  .conj [.equals "created_by_id" (.text "ana"),
    .disj [.among "establishment_id" [.text "north", .text "south"],
      .equals "establishment_id" .null]]

theorem isTextual_ofAuthor : ofAuthor.IsTextual := by
  refine .conj (by simp) (List.forall_mem_cons.2 ⟨.equals _ (.inr ⟨_, rfl⟩),
    List.forall_mem_singleton.2 (.disj (by simp) (List.forall_mem_cons.2 ⟨.among _ ?_,
      List.forall_mem_singleton.2 (.equals _ (.inl rfl))⟩))⟩)
  simp [Value.IsTextual]

theorem avoidsEmpty_ofAuthor : ofAuthor.AvoidsEmpty ownerColumns loneDocument := by
  intro c _ vs hlists hnull
  generalize c.name = field at hlists
  -- The only list of the predicate names two schools.
  obtain rfl : vs = [.text "north", .text "south"] := by
    cases hlists with
    | conj hp hlists =>
      rcases List.mem_pair.1 hp with rfl | rfl
      · cases hlists
      · cases hlists with
        | disj hp hlists =>
          rcases List.mem_pair.1 hp with rfl | rfl <;> cases hlists
          rfl
  simp at hnull

/-- The document without an establishment is taken by the predicate, and selected. -/
theorem ofAuthor_selects : (∀ c ∈ ownerColumns, c.kind = .text) ∧ ofAuthor.IsTextual ∧
    ofAuthor.AvoidsEmpty ownerColumns loneDocument ∧
    ofAuthor.eval (.record (loneDocument.record ownerColumns)) = .ok true ∧
    ∃ c, ofAuthor.criterion ownerColumns = .ok c ∧ c.selects loneDocument = true := by
  have hcolumns : ∀ c ∈ ownerColumns, c.kind = .text := by decide
  have heval : ofAuthor.eval (.record (loneDocument.record ownerColumns)) = .ok true := rfl
  obtain ⟨c, b, hcriterion, -, hb, -, hselects⟩ :=
    criterion_selects_iff ownerColumns hcolumns loneDocument ofAuthor isTextual_ofAuthor
  obtain rfl : b = true := Except.ok.inj (hb.symm.trans heval)
  exact ⟨hcolumns, isTextual_ofAuthor, avoidsEmpty_ofAuthor, heval, c, hcriterion,
    (hselects avoidsEmpty_ofAuthor).2 rfl⟩

/-- With null among the listed values the predicate takes that document as well, but it is left
    out of what is selected. -/
theorem nullAmong_leavesOut :
    (among "establishment_id" [.null, .text "north"]).eval
        (.record (loneDocument.record ownerColumns)) = .ok true ∧
      ∃ c, (among "establishment_id" [.null, .text "north"]).criterion ownerColumns = .ok c ∧
        c.check = .ok () ∧ c.selects loneDocument = false :=
  ⟨rfl, _, rfl, rfl, by decide⟩

end Predicate

end StaffAccess
