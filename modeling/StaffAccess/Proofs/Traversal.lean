import Mathlib.Data.List.Forall2
import Mathlib.Data.List.Perm.Basic
import Mathlib.Tactic.Common

/-!
# Computations that may fail

What the answer of a chain of computations in `Except`, or of a traversal of a list, says about
the single steps.

* `bind_eq_ok_iff`: two steps answer if both do.
* `mapM_eq_ok_iff`: a traversal answers item by item.
* `exists_mapM_eq_ok_iff`: a traversal answers exactly if every item does.
* `exists_of_mapM_eq_error`: a traversal fails at the first item that has no answer.
* `exists_mapM_eq_error_iff`: a traversal fails exactly if some item does.
* `Outcome`: what a computation gives, be it an answer or an error.
* `AnswersWith`: a computation answers whenever another one does, and how.
-/

namespace StaffAccess

variable {ε α β : Type}

@[simp] theorem ok_bind (a : α) (f : α → Except ε β) : (Except.ok a >>= f) = f a := rfl

@[simp] theorem error_bind (e : ε) (f : α → Except ε β) :
    (Except.error e >>= f) = .error e := rfl

@[simp] theorem pure_eq_ok (a : α) : (pure a : Except ε α) = .ok a := rfl

@[simp] theorem throw_eq_error (e : ε) : (throw e : Except ε α) = .error e := rfl

theorem bind_eq_ok_iff {x : Except ε α} {f : α → Except ε β} {b : β} :
    (x >>= f) = .ok b ↔ ∃ a, x = .ok a ∧ f a = .ok b := by
  cases x with
  | error e => simp
  | ok a => simp

theorem bind_eq_error_iff {x : Except ε α} {f : α → Except ε β} {e : ε} :
    (x >>= f) = .error e ↔ x = .error e ∨ ∃ a, x = .ok a ∧ f a = .error e := by
  cases x with
  | error e => simp
  | ok a => simp

theorem map_eq_ok_iff {x : Except ε α} {f : α → β} {b : β} :
    f <$> x = .ok b ↔ ∃ a, x = .ok a ∧ f a = b := by
  cases x with
  | error e => simp [Functor.map, Except.map]
  | ok a => simp [Functor.map, Except.map]

theorem map_eq_error_iff {x : Except ε α} {f : α → β} {e : ε} :
    f <$> x = .error e ↔ x = .error e := by
  cases x with
  | error e => simp [Functor.map, Except.map]
  | ok a => simp [Functor.map, Except.map]

/-! ## Lists -/

theorem mapM_eq_ok_iff {f : α → Except ε β} {xs : List α} {ys : List β} :
    xs.mapM f = .ok ys ↔ List.Forall₂ (fun x y => f x = .ok y) xs ys := by
  induction xs generalizing ys with
  | nil => simp [eq_comm]
  | cons x xs ih =>
    simp only [List.mapM_cons, bind_eq_ok_iff, ih, pure_eq_ok, Except.ok.injEq,
      List.forall₂_cons_left_iff]
    exact ⟨fun ⟨y, hy, ys', hys, h⟩ => ⟨y, ys', hy, hys, h.symm⟩,
      fun ⟨y, ys', hy, hys, h⟩ => ⟨y, hy, ys', hys, h.symm⟩⟩

theorem exists_mapM_eq_ok_iff {f : α → Except ε β} {xs : List α} :
    (∃ ys, xs.mapM f = .ok ys) ↔ ∀ x ∈ xs, ∃ y, f x = .ok y := by
  induction xs with
  | nil => simp
  | cons x xs ih =>
    simp only [List.mapM_cons, bind_eq_ok_iff, pure_eq_ok, Except.ok.injEq, List.forall_mem_cons,
      ← ih]
    exact ⟨fun ⟨_, y, hy, ys, hys, _⟩ => ⟨⟨y, hy⟩, ys, hys⟩,
      fun ⟨⟨y, hy⟩, ys, hys⟩ => ⟨_, y, hy, ys, hys, rfl⟩⟩

/-- A traversal fails at the first item that has no answer. -/
theorem exists_of_mapM_eq_error {f : α → Except ε β} {xs : List α} {e : ε}
    (h : xs.mapM f = .error e) : ∃ before x after, xs = before ++ x :: after ∧
      (∀ x' ∈ before, ∃ y, f x' = .ok y) ∧ f x = .error e := by
  induction xs with
  | nil => cases h
  | cons x xs ih =>
    rw [List.mapM_cons, bind_eq_error_iff] at h
    rcases h with h | ⟨y, hy, h⟩
    · exact ⟨[], x, xs, rfl, nofun, h⟩
    · rw [bind_eq_error_iff] at h
      obtain ⟨before, x', after, rfl, hbefore, hx'⟩ := ih (h.resolve_right nofun)
      exact ⟨x :: before, x', after, rfl, List.forall_mem_cons.2 ⟨⟨y, hy⟩, hbefore⟩, hx'⟩

/-- A traversal fails as its first item without an answer does. -/
theorem mapM_eq_error_of_first {f : α → Except ε β} {before after : List α} {x : α} {e : ε}
    (hbefore : ∀ x' ∈ before, ∃ y, f x' = .ok y) (hx : f x = .error e) :
    (before ++ x :: after).mapM f = .error e := by
  induction before with
  | nil => rw [List.nil_append, List.mapM_cons, hx, error_bind]
  | cons x' before ih =>
    rw [List.forall_mem_cons] at hbefore
    obtain ⟨y, hy⟩ := hbefore.1
    rw [List.cons_append, List.mapM_cons, hy, ok_bind, ih hbefore.2, error_bind]

/-- A traversal fails exactly if some item does. -/
theorem exists_mapM_eq_error_iff {f : α → Except ε β} {xs : List α} :
    (∃ e, xs.mapM f = .error e) ↔ ∃ x ∈ xs, ∃ e, f x = .error e := by
  constructor
  · rintro ⟨e, h⟩
    obtain ⟨before, x, after, rfl, -, hx⟩ := exists_of_mapM_eq_error h
    exact ⟨x, by simp, e, hx⟩
  · rintro ⟨x, hx, e, he⟩
    cases h : xs.mapM f with
    | error e' => exact ⟨e', rfl⟩
    | ok ys =>
      obtain ⟨y, hy⟩ := exists_mapM_eq_ok_iff.1 ⟨ys, h⟩ x hx
      cases he.symm.trans hy

/-- The answers of a traversal are those of its items. -/
theorem mem_of_mapM_eq_ok {f : α → Except ε β} {xs : List α} {ys : List β}
    (h : xs.mapM f = .ok ys) {y : β} : y ∈ ys ↔ ∃ x ∈ xs, f x = .ok y := by
  rw [mapM_eq_ok_iff] at h
  induction h with
  | nil => simp
  | cons hxy _ ih => simp [ih, hxy, eq_comm]

/-- Some answer of a traversal passes a test if some item does. -/
theorem any_of_mapM_eq_ok {f : α → Except ε β} {xs : List α} {ys : List β}
    (h : xs.mapM f = .ok ys) {test : β → Bool} {p : α → Prop}
    (htest : ∀ x ∈ xs, ∀ y, f x = .ok y → (test y = true ↔ p x)) :
    ys.any test = true ↔ ∃ x ∈ xs, p x := by
  rw [List.any_eq_true]
  constructor
  · rintro ⟨y, hy, hpasses⟩
    obtain ⟨x, hx, hxy⟩ := (mem_of_mapM_eq_ok h).1 hy
    exact ⟨x, hx, (htest x hx y hxy).1 hpasses⟩
  · rintro ⟨x, hx, hpasses⟩
    obtain ⟨y, hxy⟩ := exists_mapM_eq_ok_iff.1 ⟨ys, h⟩ x hx
    exact ⟨y, (mem_of_mapM_eq_ok h).2 ⟨x, hx, hxy⟩, (htest x hx y hxy).2 hpasses⟩

/-- A traversal of a part of the items gives what the items of this part do. -/
theorem mapM_filter_eq_ok {f : α → Except ε β} {p : α → Bool} {given : α → Option β}
    {xs : List α} (hout : ∀ x ∈ xs, p x = false → given x = none)
    (hin : ∀ x ∈ xs, p x = true → ∃ y, f x = .ok y ∧ given x = some y) :
    (xs.filter p).mapM f = .ok (xs.filterMap given) := by
  rw [mapM_eq_ok_iff]
  induction xs with
  | nil => exact .nil
  | cons x xs ih =>
    rw [List.forall_mem_cons] at hout hin
    have hrest := ih hout.2 hin.2
    cases hx : p x with
    | false => simpa [hx, hout.1 hx] using hrest
    | true =>
      obtain ⟨y, hy, hgiven⟩ := hin.1 hx
      simpa [hx, hgiven] using And.intro hy hrest

/-- A traversal that keeps some part of every item keeps the parts in their order. -/
theorem map_eq_of_mapM_eq_ok {γ : Type} {f : α → Except ε β} {p : α → γ} {q : β → γ}
    {xs : List α} {ys : List β} (h : xs.mapM f = .ok ys)
    (hpart : ∀ x y, f x = .ok y → q y = p x) : ys.map q = xs.map p := by
  rw [mapM_eq_ok_iff] at h
  induction h with
  | nil => rfl
  | cons hxy _ ih => rw [List.map_cons, List.map_cons, hpart _ _ hxy, ih]

/-- A traversal answers in any order of the items, with the same answers. -/
theorem exists_perm_of_mapM_eq_ok {f : α → Except ε β} {xs xs' : List α} {ys : List β}
    (hperm : xs.Perm xs') (h : xs.mapM f = .ok ys) :
    ∃ ys', xs'.mapM f = .ok ys' ∧ ys.Perm ys' := by
  obtain ⟨ys', hys', hanswers⟩ := List.perm_comp_forall₂ hperm.symm (mapM_eq_ok_iff.1 h)
  exact ⟨ys', mapM_eq_ok_iff.2 hys', hanswers.symm⟩

/-- What one traversal does item by item, another one undoes. -/
theorem exists_mapM_mapM_eq_ok {f : α → Except ε β} {g : β → Except ε α} {xs : List α}
    (h : ∀ x ∈ xs, ∃ y, f x = .ok y ∧ g y = .ok x) :
    ∃ ys, xs.mapM f = .ok ys ∧ ys.mapM g = .ok xs := by
  obtain ⟨ys, hys⟩ := exists_mapM_eq_ok_iff.2 fun x hx => (h x hx).imp fun _ => And.left
  refine ⟨ys, hys, ?_⟩
  rw [mapM_eq_ok_iff] at hys ⊢
  induction hys with
  | nil => exact .nil
  | cons hxy _ ih =>
    rw [List.forall_mem_cons] at h
    obtain ⟨y, hy, hback⟩ := h.1
    cases hy.symm.trans hxy
    exact .cons hback (ih h.2)

/-- A search answers if every test does. -/
theorem anyM_eq_ok_any {p : α → Except ε Bool} {q : α → Bool} {xs : List α}
    (h : ∀ x ∈ xs, p x = .ok (q x)) : xs.anyM p = .ok (xs.any q) := by
  induction xs with
  | nil => rfl
  | cons x xs ih =>
    rw [List.anyM, h x List.mem_cons_self, ok_bind, List.any_cons]
    cases q x with
    | true => rfl
    | false => exact ih fun y hy => h y (List.mem_cons_of_mem _ hy)

/-- A selection answers if every test does. -/
theorem filterM_eq_ok_filter {p : α → Except ε Bool} {q : α → Bool} {xs : List α}
    (h : ∀ x ∈ xs, p x = .ok (q x)) : xs.filterM p = .ok (xs.filter q) := by
  suffices hloop : ∀ kept, xs.filterAuxM p kept = .ok ((xs.filter q).reverse ++ kept) by
    rw [List.filterM, hloop, ok_bind, List.append_nil, List.reverse_reverse, pure_eq_ok]
  induction xs with
  | nil => exact fun kept => rfl
  | cons x xs ih =>
    rw [List.forall_mem_cons] at h
    intro kept
    rw [List.filterAuxM, h.1, ok_bind, ih h.2]
    cases hx : q x with
    | true => simp [hx]
    | false => simp [hx]

/-! ## Outcomes -/

/-- Whether a computation gives an answer of one kind or an error of another. -/
def Outcome (p : α → Prop) (q : ε → Prop) : Except ε α → Prop
  | .ok a => p a
  | .error e => q e

section Outcome

variable {p : α → Prop} {p' : β → Prop} {q : ε → Prop}

theorem Outcome.imp {x : Except ε α} {r : α → Prop} {r' : ε → Prop} (h : Outcome p q x)
    (hok : ∀ a, p a → r a) (herror : ∀ e, q e → r' e) : Outcome r r' x := by
  cases x with
  | error e => exact herror e h
  | ok a => exact hok a h

theorem outcome_bind {x : Except ε α} {f : α → Except ε β} (hx : Outcome p q x)
    (hf : ∀ a, p a → Outcome p' q (f a)) : Outcome p' q (x >>= f) := by
  cases x with
  | error e => exact hx
  | ok a => exact hf a hx

theorem outcome_mapM {f : α → Except ε β} {xs : List α} (h : ∀ x ∈ xs, Outcome p' q (f x)) :
    Outcome (fun ys => ∀ y ∈ ys, p' y) q (xs.mapM f) := by
  induction xs with
  | nil => exact fun _ hy => absurd hy List.not_mem_nil
  | cons x xs ih =>
    rw [List.forall_mem_cons] at h
    rw [List.mapM_cons]
    refine outcome_bind h.1 fun y hy => outcome_bind (ih h.2) fun ys hys => ?_
    exact List.forall_mem_cons.2 ⟨hy, hys⟩

end Outcome

/-! ## Two computations -/

/-- Whether a computation answers whenever another one does, with a related answer. -/
def AnswersWith (R : α → β → Prop) (x : Except ε α) (y : Except ε β) : Prop :=
  ∀ a, x = .ok a → ∃ b, y = .ok b ∧ R a b

section AnswersWith

variable {γ δ : Type} {R : α → β → Prop} {S : γ → δ → Prop}

theorem answersWith_ok {a : α} {b : β} (h : R a b) :
    AnswersWith R (.ok a : Except ε α) (.ok b : Except ε β) := by
  rintro _ ⟨⟩
  exact ⟨b, rfl, h⟩

theorem answersWith_error {e : ε} (y : Except ε β) : AnswersWith R (.error e : Except ε α) y :=
  nofun

theorem AnswersWith.bind {x : Except ε α} {y : Except ε β} {f : α → Except ε γ}
    {g : β → Except ε δ} (h : AnswersWith R x y) (hf : ∀ a b, R a b → AnswersWith S (f a) (g b)) :
    AnswersWith S (x >>= f) (y >>= g) := by
  intro c hc
  obtain ⟨a, ha, hc⟩ := bind_eq_ok_iff.1 hc
  obtain ⟨b, rfl, hab⟩ := h a ha
  exact hf a b hab c hc

theorem AnswersWith.mapM {f : α → Except ε γ} {g : β → Except ε δ} {xs : List α} {ys : List β}
    (h : List.Forall₂ R xs ys) (hf : ∀ a b, R a b → AnswersWith S (f a) (g b)) :
    AnswersWith (List.Forall₂ S) (xs.mapM f) (ys.mapM g) := by
  induction h with
  | nil => exact answersWith_ok .nil
  | cons hxy _ ih =>
    rw [List.mapM_cons, List.mapM_cons]
    exact (hf _ _ hxy).bind fun c d hcd => ih.bind fun cs ds hcds => answersWith_ok (.cons hcd hcds)

end AnswersWith

end StaffAccess
