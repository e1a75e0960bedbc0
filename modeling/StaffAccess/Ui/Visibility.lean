import StaffAccess.Ui.Condition
import StaffAccess.Ui.TypeDefault
import StaffAccess.Ui.Wildcard

/-!
# Visibility of elements

How an element of the user interface shows itself to a user. Every rule whose pattern matches
the element's name gives its flags, restricted by its conditions and by the defaults of its
type; the rules are then put together by `Flags.either`. An element without a rule is open, and
one whose rules cannot be evaluated is locked.

* `UiRule.flags`: what one rule gives.
* `ElementVisibility.ofContext`: how an element shows itself.
* `ElementVisibility.evaluate`, `ElementVisibility.evaluateMany`: the same for a context that may
  have failed to load.
-/

namespace StaffAccess

namespace UiRule

/-- Whether a rule is for an element. Only a text can match a pattern with a star. -/
def concerns (r : UiRule) : Value → Except Fault Bool
  | .text name => .ok (Wildcard.accepts r.pattern name)
  | _ => if Wildcard.hasStar r.pattern then .error .wrongType else .ok false

/-- What the defaults of the rule's type leave; a type that is not known has none. -/
def defaults (r : UiRule) (ctx : SecurityContext) (policy : Policy) : Flags :=
  match ElementType.ofWord? r.elementType with
  | some t => .shown (t.admits r.pattern ctx policy)
  | none => .unrestricted

/-- What a rule gives under some conditions. -/
def flagsUnder (r : UiRule) (conditions : Option UiConditions) (ctx : SecurityContext)
    (policy : Policy) (record : Value) : Except Fault Flags := do
  let ofConditions ← match conditions with
    | some conditions => conditions.flags ctx record
    | none => pure .unrestricted
  let own : Flags := ⟨r.visible.truthy, r.enabled.truthy, false⟩
  return (own.both ofConditions).both (r.defaults ctx policy)

/-- What a rule gives for a user and a record. -/
def flags (r : UiRule) (ctx : SecurityContext) (policy : Policy) (record : Value) :
    Except Fault Flags := do
  r.flagsUnder (← r.parsedConditions) ctx policy record

end UiRule

/-- How an element shows itself. -/
structure ElementVisibility where
  /-- The element. -/
  element : Value
  /-- How it shows itself. -/
  flags : Flags
  /-- Why it is locked, if it is. -/
  reason : Option String
  deriving Repr

namespace ElementVisibility

/-- The words for rules that could not be evaluated. -/
def faultMessage : String := "UI rules could not be evaluated"

/-- An element whose rules could not be evaluated. -/
def locked (element : Value) : ElementVisibility := ⟨element, .locked, some faultMessage⟩

/-- How an element shows itself to a user whose context is known. -/
def ofContext (ctx : SecurityContext) (policy : Policy) (element record : Value) :
    Except Fault ElementVisibility := do
  match ← ctx.uiRules.filterM fun r => r.concerns element with
  | [] => return ⟨element, .unrestricted, none⟩
  | rules =>
    let flags ← rules.mapM fun r => r.flags ctx policy record
    return ⟨element, flags.foldl .either .closed, none⟩

/-- What an evaluation gives, or that the element is locked. -/
def orLocked (element : Value) : Except Fault ElementVisibility → ElementVisibility
  | .ok visibility => visibility
  | .error _ => locked element

/-- How an element shows itself to a user whose context may have failed to load. -/
def evaluate (policy : Policy) (loaded : Except Fault SecurityContext) (element record : Value) :
    ElementVisibility :=
  orLocked element do ofContext (← loaded) policy element record

/-- How several elements show themselves. An element that faults is locked, and those after it go
    on; if the context has not loaded, all are locked. Lists and records cannot be told apart as
    elements. -/
def evaluateMany (policy : Policy) (loaded : Except Fault SecurityContext)
    (elements : List Value) (record : Value) :
    Except Fault (OrderedMap Value ElementVisibility) :=
  if elements.all Value.isKey then
    match loaded with
    | .ok ctx =>
      .ok (elements.foldl
        (fun results e => results.put e (orLocked e (ofContext ctx policy e record))) .empty)
    | .error _ => .ok (elements.foldl (fun results e => results.put e (locked e)) .empty)
  else .error .wrongType

end ElementVisibility

end StaffAccess
