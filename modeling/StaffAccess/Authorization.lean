import StaffAccess.Permission
import StaffAccess.RowFilter
import StaffAccess.Ui.Config

/-!
# Authorization

What applications ask. Every question about a user is answered from the user's security context,
which is read once per question, and from the policy. Where the contexts come from is left open:
a `ContextSource` answers in any monad, be it a table of contexts, a cache in front of a store, or
a source that fails.

* `Authorization`: a source of contexts and a policy.
* `Authorization.checkPermission`, `Authorization.compileFilter`, `Authorization.evaluateElement`
  and others: the questions.
-/

namespace StaffAccess

/-- Where the security contexts of users come from. -/
abbrev ContextSource (m : Type → Type) := Value → m (Except Fault SecurityContext)

/-- A source of contexts and a policy. -/
structure Authorization (m : Type → Type) where
  /-- The contexts. -/
  contexts : ContextSource m
  /-- The policy. -/
  policy : Policy

namespace Authorization

variable {m : Type → Type} [Monad m] (auth : Authorization m)

/-! ## Permissions -/

/-- Whether a user may do something to an object. -/
def checkPermission (user object action request : Value) : m Permission.Decision := do
  return Permission.check auth.policy (← auth.contexts user) object action request

/-- The decisions on several checks of one user. -/
def checkPermissions (user : Value) (checks : List Permission.Check) :
    m (OrderedMap String Permission.Decision) := do
  return Permission.checkMany auth.policy (← auth.contexts user) checks

/-- A denial, raised. -/
def requirePermission (user object action request : Value) : m (Except Fault Unit) := do
  return Permission.require auth.policy (← auth.contexts user) object action request

/-- The permissions of a user on an object. -/
def userPermissions (user object : Value) : m PermissionMatrix := do
  return Permission.matrixOn (← auth.contexts user) object

/-- The objects on which a user has any permission. -/
def accessibleObjects (user : Value) : m (List String) := do
  return Permission.accessible (← auth.contexts user)

/-! ## Rows -/

/-- The filter for the rows of an object. -/
def compileFilter (user object : Value) : m RowFilter := do
  return RowFilter.compile auth.policy (← auth.contexts user) object

/-- The filter for the rows of an object, failing instead of hiding everything. -/
def filterOrFault (user object : Value) : m (Except Fault RowFilter) := do
  let loaded ← auth.contexts user
  return do RowFilter.ofContext (← loaded) object auth.policy

/-- Whether a user sees a record. -/
def showsRecord (user object record : Value) : m (Except Fault Bool) := do
  return RowFilter.shows auth.policy (← auth.contexts user) object record

/-! ## Elements -/

/-- How an element shows itself. -/
def evaluateElement (user element record : Value) : m ElementVisibility := do
  return ElementVisibility.evaluate auth.policy (← auth.contexts user) element record

/-- How several elements show themselves. -/
def evaluateElements (user : Value) (elements : List Value) (record : Value) :
    m (Except Fault (OrderedMap Value ElementVisibility)) := do
  return ElementVisibility.evaluateMany auth.policy (← auth.contexts user) elements record

/-- The entries of a page. -/
def pageConfig (user page record : Value) : m (OrderedMap String UiElement) := do
  return UiConfig.generate auth.policy (← auth.contexts user) page record

/-- The entries of a page without the details. -/
def pageRules (user page record : Value) : m (OrderedMap String ElementRule) := do
  return UiConfig.elementRules auth.policy (← auth.contexts user) page record

end Authorization

end StaffAccess
