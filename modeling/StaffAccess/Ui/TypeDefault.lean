import StaffAccess.Context
import StaffAccess.Policy
import StaffAccess.Text.Part

/-!
# Defaults by type

What the name of an element asks of a user whatever the rules say: a button to delete needs the
grant to delete something, a field with a salary is for the roles that see financial data, and
so on.

* `ElementType.admits`: whether a user may see an element of a type under a name.
-/

namespace StaffAccess

/-- Whether some matrix of the user grants one of some actions. -/
def SecurityContext.grantsAny (ctx : SecurityContext) (actions : List Action) : Bool :=
  ctx.permissions.entries.any fun e => actions.any e.2.allows

/-- What a word in a name asks for. -/
structure NameDemand where
  /-- The words, of which the name holds one. -/
  words : List String
  /-- Whether the user satisfies the demand. -/
  satisfied : Bool

/-- Whether a demand is satisfied or does not concern a name. -/
def NameDemand.admits (demand : NameDemand) (name : String) : Bool :=
  !demand.words.any (Text.contains · name) || demand.satisfied

namespace ElementType

/-- The demands on users for elements of a type. -/
def demands (ctx : SecurityContext) (policy : Policy) : ElementType → List NameDemand
  | button =>
    [⟨["save", "create"], ctx.grantsAny [.create, .write]⟩,
     ⟨["delete"], ctx.grantsAny [.delete]⟩,
     ⟨["approve"], ctx.grantsAny [.approve]⟩]
  | field =>
    [⟨["password", "secret"], false⟩,
     ⟨["salary", "budget"], policy.roles.financialViewers.contains ctx.userType⟩]
  | menu | panel =>
    [⟨["admin", "settings"], policy.roles.administrators.contains ctx.userType⟩,
     ⟨["ministry"], ctx.scope = .ministry⟩,
     ⟨["school"], ctx.scope = .school⟩]
  | page =>
    [⟨["user-management", "system-config"],
       (ctx.permissionsOn policy.objects.userManagement).read⟩,
     ⟨["inspection"], ctx.scope = .ministry⟩]

/-- Whether a user may see an element of a type under a name. -/
def admits (t : ElementType) (name : String) (ctx : SecurityContext) (policy : Policy) : Bool :=
  (demands ctx policy t).all fun demand => demand.admits name

end ElementType

end StaffAccess
