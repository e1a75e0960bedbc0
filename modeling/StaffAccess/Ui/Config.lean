import StaffAccess.Ui.Visibility

/-!
# Configurations of pages

What a page needs to know about its elements, by the patterns of the rules: one entry for every
pattern with a rule that is not kept off the page. Rules of one pattern are put together by
`Flags.either`, and the last one of them names the type and the conditions.

* `UiConfig.ofContext`: the entries for a user.
* `UiConfig.generate`: the same for a context that may have failed to load.
* `UiConfig.elementRules`: the same without the details.
-/

namespace StaffAccess

/-- An entry of a configuration. -/
structure UiElement where
  /-- The pattern. -/
  name : String
  /-- The type of the elements. -/
  elementType : String
  /-- How they show themselves. -/
  flags : Flags
  /-- The conditions of the last rule. -/
  conditions : Value
  deriving Repr

/-- An entry of a configuration without the details. -/
structure ElementRule where
  /-- The elements can be seen. -/
  visible : Bool
  /-- They can be used. -/
  enabled : Bool
  deriving DecidableEq, Repr

/-- What is left of an entry without the details. -/
def UiElement.toRule (e : UiElement) : ElementRule := ⟨e.flags.visible, e.flags.enabled⟩

namespace UiConfig

/-- What a rule gives on a page; nothing if its conditions keep it off. A rule that cannot be
    evaluated is locked. -/
def ruleFlags (r : UiRule) (ctx : SecurityContext) (policy : Policy) (page record : Value) :
    Option Flags :=
  let result : Except Fault (Option Flags) := do
    let conditions ← r.parsedConditions
    if conditions.any (·.excludes page) then return none
    else return some (← r.flagsUnder conditions ctx policy record)
  match result with
  | .ok flags => flags
  | .error _ => some .locked

/-- Adds what a rule gives to the entry of its pattern. -/
def add (config : OrderedMap String UiElement) (r : UiRule) (flags : Flags) :
    OrderedMap String UiElement :=
  let together := match config.get? r.pattern with
    | some old => flags.either old.flags
    | none => flags
  config.put r.pattern ⟨r.pattern, r.elementType, together, r.conditions⟩

/-- The entries for a user whose context is known. -/
def ofContext (ctx : SecurityContext) (policy : Policy) (page record : Value) :
    OrderedMap String UiElement :=
  ctx.uiRules.foldl (fun config r =>
    match ruleFlags r ctx policy page record with
    | some flags => add config r flags
    | none => config) .empty

/-- The entries for a user whose context may have failed to load; none if it has. -/
def generate (policy : Policy) (loaded : Except Fault SecurityContext) (page record : Value) :
    OrderedMap String UiElement :=
  match loaded with
  | .ok ctx => ofContext ctx policy page record
  | .error _ => .empty

/-- The entries for a user, without the details. -/
def elementRules (policy : Policy) (loaded : Except Fault SecurityContext) (page record : Value) :
    OrderedMap String ElementRule :=
  (generate policy loaded page record).mapEntries fun _ e => e.toRule

end UiConfig

end StaffAccess
