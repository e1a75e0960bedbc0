import StaffAccess.Engine
import StaffAccess.Http.Enforcement
import StaffAccess.Http.Route

/-!
# The application

The routes that tell callers about their own permissions, and routes to documents under guards.
Every request asks the engine first whether it goes through; the routes about permissions then
need a caller as well.

* `App`: an engine, which may not have been started, and routes.
* `App.handle`: the response to a request.
-/

namespace StaffAccess.Http

/-- An application. -/
structure App where
  /-- The engine, if it has been started. -/
  engine : Option Engine
  /-- The header that names the caller. -/
  userHeader : String
  /-- The routes besides those about permissions. -/
  routes : List Route

namespace App

/-- The routes about permissions. -/
def permissionRoutes : List Route :=
  [{ method := "GET", path := segmentsOf "/security/objects", endpoint := .objects },
   { method := "GET", path := [.word "", .word "security", .word "objects", .parameter],
     endpoint := .objectPermissions },
   { method := "POST", path := segmentsOf "/security/permissions/check", endpoint := .checks },
   { method := "GET", path := segmentsOf "/security/ui/elements", endpoint := .elements },
   { method := "GET", path := [.word "", .word "security", .word "ui", .word "pages", .parameter],
     endpoint := .page }]

/-- The name of the header that names the caller; an empty one counts as the default. -/
def headerName (app : App) : String :=
  if app.userHeader = "" then ({} : Settings).userHeader else app.userHeader

/-! ## Bodies -/

/-- A text, null if there is none. -/
def optionalText (s : Option String) : Value := (s.map Value.text).getD .null

/-- A decision in a response. -/
def decisionBody (d : Permission.Decision) : Value :=
  .record [("allowed", .bool d.isAllowed), ("reason", optionalText d.reason)]

/-- The three answers about an element in a response. -/
def flagFields (f : Flags) : Fields :=
  [("visible", .bool f.visible), ("enabled", .bool f.enabled), ("readonly", .bool f.readonly)]

/-- An element in a response. -/
def elementBody (v : ElementVisibility) : Value :=
  .record ([("element", v.element)] ++ flagFields v.flags ++ [("reason", optionalText v.reason)])

/-- An entry of a page in a response. -/
def pageEntryBody (e : UiElement) : Value :=
  .record ([("name", .text e.name), ("type", .text e.elementType)] ++ flagFields e.flags)

/-- A check in the body of a request. -/
def checkShape : Value → Checked Permission.Check :=
  Checked.recordOf fun f =>
    (fun object action request => ⟨.text object, .text (Action.word action), request⟩)
      <$> Checked.required f "business_object" .string
      <*> Checked.required f "action" (Checked.word Action.ofWord?)
      <*> Checked.entry f "context"
        (fun v => (fun g => (g.map Value.record).getD .null) <$> Checked.optional .fields v) .null

/-! ## Routes -/

variable {σ : Type} [CacheStore σ]

/-- What a route about permissions answers to a known caller. -/
def answer (engine : Engine) (request : Request) (user : Value) (endpoint : Endpoint)
    (parameters : List String) : StateM (World σ) Response := do
  let auth : Authorization (StateM (World σ)) := engine.authorization
  let parameter := Value.text (parameters.headD "")
  match endpoint with
  | .objects => return .ok (.ofTexts (← auth.accessibleObjects user))
  | .objectPermissions => return .ok (← auth.userPermissions user parameter).toValue
  | .checks =>
    match Checked.listOf checkShape (request.body.getD .null) with
    | .wrong _ => return .malformed
    | .valid checks =>
      let answers ← auth.checkPermissions user checks
      return .ok (.record (answers.entries.map fun e => (e.1, decisionBody e.2)))
  | .elements =>
    let names := request.parameter "names"
    if names.isEmpty then return .malformed
    match ← auth.evaluateElements user (names.map .text) .null with
    | .ok answers =>
      return .ok (.record (answers.entries.map fun e => (e.1.display, elementBody e.2)))
    | .error _ => return .failure
  | .page =>
    let config ← auth.pageConfig user parameter .null
    return .ok (.record (config.entries.map fun e => (e.1, pageEntryBody e.2)))
  | .documents => return .failure

/-- What a route answers to a request that goes through. -/
def respond (app : App) (engine : Engine) (request : Request) (route : Route)
    (parameters : List String) (pass : Pass) : StateM (World σ) Response := do
  match route.endpoint with
  | .documents =>
    match (← get).database.documentTitles pass.rowFilters with
    | .ok titles => return .ok (.ofTexts titles)
    | .error _ => return .failure
  | endpoint =>
    match callerOf (request.header? app.headerName) with
    | none => return .refusal 401 "Authentication required"
    | some user => answer engine request (.text user) endpoint parameters

/-- The response to a request. -/
def handle (app : App) (request : Request) : StateM (World σ) Response := do
  match Route.find (permissionRoutes ++ app.routes) request with
  | .error response => return response
  | .ok (route, parameters) =>
    match app.engine with
    | none => return .failure
    | some engine =>
      match ← route.guard.enforce engine.authorization (request.header? app.headerName) with
      | .error refusal => return refusal.response
      | .ok pass => app.respond engine request route parameters pass

end App

end StaffAccess.Http
