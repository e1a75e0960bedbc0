import StaffAccess.Database.Table

/-!
# The tables

Users, groups and memberships; business objects with the grants and rules of groups; and
documents, a business object whose rows are kept here as well.

* `TableName`: the tables.
* `TableName.schema`: their columns and constraints.
* `TableName.businessObject?`: the business object that the rows of a table are.
-/

namespace StaffAccess.Database

/-- A table. -/
inductive TableName
  /-- Staff. -/
  | users
  /-- Groups of users. -/
  | groups
  /-- Who is in which group. -/
  | memberships
  /-- Business objects. -/
  | objects
  /-- What groups may do to business objects. -/
  | grants
  /-- The rules of groups for rows. -/
  | rules
  /-- The rules of groups for elements. -/
  | uiRules
  /-- Documents. -/
  | documents
  deriving DecidableEq, Repr

namespace TableName

/-- The tables, in the order in which they are filled. -/
def all : List TableName :=
  [users, groups, memberships, objects, grants, rules, uiRules, documents]

/-- The name of a table. -/
def word : TableName → String
  | users => "users"
  | groups => "groups"
  | memberships => "memberships"
  | objects => "objects"
  | grants => "grants"
  | rules => "rules"
  | uiRules => "ui_rules"
  | documents => "documents"

/-- The table of a name. -/
def ofWord? (s : String) : Option TableName := all.find? fun t => t.word = s

@[simp] theorem ofWord?_word (t : TableName) : ofWord? t.word = some t := by cases t <;> rfl

/-- A column of texts that may be empty. -/
def optionalText (name : String) : Column := { name, kind := .text, isRequired := false }

/-- A column of texts that must be filled. -/
def requiredText (name : String) : Column := { name, kind := .text }

/-- A column of texts that are empty by default. -/
def emptyText (name : String) : Column := { name, kind := .text, fallback := .text "" }

/-- A column of ids of other rows. -/
def link (name : String) : Column := { name, kind := .whole }

/-- A column of truth values. -/
def flag (name : String) (fallback : Bool) : Column :=
  { name, kind := .flag, fallback := .bool fallback }

/-- The columns of a table. -/
def columns : TableName → List Column
  | users =>
    [requiredText "id", requiredText "email", emptyText "first_name", emptyText "last_name",
     requiredText "scope", requiredText "user_type", optionalText "structure_id",
     optionalText "establishment_id", optionalText "manager_id", flag "is_active" true]
  | groups => [link "id", requiredText "name", requiredText "scope", optionalText "description"]
  | memberships =>
    [link "id", requiredText "user_id", link "group_id", flag "is_active" true,
     { name := "expires_at", kind := .moment, isRequired := false }]
  | objects => [link "id", requiredText "name", optionalText "description"]
  | grants =>
    [link "id", link "group_id", link "business_object_id", flag "can_read" false,
     flag "can_write" false, flag "can_create" false, flag "can_delete" false,
     flag "can_approve" false]
  | rules =>
    [link "id", link "group_id", link "business_object_id", requiredText "rule_kind",
     { name := "condition", kind := .any, fallback := .record [] },
     { name := "priority", kind := .whole, fallback := .int 0 }, flag "is_active" true]
  | uiRules =>
    [link "id", link "group_id", requiredText "element_pattern", requiredText "element_type",
     flag "is_visible" true, flag "is_enabled" true, { name := "conditions", kind := .any }]
  | documents =>
    [link "id", requiredText "title", requiredText "created_by_id",
     optionalText "establishment_id"]

/-- The groups of columns that tell the rows of a table apart. -/
def keys : TableName → List (List String)
  | users => [["id"], ["email"]]
  | groups => [["id"], ["name"]]
  | memberships => [["id"], ["user_id", "group_id"]]
  | objects => [["id"], ["name"]]
  | grants => [["id"], ["group_id", "business_object_id"]]
  | _ => [["id"]]

/-- The columns and constraints of a table. The rows of all tables but the users are numbered. -/
def schema (t : TableName) : Schema := ⟨t.columns, t.keys, t ≠ users⟩

/-- The business object that the rows of a table are, if they are one. -/
def businessObject? : TableName → Option String
  | documents => some "doc"
  | _ => none

end TableName

end StaffAccess.Database
