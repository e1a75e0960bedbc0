/-!
# Vocabularies

The closed sets of words that rules, requests and contexts are written with.

* `Scope`: the two kinds of staff.
* `Action`: what can be done to a business object.
* `RuleKind`: the ways in which a rule can restrict rows.
* `ElementType`: the kinds of elements of a user interface.

Each has a `word` and reads it back with `ofWord?`.
-/

namespace StaffAccess

/-- The kind of staff that a user belongs to. -/
inductive Scope
  /-- Staff of the ministry, whose tenant is an administrative structure. -/
  | ministry
  /-- Staff of a school, whose tenant is the school. -/
  | school
  deriving DecidableEq, Repr, Inhabited

namespace Scope

/-- The written form of a scope. -/
def word : Scope → String
  | ministry => "MINISTRY"
  | school => "SCHOOL"

/-- The scope that a word stands for. -/
def ofWord? (s : String) : Option Scope :=
  if s = "MINISTRY" then some ministry
  else if s = "SCHOOL" then some school
  else none

@[simp] theorem ofWord?_word (s : Scope) : ofWord? s.word = some s := by cases s <;> rfl

end Scope

/-- What can be done to a business object. -/
inductive Action
  /-- Look at it. -/
  | read
  /-- Change it. -/
  | write
  /-- Make a new one. -/
  | create
  /-- Remove it. -/
  | delete
  /-- Give consent to it. -/
  | approve
  deriving DecidableEq, Repr, Inhabited

namespace Action

/-- All actions, in the order in which they are listed. -/
def all : List Action := [read, write, create, delete, approve]

@[simp] theorem mem_all (a : Action) : a ∈ all := by cases a <;> decide

/-- The written form of an action. -/
def word : Action → String
  | read => "read"
  | write => "write"
  | create => "create"
  | delete => "delete"
  | approve => "approve"

/-- The action that a word stands for. -/
def ofWord? (s : String) : Option Action := all.find? fun a => a.word = s

@[simp] theorem ofWord?_word (a : Action) : ofWord? a.word = some a := by cases a <;> rfl

end Action

/-- How a rule restricts the rows of a business object. -/
inductive RuleKind
  /-- To those of the user and the user's direct subordinates. -/
  | hierarchy
  /-- To those of the user's structure or establishment. -/
  | geography
  /-- To those that the user created, modified or is assigned to. -/
  | ownership
  /-- To those of the user's tenant. -/
  | tenant
  /-- As the business object or a predicate document says. -/
  | custom
  deriving DecidableEq, Repr, Inhabited

namespace RuleKind

/-- All kinds of rules. -/
def all : List RuleKind := [hierarchy, geography, ownership, tenant, custom]

/-- The written form of a kind. -/
def word : RuleKind → String
  | hierarchy => "HIERARCHY"
  | geography => "GEOGRAPHY"
  | ownership => "OWNERSHIP"
  | tenant => "TENANT"
  | custom => "CUSTOM"

/-- The kind that a word stands for. -/
def ofWord? (s : String) : Option RuleKind := all.find? fun k => k.word = s

@[simp] theorem ofWord?_word (k : RuleKind) : ofWord? k.word = some k := by cases k <;> rfl

end RuleKind

/-- The kind of an element of a user interface. -/
inductive ElementType
  /-- A field of a form. -/
  | field
  /-- Something to press. -/
  | button
  /-- An entry of a menu. -/
  | menu
  /-- A part of a page. -/
  | panel
  /-- A whole page. -/
  | page
  deriving DecidableEq, Repr, Inhabited

namespace ElementType

/-- All types of elements. -/
def all : List ElementType := [field, button, menu, panel, page]

/-- The written form of a type. -/
def word : ElementType → String
  | field => "FIELD"
  | button => "BUTTON"
  | menu => "MENU"
  | panel => "SECTION"
  | page => "PAGE"

/-- The type that a word stands for. -/
def ofWord? (s : String) : Option ElementType := all.find? fun t => t.word = s

@[simp] theorem ofWord?_word (t : ElementType) : ofWord? t.word = some t := by cases t <;> rfl

end ElementType

end StaffAccess
