import StaffAccess.Database.Criterion
import StaffAccess.Database.RuleStore
import StaffAccess.RowFilter

/-!
# Queries

The rows of a table that a criterion selects, and those that are left to a caller whose row
filters are in force: a table whose rows are a business object shows only what the filter of that
object lets through, and other tables show all rows.

* `Database.select`: the rows that a criterion selects.
* `Database.selectFiltered`: the rows that row filters let through.
-/

namespace StaffAccess

/-- The row filters in force, by business object. -/
abbrev RowFilters := OrderedMap Value RowFilter

namespace Database

/-- The rows of a table that a criterion selects, by their ids. -/
def select (db : Database) (t : TableName) (c : Criterion) : Except Fault (List Row) := do
  let rows ← db.rowsOf t
  c.check
  return byId (rows.filter c.selects)

/-- The rows of a table that satisfy a predicate. -/
def selectWhere (db : Database) (t : TableName) (p : Predicate) : Except Fault (List Row) := do
  db.select t (← p.criterion t.columns)

/-- What row filters leave of a table. -/
def predicateFor (filters : RowFilters) (t : TableName) : Predicate :=
  match t.businessObject?.bind fun object => filters.get? (.text object) with
  | some filter => filter.predicate
  | none => .matchAll

/-- The rows of a table that row filters let through. -/
def selectFiltered (db : Database) (filters : RowFilters) (t : TableName) :
    Except Fault (List Row) :=
  db.selectWhere t (predicateFor filters t)

/-- The titles of the documents that row filters let through. -/
def documentTitles (db : Database) (filters : RowFilters) : Except Fault (List String) := do
  return (← db.selectFiltered filters .documents).map (·.text "title")

end Database

end StaffAccess
