import StaffAccess.Database.Schema
import StaffAccess.OrderedMap
import StaffAccess.Vocabulary

/-!
# The database

The rows of all tables. A table that has been dropped is gone, and whatever needs it fails.

Entries are rows as people write them: they name groups and business objects instead of giving
their numbers, and a name that is new makes a new group or object.

* `Database.rowsOf`: the rows of a table.
* `Database.add`, `Database.change`, `Database.remove`, `Database.drop`: the changes.
* `Database.enter`: a new entry.
-/

namespace StaffAccess

open Database (TableName Row)

/-- The rows of all tables. -/
structure Database where
  /-- The rows of the tables that have not been dropped. -/
  tables : OrderedMap TableName (List Row)

namespace Database

/-- The database without rows. -/
def empty : Database := ⟨.ofEntries (TableName.all.map fun t => (t, []))⟩

/-- The rows of a table. -/
def rowsOf (db : Database) (t : TableName) : Except Fault (List Row) :=
  match db.tables.get? t with
  | some rows => .ok rows
  | none => .error .missingTable

/-- The database with other rows in a table. -/
def withRows (db : Database) (t : TableName) (rows : List Row) : Database :=
  ⟨db.tables.put t rows⟩

/-- Adds a row. -/
def add (db : Database) (t : TableName) (given : Fields) : Except Fault Database := do
  return db.withRows t (← t.schema.add (← db.rowsOf t) given)

/-- Gives the rows that have some values other values in some columns, and counts them. -/
def change (db : Database) (t : TableName) (wanted values : Fields) :
    Except Fault (Nat × Database) := do
  let (count, rows) ← t.schema.change (← db.rowsOf t) wanted values
  return (count, db.withRows t rows)

/-- Removes the rows that have some values, and counts them. -/
def remove (db : Database) (t : TableName) (wanted : Fields) : Except Fault (Nat × Database) := do
  let (count, rows) ← t.schema.remove (← db.rowsOf t) wanted
  return (count, db.withRows t rows)

/-- Drops a table. -/
def drop (db : Database) (t : TableName) : Database := ⟨db.tables.erase t⟩

/-! ## Entries -/

/-- The number of the row of a name, and the database in which there is one. -/
def ensure (db : Database) (t : TableName) (name : Value) (others : Fields) :
    Except Fault (Value × Database) := do
  match (← db.rowsOf t).find? fun row => (row.get "name").same name with
  | some row => return (row.get "id", db)
  | none =>
    let db ← db.add t (("name", name) :: others)
    match (← db.rowsOf t).getLast? with
    | some row => return (row.get "id", db)
    | none => throw .constraint

/-- What a group is given that is made because it is named. -/
def newGroup : Fields := [("scope", .text Scope.ministry.word)]

/-- The ending of the addresses that users are given. -/
def addressEnding : String := "@example.org"

/-- What an entry says without having to: a user has an address, and a group is of the
    ministry. -/
def implied (t : TableName) (entry : Fields) : Fields :=
  match t with
  | .users => [("email", .text ((Row.get entry "id").display ++ addressEnding))]
  | .groups => newGroup
  | _ => []

/-- The entry with the number of what it names instead of the name. -/
def resolve (db : Database) (t : TableName) (name column : String) (others entry : Fields) :
    Except Fault (Fields × Database) := do
  match entry.lookup name with
  | some v =>
    let (id, db) ← db.ensure t v others
    return (entry.filter (·.1 ≠ name) ++ [(column, id)], db)
  | none => return (entry, db)

/-- The entry as a row, and the database with all that the entry names. -/
def resolveAll (db : Database) (entry : Fields) : Except Fault (Fields × Database) := do
  let (entry, db) ← db.resolve .groups "group" "group_id" newGroup entry
  db.resolve .objects "object" "business_object_id" [] entry

/-- Adds an entry. -/
def enter (db : Database) (t : TableName) (entry : Fields) : Except Fault Database := do
  let (row, db) ← db.resolveAll entry
  let missing := (implied t entry).filter fun e => (row.lookup e.1).isNone
  db.add t (row ++ missing)

/-- Gives the entries that say some things other values in some columns, and counts them. -/
def changeEntries (db : Database) (t : TableName) (wanted values : Fields) :
    Except Fault (Nat × Database) := do
  let (wanted, db) ← db.resolveAll wanted
  let (values, db) ← db.resolveAll values
  db.change t wanted values

/-- Removes the entries that say some things, and counts them. -/
def removeEntries (db : Database) (t : TableName) (wanted : Fields) :
    Except Fault (Nat × Database) := do
  let (wanted, db) ← db.resolveAll wanted
  db.remove t wanted

/-- Adds entries one after the other. -/
def enterAll (db : Database) (t : TableName) (entries : List Fields) : Except Fault Database :=
  entries.foldlM (fun db entry => db.enter t entry) db

end Database

end StaffAccess
