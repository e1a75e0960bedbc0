import StaffAccess.Database.Column

/-!
# Tables

Rows under the constraints of their table: required columns are filled, and some groups of
columns tell any two rows apart. A change that would break a constraint is refused as a whole.

* `Schema`: the columns and constraints of a table.
* `Schema.add`, `Schema.change`: the changes, on the list of rows.
-/

namespace StaffAccess.Database

/-- A row: the values of the columns, by their names. -/
abbrev Row := Fields

/-- The value of a column in a row. -/
def Row.get (row : Row) (column : String) : Value := (row.lookup column).getD .null

/-- The text in a column of a row; empty if there is none. -/
def Row.text (row : Row) (column : String) : String :=
  match row.get column with
  | .text s => s
  | _ => ""

/-- The whole number in a column of a row; zero if there is none. -/
def Row.whole (row : Row) (column : String) : Int :=
  match row.get column with
  | .int n => n
  | _ => 0

/-- Whether a column of a row holds the truth. -/
def Row.holds (row : Row) (column : String) : Bool := (row.get column).same (.bool true)

/-- The columns and constraints of a table. -/
structure Schema where
  /-- The columns. -/
  columns : List Column
  /-- The groups of columns that tell any two rows apart, the first one by their id. -/
  keys : List (List String)
  /-- Whether rows without an id are numbered. -/
  isNumbered : Bool

namespace Schema

variable (schema : Schema)

/-- The column of a name. -/
def column? (name : String) : Option Column := schema.columns.find? fun c => c.name = name

/-- The form that a value takes in a named column. -/
def stored (name : String) (v : Value) : Except Fault Value :=
  match schema.column? name with
  | some c => c.kind.store v
  | none => .error .wrongType

/-- The value of a column in a new row. Null counts as no value, except in a column of any
    values. -/
def initial (given : Fields) (c : Column) : Except Fault (String × Value) := do
  match given.lookup c.name with
  | some v =>
    if v.isNull && c.kind ≠ .any then return (c.name, c.fallback)
    else return (c.name, ← c.kind.store v)
  | none => return (c.name, c.fallback)

/-- The next number of a row: one more than the greatest so far. -/
def nextNumber (rows : List Row) : Int :=
  rows.foldl (fun n row => max n (row.whole "id")) 0 + 1

/-- The row with a number, if its table has numbers and it has none. -/
def numbered (rows : List Row) (row : Row) : Row :=
  if schema.isNumbered && (row.get "id").isNull then
    Value.setField row "id" (.int (nextNumber rows))
  else row

/-- Whether all required columns of a row are filled. -/
def isComplete (row : Row) : Bool :=
  schema.columns.all fun c => !c.isRequired || c.kind = .any || !(row.get c.name).isNull

/-- Whether two rows differ in every group of columns that tells rows apart. -/
def areApart (a b : Row) : Bool :=
  schema.keys.all fun key => key.any fun c => !(a.get c).same (b.get c)

/-- Whether a row may stand beside others. -/
def fits (rows : List Row) (row : Row) : Bool :=
  schema.isComplete row && rows.all fun other => schema.areApart other row

/-- The rows with one more at the end. -/
def append (rows : List Row) (row : Row) : Except Fault (List Row) :=
  if schema.fits rows row then .ok (rows ++ [row]) else .error .constraint

/-- The rows with a new one, whose columns must all be of the table. -/
def add (rows : List Row) (given : Fields) : Except Fault (List Row) := do
  if given.any fun e => (schema.column? e.1).isNone then throw .wrongType
  let row ← schema.columns.mapM (initial given)
  schema.append rows (schema.numbered rows row)

/-- The values of some columns in the form of these. -/
def storedAll (given : Fields) : Except Fault Fields :=
  given.mapM fun (name, v) => do return (name, ← schema.stored name v)

/-- Whether a row has some values. -/
def agrees (wanted : Fields) (row : Row) : Bool :=
  wanted.all fun (name, v) => (row.get name).same v

/-- The row with other values in some columns. -/
def replace (values : Fields) (row : Row) : Row :=
  values.foldl (fun row e => Value.setField row e.1 e.2) row

/-- Gives the rows that have some values other values in some columns, and counts them. -/
def change (rows : List Row) (wanted values : Fields) : Except Fault (Nat × List Row) := do
  let wanted ← schema.storedAll wanted
  let values ← schema.storedAll values
  let changed := rows.map fun row => if agrees wanted row then replace values row else row
  return ((rows.filter (agrees wanted)).length, ← changed.foldlM schema.append [])

/-- Removes the rows that have some values, and counts them. -/
def remove (rows : List Row) (wanted : Fields) : Except Fault (Nat × List Row) := do
  let wanted ← schema.storedAll wanted
  return ((rows.filter (agrees wanted)).length, rows.filter fun row => !agrees wanted row)

/-- The constraints of a table, as a property of its rows. -/
def Sound (rows : List Row) : Prop :=
  (∀ row ∈ rows, schema.isComplete row = true) ∧
    rows.Pairwise fun a b => schema.areApart a b = true

theorem Sound.append {schema : Schema} {rows after : List Row} {row : Row}
    (h : schema.Sound rows) (ha : schema.append rows row = .ok after) : schema.Sound after := by
  unfold Schema.append at ha
  split at ha
  · next hf =>
    cases ha
    simp only [fits, Bool.and_eq_true, List.all_eq_true] at hf
    refine ⟨fun r hr => ?_, List.pairwise_append.2 ⟨h.2, by simp, fun a hm b hb => ?_⟩⟩
    · rcases List.mem_append.1 hr with hr | hr
      · exact h.1 r hr
      · rw [List.mem_singleton.1 hr]; exact hf.1
    · rw [List.mem_singleton.1 hb]; exact hf.2 a hm
  · cases ha

end Schema

end StaffAccess.Database
