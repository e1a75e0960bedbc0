import StaffAccess.Policy
import StaffAccess.Yaml

/-!
# Policy files

A policy file is a YAML text whose entry `policy` holds the policy.

* `Policy.ofFile`: the policy in a file.
-/

namespace StaffAccess.Policy

/-- The name of the entry that holds the policy. -/
def entryName : String := "policy"

/-- The value, or the empty record if it counts as not given. -/
def orEmpty (v : Value) : Value := if v.truthy then v else .record []

/-- The policy in a file of some text. The path is for the words of a fault. -/
def ofFile (path text : String) : Except Fault Policy := do
  match ← (orEmpty (← Yaml.read text)).lookup? entryName with
  | some v => ofValue (orEmpty v)
  | none => throw (.missingPolicy path)

end StaffAccess.Policy
