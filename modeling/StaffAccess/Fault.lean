import StaffAccess.Value.Text
import StaffAccess.Vocabulary

/-!
# Faults

Why an answer could not be computed. A denial is an answer and no fault, except for callers who
ask to have it raised.

* `Fault`: all causes.
* `Fault.message`: the words for those causes that have some.
* `Fault.isEvaluation`: the faults that leave a security decision open.
-/

namespace StaffAccess

/-- Why the store of users and rules gave no answer. -/
inductive ReadFault
  /-- A read failed inside the store. -/
  | failed (read : String)
  /-- Some reads did not end in time. -/
  | timedOut (reads : List String)
  /-- The store says so in its own words. -/
  | reported (text : String)
  deriving DecidableEq, Repr

/-- The words for a read that gave no answer. -/
def ReadFault.message : ReadFault → String
  | failed read => "rule store read failed: " ++ read
  | timedOut reads => "rule store read timed out: " ++ String.intercalate ", " reads
  | reported text => text

/-- Why a predicate document is refused. -/
inductive DocumentFault
  /-- It is no record. -/
  | notRecord (document : Value)
  /-- It is a constant of an unknown name. -/
  | unknownMatch (name : Value)
  /-- Its operands are no list. -/
  | operandsNotList
  /-- It has none of the known forms. -/
  | unrecognised (document : Fields)
  deriving Repr

/-- The words for a refused document. -/
def DocumentFault.message : DocumentFault → String
  | notRecord document => "Predicate must be a mapping, got " ++ document.kindName
  | unknownMatch name => "Unknown match value: " ++ name.literal
  | operandsNotList => "Predicate operands must be a list"
  | unrecognised document =>
    "Unrecognised predicate document: " ++ (Value.record document).literal

/-- Why a stored rule cannot be used. -/
inductive RuleFault
  /-- Its kind is unknown. -/
  | unknownKind (kind : Value) (object : String)
  /-- Its condition is no record. -/
  | conditionNotRecord (object : String)
  /-- Its condition does not have the shape that its kind asks for. -/
  | invalidCondition (kind : RuleKind) (errors : Nat)
  /-- Its predicate document is refused. -/
  | invalidDocument (object : String) (cause : DocumentFault)
  deriving Repr

/-- The words for an unusable rule. -/
def RuleFault.message : RuleFault → String
  | unknownKind kind object =>
    "unknown rule kind " ++ kind.literal ++ " on " ++ Text.quoted object
  | conditionNotRecord object =>
    "rule condition on " ++ Text.quoted object ++ " is not a mapping"
  | invalidCondition kind errors =>
    "invalid " ++ kind.word ++ " condition: " ++ toString errors ++ " error(s)"
  | invalidDocument object cause =>
    "invalid 'where' document on " ++ Text.quoted object ++ ": " ++ cause.message

/-- Why a manager may not be assigned. -/
inductive AssignmentFault
  /-- The user is at the end of the candidate's chain of managers. -/
  | cycle (user candidate : String) (path : List String)
  /-- The user would have more managers above than the limit allows. -/
  | tooDeep (user candidate : String) (limit : Int)
  deriving DecidableEq, Repr

namespace AssignmentFault

/-- The name of the cause. -/
def reason : AssignmentFault → String
  | cycle .. => "CIRCULAR_REFERENCE"
  | tooDeep .. => "DEPTH_EXCEEDED"

/-- The users concerned. -/
def path : AssignmentFault → List String
  | cycle _ _ path => path
  | tooDeep user candidate _ => [user, candidate]

/-- The words for a rejected assignment. -/
def message : AssignmentFault → String
  | cycle user candidate _ =>
    "assigning " ++ Text.quoted candidate ++ " as manager of " ++ Text.quoted user ++
      " would create a cycle"
  | tooDeep _ _ limit => "hierarchy depth would exceed the limit (" ++ toString limit ++ ")"

end AssignmentFault

/-- Why a value is not the written form of a security context. -/
inductive ContextFault
  /-- It is no record. -/
  | notRecord
  /-- Its permissions or row rules are no record. -/
  | partsNotRecords
  /-- Its rules for elements are no list, or its hierarchy is no record. -/
  | rulesOrHierarchy
  /-- School staff cannot have a hierarchy. -/
  | schoolHierarchy
  deriving DecidableEq, Repr

/-- The words for an unusable context. -/
def ContextFault.message : ContextFault → String
  | notRecord => "security context payload must be a mapping"
  | partsNotRecords => "permissions and data_filters must be mappings"
  | rulesOrHierarchy => "ui_rules must be a list and hierarchy a mapping"
  | schoolHierarchy => "SCHOOL security contexts cannot carry a hierarchy"

/-- A call of a cache server. -/
inductive CacheCall
  /-- Read one key. -/
  | get
  /-- Write one key. -/
  | set
  /-- Remove one key. -/
  | delete
  /-- Remove all keys that start in one way. -/
  | deletePrefix
  deriving DecidableEq, Repr

/-- The name of a call. -/
def CacheCall.name : CacheCall → String
  | get => "get"
  | set => "set"
  | delete => "delete"
  | deletePrefix => "prefix delete"

/-- Why there is no answer. -/
inductive Fault
  /-- The user does not exist or is not active. -/
  | identityNotFound (user : Value)
  /-- The store of users and rules gave no answer. -/
  | storeUnavailable (cause : ReadFault)
  /-- A stored rule cannot be used. -/
  | malformedRule (cause : RuleFault)
  /-- The cache server failed. -/
  | cacheDegraded (call : CacheCall) (error : String)
  /-- A denial, raised. -/
  | permissionDenied (reason : String)
  /-- A manager may not be assigned. -/
  | assignmentRejected (cause : AssignmentFault)
  /-- A value is not a written security context. -/
  | context (cause : ContextFault)
  /-- A predicate document is refused. -/
  | document (cause : DocumentFault)
  /-- A part of a predicate is no predicate. -/
  | unsupportedPredicate (part : Value)
  /-- A policy file has no policy in it. -/
  | missingPolicy (path : String)
  /-- A value does not have the shape asked for, in so many places. -/
  | invalid (errors : Nat)
  /-- A text is no YAML. -/
  | yaml
  /-- A record lacks an entry. -/
  | missingKey
  /-- A value of the right kind has a wrong content. -/
  | badValue
  /-- A value is of a wrong kind. -/
  | wrongType
  /-- Entries are asked of a value that is no record. -/
  | notRecord
  /-- A number is too large. -/
  | outOfRange
  /-- A text nests too deeply. -/
  | tooDeep
  /-- A row violates a constraint of its table. -/
  | constraint
  /-- A value cannot stand in a query. -/
  | statement
  /-- A table is gone. -/
  | missingTable
  /-- No engine has been started. -/
  | noEngine
  deriving Repr

namespace Fault

/-- The words for a fault. Those that a value's wrong shape causes have none. -/
def message : Fault → Option String
  | identityNotFound user => some ("user " ++ user.literal ++ " not found or inactive")
  | storeUnavailable cause => some cause.message
  | malformedRule cause => some cause.message
  | cacheDegraded call error => some ("redis " ++ call.name ++ " failed: " ++ error)
  | permissionDenied reason => some reason
  | assignmentRejected cause => some cause.message
  | context cause => some cause.message
  | document cause => some cause.message
  | unsupportedPredicate part => some ("Unsupported predicate: " ++ part.literal)
  | missingPolicy path => some ("Missing top-level 'policy' key in config: " ++ path)
  | noEngine => some "Authorization engine not configured. Did app startup run?"
  | _ => none

/-- Whether the fault leaves a security decision open: identity, store, rules or cache. -/
def isEvaluation : Fault → Bool
  | identityNotFound _ => true
  | storeUnavailable _ => true
  | malformedRule _ => true
  | cacheDegraded _ _ => true
  | _ => false

/-- Whether the fault says that a value could not be read: it lacks an entry, or one of its
    parts is of a wrong kind or content. Numbers that are too large and texts that nest too
    deeply are not among them. -/
def isUnreadable : Fault → Bool
  | missingKey => true
  | badValue => true
  | wrongType => true
  | notRecord => true
  | context _ => true
  | _ => false

end Fault

end StaffAccess
