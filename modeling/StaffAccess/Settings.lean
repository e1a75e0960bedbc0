import StaffAccess.Checked

/-!
# Settings

How an installation is set up, from environment variables or by name. Whatever is not set has a
default, so that an installation runs without any.

* `Settings`: the settings.
* `Settings.check`: settings from named values.
* `Settings.ofEnvironment`: settings from environment variables.
* `Settings.cacheKind`: which cache they ask for.
-/

namespace StaffAccess

/-! ## Numbers in settings -/

namespace Checked

/-- The characters of a number in a setting, without the white space around it. All must be
    ASCII. -/
def numberChars? (s : String) : Option (List Char) :=
  let cs := Text.trim Text.isSpace s.toList
  if cs.all fun c => 0x20 < c.toNat && c.toNat < 0x7f then some cs else none

/-- The characters of a whole number in front of a fraction of zeros, if there is one. -/
def withoutZeroFraction (cs : List Char) : List Char :=
  let whole := cs.takeWhile (· != '.')
  if (cs.drop (whole.length + 1)).all (· == '0') then whole else cs

/-- A whole number: itself, a truth value, a double without a fraction, or a numeral. -/
def int : Value → Checked Int
  | .int n => valid n
  | .bool b => valid (Value.ofFlag b)
  | .double d =>
    match d.truncate? with
    | some n => if (Value.double d).sameNumber (.int n) then valid n else bad
    | none => bad
  | .text s =>
    match (numberChars? s).bind fun cs =>
        Text.wholeNumber? (String.ofList (withoutZeroFraction cs)) with
    | some n => valid n
    | none => bad
  | _ => bad

/-- A double: a number, a truth value or a numeral. -/
def double : Value → Checked Double
  | .double d => valid d
  | .int n => valid (Double.ofInt n)
  | .bool b => valid (Double.ofInt (Value.ofFlag b))
  | .text s =>
    match (numberChars? s).bind fun cs => Text.decimalNumber? (String.ofList cs) with
    | some d => valid d
    | none => bad
  | _ => bad

end Checked

/-! ## Settings -/

/-- How an installation is set up. -/
structure Settings where
  /-- The database. -/
  dbUrl : Option String := none
  /-- The cache server. -/
  cacheUrl : Option String := none
  /-- The policy file. -/
  policyPath : Option String := none
  /-- The log level. -/
  logLevel : String := "INFO"
  /-- How long contexts are kept in the cache, in seconds. -/
  ttl : Int := 3600
  /-- The age from which on a cached context is too old, in seconds. -/
  maxAge : Double := .ofInt 3600
  /-- How long reads of the store are waited for, in seconds. -/
  storeTimeout : Double := .ofInt 5
  /-- How many reads are made at once. -/
  workers : Int := 4
  /-- How many managers there may be above a user. -/
  maxDepth : Int := 10
  /-- The header that names the caller. -/
  userHeader : String := "X-User-Id"
  deriving Repr

namespace Settings

open Checked

/-- The settings in a record, by their names. -/
def check (f : Fields) : Checked Settings :=
  let byDefault : Settings := {}
  Settings.mk
    <$> entry f "db_url" (optional string) byDefault.dbUrl
    <*> entry f "cache_url" (optional string) byDefault.cacheUrl
    <*> entry f "policy_path" (optional string) byDefault.policyPath
    <*> entry f "log_level" string byDefault.logLevel
    <*> entry f "context_ttl_seconds" int byDefault.ttl
    <*> entry f "context_max_age_seconds" double byDefault.maxAge
    <*> entry f "store_timeout_seconds" double byDefault.storeTimeout
    <*> entry f "fetch_workers" int byDefault.workers
    <*> entry f "max_hierarchy_depth" int byDefault.maxDepth
    <*> entry f "user_id_header" string byDefault.userHeader

/-- A text, null if there is none. -/
def optionalText (s : Option String) : Value := (s.map Value.text).getD .null

/-- The record of the settings. -/
def toValue (settings : Settings) : Value :=
  .record
    [("db_url", optionalText settings.dbUrl),
     ("cache_url", optionalText settings.cacheUrl),
     ("policy_path", optionalText settings.policyPath),
     ("log_level", .text settings.logLevel),
     ("context_ttl_seconds", .int settings.ttl),
     ("context_max_age_seconds", .double settings.maxAge),
     ("store_timeout_seconds", .double settings.storeTimeout),
     ("fetch_workers", .int settings.workers),
     ("max_hierarchy_depth", .int settings.maxDepth),
     ("user_id_header", .text settings.userHeader)]

/-! ## The environment -/

/-- What the names of the variables start with, in lower case. -/
def variablePrefix : String := "scopeguard_"

/-- The setting that a variable is for, if it is for one. Letter case does not matter. -/
def settingOfVariable? (given : String) : Option String :=
  let name := given.toList.map Char.toLower
  let start := variablePrefix.toList
  if start.isPrefixOf name then some (String.ofList (name.drop start.length)) else none

/-- The settings of an environment. -/
def ofEnvironment (environment : List (String × String)) : Except Fault Settings :=
  let named := environment.filterMap fun (name, v) =>
    (settingOfVariable? name).map fun name => (name, Value.text v)
  (check (Value.fieldsOfEntries named)).toExcept

/-! ## What they ask for -/

/-- A text that is there and not empty. -/
def given (s : Option String) : Option String := s.filter (· ≠ "")

/-- The database, by default a file below a directory. -/
def databaseUrl (settings : Settings) (root : String) : String :=
  (given settings.dbUrl).getD ("sqlite:///" ++ root ++ "/scopeguard.db")

/-- What stands in front of the steps of a path: two slashes stay as they are, any other number of
    them is one. -/
def pathRoot (path : String) : String :=
  match (path.toList.takeWhile (· = '/')).length with
  | 0 => ""
  | 2 => "//"
  | _ => "/"

/-- The steps of a path, without empty ones and those that stay in place. -/
def pathSteps (path : String) : List String :=
  (path.splitOn "/").filter fun step => step ≠ "" ∧ step ≠ "."

/-- A path in its plain form. -/
def plainPath (path : String) : String :=
  let plain := pathRoot path ++ String.intercalate "/" (pathSteps path)
  if plain = "" then "." else plain

/-- The policy file, by default one below a directory. -/
def policyFile (settings : Settings) (root : String) : String :=
  match given settings.policyPath with
  | some path => plainPath path
  | none => root ++ "/config/policy.yaml"

/-- The kinds of caches. -/
inductive CacheKind
  /-- Within the program. -/
  | memory
  /-- On a server. -/
  | server
  deriving DecidableEq, Repr

/-- What the addresses of cache servers start with. -/
def serverSchemes : List String := ["redis://", "rediss://", "unix://"]

/-- The part of an address that names the host and the port. -/
def hostPart (url : String) : List Char :=
  let rest := (url.toList.dropWhile (· != '/')).drop 2
  let authority := rest.takeWhile fun c => c != '/' && c != '?' && c != '#'
  (authority.reverse.takeWhile (· != '@')).reverse

/-- Whether the port in an address is one, if there is any. -/
def portFits (url : String) : Bool :=
  let port := (((hostPart url).reverse.takeWhile fun c => c != ':' && c != ']').reverse)
  if (hostPart url).contains ':' && (hostPart url).getLast? != some ']' then
    port.all Char.isDigit && Text.natOfDigits port ≤ 65535
  else true

/-- The cache that the settings ask for: a server if there is an address, which must be of a
    known kind. -/
def cacheKind (settings : Settings) : Except Fault CacheKind :=
  match given settings.cacheUrl with
  | none => .ok .memory
  | some url =>
    if serverSchemes.any (fun scheme => scheme.toList.isPrefixOf url.toList) &&
        ("unix://".toList.isPrefixOf url.toList || portFits url) then .ok .server
    else .error .badValue

end Settings

end StaffAccess
