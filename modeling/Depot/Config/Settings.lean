/-
Process settings: what fills in for a backend's configuration where that
says nothing. They come from environment variables whose names begin
with `BACKPLANE_`, large and small letters alike, and from a file of
such variables; a variable of the process counts before one of the file.
A name in the file that is no setting is refused, unless it is given no
value.
-/
import Depot.Environment.File
import Depot.Reading.Basic
import Depot.Text.Case

namespace Depot

/-- The settings of a process. -/
structure Settings where
  environment : String := "dev"
  location : String := "eastus"
  logLevel : String := "INFO"
  configPath : Option String := none
  deriving DecidableEq

namespace Settings

/-- The names of the settings. -/
def names : List String := ["default_environment", "default_location", "log_level", "config_path"]

/-- What the names of variables begin with, in small letters. -/
def lead : String := "backplane_"

-- ============================================================ report

/-- The most bytes of a value that a report shows in full. -/
def shownBytes : Nat := 50

/-- As many of the first characters as fit into some bytes. -/
def withinBytes : Nat → List Char → List Char
  | _, [] => []
  | n, c :: rest => if c.utf8Size ≤ n then c :: withinBytes (n - c.utf8Size) rest else []

/-- A value as a report shows it: of a long one only both ends. -/
def shownValue (value : String) : String :=
  let shown := (Value.str value).quotedLabel
  if shown.utf8ByteSize ≤ shownBytes then shown
  else
    let front := withinBytes 25 shown.toList
    let back := (withinBytes 24 shown.toList.reverse).reverse
    String.ofList front ++ "..." ++ String.ofList back

/-- A name as a report shows it. -/
def shownName (name : String) : String :=
  if name.contains '.' then "`" ++ name ++ "`" else name

/-- The report about names that are no settings, each with its value;
`page` is the address of the help on a kind of issue. -/
def report (page : String → String) (extra : List (String × String)) : String :=
  let kind := "extra_forbidden"
  let issues := extra.map fun (name, value) =>
    s!"{shownName name}\n  {Reading.extraMessage} " ++
      s!"[type={kind}, input_value={shownValue value}, input_type=str]\n" ++
      s!"    For further information visit {page kind}"
  let ending := if extra.length = 1 then "" else "s"
  let count := s!"{extra.length} validation error{ending}"
  "\n".intercalate (s!"{count} for Settings" :: issues)

-- ========================================================== settings

/-- The value of each name, large and small letters alike. -/
def byLowerName (bindings : Environment.File.Bindings) : Environment.File.Bindings :=
  Table.ofEntries (bindings.map fun (name, value) => (lowerCase name, value))

/-- The settings that the variables of the process and those of a file
amount to; `page` is the address of the help on a kind of issue. -/
def read (page : String → String) (process : List (String × String)) (file : Option String) :
    Except Fault Settings :=
  let inFile := byLowerName ((file.map (Environment.File.read process)).getD [])
  let process := byLowerName (process.map fun (name, value) => (name, some value))
  let value := fun name =>
    ((process.lookup (lead ++ name)).or (inFile.lookup (lead ++ name))).join
  let known := names.map (lead ++ ·) ++ names
  let extra := inFile.filterMap fun (name, value) =>
    match value with
    | some value => if name ∈ known || value = "" then none else some (name, value)
    | none => none
  if extra.isEmpty then
    .ok ⟨(value "default_environment").getD "dev", (value "default_location").getD "eastus",
      (value "log_level").getD "INFO", value "config_path"⟩
  else
    .error (.unknownSettings (extra.map fun (name, _) => ⟨[name], Reading.extraMessage⟩)
      (report page extra))

/-- The settings as a mapping. -/
def toFields (s : Settings) : Fields :=
  [("default_environment", .str s.environment), ("default_location", .str s.location),
    ("log_level", .str s.logLevel), ("config_path", .ofText? s.configPath)]

end Settings

end Depot
