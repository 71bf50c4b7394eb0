/-
Loading a backend's configuration from a file. The file is the one that
is asked for, else the one that the settings name, else the usual one in
the working directory; without any of them the default configuration
holds. Whatever is wrong with the file is reported as a failure of the
configuration, with the path to it.
-/
import Depot.Config.Basic
import Depot.Yaml.Document

namespace Depot

-- ============================================================= files

/-- The files below the working directory, by path, with their texts. -/
abbrev Files := Table String

/-- What stands at a path. -/
inductive FileEntry where
  | text (s : String)
  | directory

namespace Files

/-- The steps of a path; what does not lead anywhere is left out. -/
def steps (path : String) : List String :=
  (cutString '/' path).filter fun s => s ≠ "" ∧ s ≠ "."

/-- The slashes at the beginning of a path from the root: one, or two if
there are just two. -/
def rootMark (path : String) : String :=
  match (path.toList.takeWhile (· = '/')).length with
  | 0 => ""
  | 2 => "//"
  | _ => "/"

/-- A path in its shortest spelling. -/
def tidy (path : String) : String :=
  let tidied := rootMark path ++ "/".intercalate (steps path)
  if tidied = "" then "." else tidied

/-- What stands at the end of some steps. -/
def lookUp? (files : Files) (path : List String) : Option FileEntry :=
  match files.find? fun (name, _) => steps name = path with
  | some (_, text) => some (.text text)
  | none =>
      if path.isEmpty || files.any fun (name, _) => path.isPrefixOf (steps name) then
        some .directory
      else none

/-- The longest step of a path, in bytes. -/
def longestStep : Nat := 255

/-- The longest path, in bytes. -/
def longestPath : Nat := 4095

/-- The fault of a path or a step that is longer. -/
def tooLong : Fault := .system "OSError" "File name too long"

/-- Refuses a step that is too long. Only one that is looked up in a
directory is refused. -/
def checkStep (step : String) : Except Fault Unit :=
  if longestStep < step.utf8ByteSize then .error tooLong else .ok ()

/-- What stands where steps lead from the working directory to one that is
above it. Only the directories on the way are known. -/
def followAbove (steps : List String) : Except Fault (Option FileEntry) :=
  match steps.dropWhile (· = "..") with
  | [] => .ok (some .directory)
  | step :: _ => (checkStep step).map fun _ => none

/-- What stands where further steps lead from a directory, where `lookUp?`
tells what there is, and `isRoot` whether it is all there is. -/
def follow (lookUp? : List String → Option FileEntry) (isRoot : Bool) (at0 : List String) :
    List String → Except Fault (Option FileEntry)
  | [] => .ok (lookUp? at0)
  | step :: rest =>
      match lookUp? at0 with
      | some .directory => do
          checkStep step
          if step ≠ ".." then follow lookUp? isRoot (at0 ++ [step]) rest
          else if isRoot || !at0.isEmpty then follow lookUp? isRoot at0.dropLast rest
          else followAbove rest
      | _ => .ok none

/-- The directories that stand at the root of every system. -/
def standardDirectories : List String := [
  "bin", "boot", "dev", "etc", "home", "lib", "media", "mnt", "opt", "proc", "root", "run", "sbin",
  "srv", "sys", "tmp", "usr", "var"]

/-- What stands at the end of some steps from the root, as far as it is the
same on every system: some directories, and the file that is always
empty. -/
def standardEntry? : List String → Option FileEntry
  | [] => some .directory
  | [name] => if name ∈ standardDirectories then some .directory else none
  | ["dev", "null"] => some (.text "")
  | _ => none

/-- What stands at a path. A path with a null character leads nowhere. -/
def at? (files : Files) (path : String) : Except Fault (Option FileEntry) :=
  if path.contains '\x00' then .ok none
  else if longestPath < (tidy path).utf8ByteSize then .error tooLong
  else if rootMark path = "" then follow files.lookUp? false [] (steps path)
  else follow standardEntry? true [] (steps path)

/-- The name of the file of variables in the working directory. -/
def variablesName : String := ".env"

/-- The settings of a process with some variables in the directory of the
files. -/
def settings (files : Files) (page : String → String) (process : List (String × String)) :
    Except Fault Settings :=
  Settings.read page process <|
    match files.lookUp? [variablesName] with
    | some (.text s) => some s
    | _ => none

end Files

-- =========================================================== parsing

/-- The name of what is not a file. -/
def mappingSource : Value := .str "<mapping>"

namespace Config

variable {σ : Type}

/-- A failure of the configuration from a source. -/
def failure (message : String) (source : Value) (details : Fields := []) : Fault :=
  .configuration message (("path", source) :: details)

/-- The providers that some ids name. -/
def resolveAll (everyone : Registry σ) (source : Value) (ids : List Data) :
    Except Fault (List (Offer σ)) :=
  ids.mapM fun id => do
    if !id.isWritable then throw Written.tooLongToWrite
    match ← Provider.resolve everyone (.str id.display) with
    | some p => return .provider p
    | none =>
        let details := [("provider_id", id.toValue)]
        throw (failure s!"Unknown provider \"{id.display}\"" source details)

/-- The convention that the data of a configuration describes. -/
def readNaming (source : Value) (d : Data) : Except Fault NamingOffer :=
  match d, d.entries? with
  | .value .null, _ => .ok (.value .null)
  | _, some es =>
      .ok (.convention (.joined (.ofFields (es.filterMap fun
        | (.value (.str key), d) => some (key, d.toValue)
        | _ => none))))
  | _, none => .error (failure "naming must be a mapping" source)

/-- The text of a key; keys that are none can be neither sorted nor
listed. -/
def keyText : Data → Except Fault String
  | .value (.str key) => .ok key
  | d => .error (.badType s!"expected str instance, {d.typeName} found")

/-- Refuses entries under keys that a configuration does not have. -/
def refuseUnknown (source : Value) (es : Data.Entries) : Except Fault Unit := do
  let unknown := (es.map Prod.fst).filter fun k => !Config.keys.any fun key =>
    k.sameKey (.value (.str key))
  let unknown := (← unknown.mapM keyText).mergeSort fun a b => decide (a ≤ b)
  if !unknown.isEmpty then
    let list := ", ".intercalate unknown
    throw (failure s!"Unknown backend config keys: {list}" source [("keys", .texts unknown)])

/-- The providers that the data of a configuration lists by their ids. -/
def readProviders (everyone : Registry σ) (source : Value) (d : Data) :
    Except Fault (ProviderOffers σ) :=
  match d with
  | .value .null => .ok (.value .null)
  | ids => do return .list (← resolveAll everyone source (← ids.iterate))

/-- The checked configuration of a draft from a source. -/
def ofSource (source : Value) (d : Draft σ) : Except Fault (Config σ) :=
  match ofDraft d with
  | .ok config => .ok config
  | .error (.rejected issues) =>
      .error (failure s!"Invalid backend config in {source.label}" source
        [("errors", .texts (issues.map FieldIssue.message))])
  | .error fault => .error fault

/-- The configuration that the data of a file describes. -/
def parse (everyone : Registry σ) (data : Data) (source : Value := mappingSource) :
    Except Fault (Config σ) := do
  match data.entries? with
  | some es =>
      refuseUnknown source es
      let naming ← readNaming source (es.getD "naming")
      let providers ← readProviders everyone source (es.getD "providers")
      ofSource source ⟨es, naming, providers⟩
  | none => throw (failure s!"Backend config must be a mapping, got {data.typeName}" source)

-- =========================================================== loading

/-- The usual place of the file below the working directory. -/
def usualPath : String := ".backplane/backend.yaml"

/-- What the working directory is called in messages. -/
def workingDirectory : String := "<cwd>"

/-- A configuration file that was found: how it is called, and what is
there. -/
structure Found where
  name : String
  entry : FileEntry

/-- The configuration file to use. -/
def locate (files : Files) (settings : Except Fault Settings) (path : Option String) :
    Except Fault (Option Found) := do
  let found := fun (name path : String) => do return (← files.at? path).map (Found.mk name)
  match path with
  | none | some "" =>
      let configured ← match (← settings).configPath with
        | none | some "" => pure none
        | some path => found (Files.tidy path) path
      if configured.isSome then return configured
      found s!"{workingDirectory}/{usualPath}" usualPath
  | some path => found (Files.tidy path) path

/-- The data of a file. A document that counts as nothing stands for an
empty mapping. -/
def readEntry (found : Found) : Except Fault Data :=
  let unreadable := failure s!"Failed to read config file {found.name}" (.str found.name)
  match found.entry with
  | .directory => .error unreadable
  | .text s => match Yaml.read s with
      | .ok data => .ok (if data.isTruthy then data else .mapping [])
      | .error .malformed => .error unreadable
      | .error (.fault fault) => .error fault

/-- The configuration of the file to use, and what the journal says about
it. -/
def load (everyone : Registry σ) (files : Files) (settings : Except Fault Settings)
    (path : Option String := none) : Except Fault (Config σ) × Journal :=
  match locate files settings path with
  | .error fault => (.error fault, [])
  | .ok none =>
      match path with
      | none | some "" => (ofDraft {}, [])
      | some path => (.error (failure s!"Config file not found: {path}" (.str path)), [])
  | .ok (some found) =>
      match readEntry found with
      | .error fault => (.error fault, [])
      | .ok data =>
          (parse everyone data (.str found.name),
            [⟨.debug, "loaded_backend_config", [("path", .str found.name)]⟩])

end Config

end Depot
