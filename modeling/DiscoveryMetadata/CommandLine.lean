import DiscoveryMetadata.CommandLine.Arguments
import DiscoveryMetadata.Configuration.Reading
import DiscoveryMetadata.Resource
/-
  The command line: validating a resource, rendering it, and listing the versions.

  A run is a function of the arguments and of the files that can be read. It gives one action for
  the surroundings to take; only writing a file can still fail then.
-/
namespace DiscoveryMetadata.CommandLine

open Data (Value)

/-- What a run ends with. -/
inductive Action where
  | print (text : String)
  | save (path text : String)
  | fail (reason : String)
  | refuse
  deriving DecidableEq, Repr

/-- What the surroundings see of a run that is over. -/
structure Response where
  code : Nat := 0
  output : String := ""
  complaint : String := ""
  deriving DecidableEq, Repr

namespace Response

/-- The response to a failure. -/
def failed (reason : String) : Response := { code := 1, complaint := "Error: " ++ reason ++ "\n" }

/-- The response to wrong arguments. -/
def refused : Response := { code := 2 }

end Response

/-- The name and version of the program. -/
def banner : String := "ddms 0.1.0\n"

/-- Installs the configuration that a path names, if one does. -/
def configured (files : Files) (path : Option String) : Outcome Session :=
  match path with
  | none => .ok {}
  | some path => do Session.install {} (← Configuration.ofFile files path)

/-- Reads the resource in a file. -/
def readResource (files : Files) (s : Session) (file : String) : Except String Resource :=
  match files file with
  | .error reason => .error reason
  | .ok xml => (Resource.ofXml (s.context files).1 xml).mapError (·.describe)

/-- A finding as data. -/
def findingValue (f : Finding) : Value :=
  .record [("kind", .text f.gravity.word), ("locator", .text f.locator), ("text", .text f.text)]

/-- The report on a valid resource as data. -/
def reportValue (file : String) (r : Resource) : Value :=
  .record [("file", .text file), ("messages", .list (r.warnings.map findingValue)),
    ("valid", .truth true), ("version", .text r.version.number)]

/-- The report on a valid resource as lines for a reader. -/
def reportText (file : String) (r : Resource) : String :=
  file ++ " is a valid DDMS " ++ r.version.number ++ " resource.\n" ++
    String.join (r.warnings.map fun f =>
      "  " ++ f.gravity.word ++ " at " ++ f.locator ++ ": " ++ f.text ++ "\n")

/-- A resource in one of its forms. -/
def rendered (format : RenderFormat) (r : Resource) : String :=
  match format with
  | .xml => Component.toXml r
  | .html => Component.toHtml r
  | .text => Component.toText r

/-- A text with blanks behind it up to a width. -/
def padTo (width : Nat) (s : String) : String :=
  s ++ String.ofList (List.replicate (width - s.length) ' ')

/-- The line of a version in the list of them; the current one is marked. -/
def versionLine (current v : Version) : String :=
  let mark := if v = current then "*" else " "
  let ntk := match v.uriOf .ntk with
    | .ok uri => uri
    | .error _ => "-"
  mark ++ " " ++ padTo 6 v.number ++ " ddms=" ++ v.ddmsUri ++ " ism=" ++ v.ismUri ++ " ntk=" ++
    ntk ++ "\n"

/-- Runs a command. -/
def Command.run (files : Files) (s : Session) : Command → Action
  | .versions => .print (String.join (Version.all.map (versionLine s.current)))
  | .validate file json =>
    match readResource files s file with
    | .error reason => .fail reason
    | .ok r =>
      .print (if json then Data.Json.spread "" (reportValue file r) ++ "\n" else reportText file r)
  | .render file format output =>
    match readResource files s file with
    | .error reason => .fail reason
    | .ok r =>
      match output with
      | some path => .save path (rendered format r)
      | none => .print (rendered format r)

/-- Runs the program on its arguments. -/
def run (files : Files) (args : List String) : Action :=
  match Request.ofArguments args with
  | .error .usage => .refuse
  | .error .help => .print ""
  | .error .version => .print banner
  | .ok request =>
    match configured files request.configuration with
    | .error f => .fail f.describe
    | .ok s => request.command.run files s

/-- The files that a run reads, as far as the files read so far tell. -/
def sources (files : Files) (args : List String) : List String :=
  match Request.ofArguments args with
  | .error _ => []
  | .ok request =>
    let input := match request.command with
      | .validate file _ | .render file _ _ => [file]
      | .versions => []
    let tables := match configured files request.configuration with
      | .error _ => []
      | .ok s => (s.configuration.vocabularyLocation.map Vocabulary.paths).getD []
    request.configuration.toList ++ input ++ tables

/-- The response to an action, given how the writing of its file would end. -/
def Action.response (save : String → String → Except String Unit) : Action → Response
  | .print text => { output := text }
  | .fail reason => .failed reason
  | .refuse => .refused
  | .save path text =>
    match save path text with
    | .ok _ => {}
    | .error reason => .failed reason

end DiscoveryMetadata.CommandLine
