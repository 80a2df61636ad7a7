import DiscoveryMetadata.Xml.Scope
/-
  The arguments of the command line, and the request that they make.

  There are two levels of arguments: those before the command, and those after it. An option may
  be written in full, with two dashes, or as one letter, where letters can be joined; its value
  follows it, or is attached to it. The configuration can be given on both levels, and the inner
  one counts. No option is given twice on one level.
-/
namespace DiscoveryMetadata.CommandLine

/-- The forms in which a resource can be rendered. -/
inductive RenderFormat where
  | xml
  | html
  | text
  deriving DecidableEq, Repr, Inhabited

namespace RenderFormat

/-- The word for a form. -/
def word : RenderFormat → String
  | xml => "xml"
  | html => "html"
  | text => "text"

/-- The form with this word. -/
def ofWord? (word : String) : Option RenderFormat := [xml, html, text].find? (·.word = word)

end RenderFormat

/-- What can be asked for. -/
inductive Command where
  | validate (file : String) (json : Bool)
  | render (file : String) (format : RenderFormat) (output : Option String)
  | versions
  deriving DecidableEq, Repr

/-- A command and the configuration to run it with. -/
structure Request where
  configuration : Option String
  command : Command
  deriving DecidableEq, Repr

/-- Why arguments make no request. -/
inductive Refusal where
  /-- The arguments are wrong. -/
  | usage
  /-- Help was asked for. -/
  | help
  /-- The version of the program was asked for. -/
  | version
  deriving DecidableEq, Repr

/-- The options of all levels. -/
inductive Switch where
  | config
  | verbose
  | json
  | format
  | output
  | help
  | version
  deriving DecidableEq, Repr

namespace Switch

/-- The name of an option in full. -/
def word : Switch → String
  | config => "config"
  | verbose => "verbose"
  | json => "json"
  | format => "format"
  | output => "output"
  | help => "help"
  | version => "version"

/-- The letter of an option. -/
def letter : Switch → Char
  | config => 'c'
  | verbose => 'v'
  | json => 'j'
  | format => 'f'
  | output => 'o'
  | help => 'h'
  | version => 'V'

/-- The option has a value. -/
def hasValue : Switch → Bool
  | config | format | output => true
  | verbose | json | help | version => false

/-- The value is one that the option can have. -/
def accepts (s : Switch) (value : String) : Bool :=
  match s with
  | format => (RenderFormat.ofWord? value).isSome
  | _ => !s.hasValue || !value.isEmpty

end Switch

/-- A level of arguments. -/
inductive Level where
  | outer
  | validate
  | render
  | versions
  deriving DecidableEq, Repr

namespace Level

/-- The options of a level. -/
def switches : Level → List Switch
  | outer => [.config, .verbose, .help, .version]
  | validate => [.config, .verbose, .json, .help]
  | render => [.config, .verbose, .format, .output, .help]
  | versions => [.config, .verbose, .help]

/-- A file is named on the level. -/
def hasFile : Level → Bool
  | validate | render => true
  | outer | versions => false

/-- The level of a command's own arguments. -/
def ofCommand? : String → Option Level
  | "validate" => some validate
  | "render" => some render
  | "versions" => some versions
  | _ => none

end Level

/-- What was given on one level. -/
structure Given where
  switches : List (Switch × String) := []
  file : Option String := none

namespace Given

/-- Adds an option with its value. Asking for help or for the version ends the reading. -/
def set (g : Given) (s : Switch) (value : String) : Except Refusal Given :=
  if s = .help then .error .help
  else if s = .version then .error .version
  else if (g.switches.lookup s).isSome || !s.accepts value then .error .usage
  else .ok { g with switches := g.switches ++ [(s, value)] }

/-- Adds the name of a file, where one is wanted. -/
def setFile (l : Level) (g : Given) (name : String) : Except Refusal Given :=
  if l.hasFile && g.file.isNone && !name.isEmpty then .ok { g with file := some name }
  else .error .usage

end Given

/-- Takes an option written in full, without its dashes. Gives what was given so far, and the
option whose value must follow. -/
def takeWord (l : Level) (g : Given) (body : List Char) : Except Refusal (Given × Option Switch) :=
  let (name, value) := match Xml.splitAt? '=' body with
    | some (name, value) => (name, some (String.ofList value))
    | none => (body, none)
  match l.switches.find? fun s => s.word == String.ofList name, value with
  | none, _ => .error .usage
  | some s, none => if s.hasValue then .ok (g, some s) else (g.set s "").map (·, none)
  | some s, some value => if s.hasValue then (g.set s value).map (·, none) else .error .usage

/-- Takes letters of options, without their dash. The letters after one that has a value are its
value. -/
def takeLetters (l : Level) (g : Given) : List Char → Except Refusal (Given × Option Switch)
  | [] => .ok (g, none)
  | c :: r =>
    match l.switches.find? (·.letter == c) with
    | none => .error .usage
    | some s =>
      if s.hasValue then
        match r with
        | [] => .ok (g, some s)
        | '=' :: value => (g.set s (String.ofList value)).map (·, none)
        | value => (g.set s (String.ofList value)).map (·, none)
      else do takeLetters l (← g.set s "") r

/-- Takes the arguments of a level. Gives what was given on it and, for the outer level, the
arguments from the command on. -/
def takeAll (l : Level) (g : Given) (awaited : Option Switch) :
    List String → Except Refusal (Given × List String)
  | [] => if awaited.isSome then .error .usage else .ok (g, [])
  | a :: rest =>
    match a.toList, awaited with
    | ['-', '-'], none => do
      let g ← rest.foldlM (Given.setFile l) g
      return (g, [])
    | '-' :: '-' :: body, none => do
      let (g, awaited) ← takeWord l g body
      takeAll l g awaited rest
    | '-' :: c :: body, none => do
      let (g, awaited) ← takeLetters l g (c :: body)
      takeAll l g awaited rest
    | '-' :: _ :: _, some _ => .error .usage
    | _, some s => do takeAll l (← g.set s a) none rest
    | _, none =>
      if l = .outer then .ok (g, a :: rest)
      else do takeAll l (← g.setFile l a) none rest

/-- The command that a level's arguments make. -/
def commandOf (l : Level) (g : Given) : Except Refusal Command :=
  match l, g.file with
  | .validate, some file => .ok (.validate file (g.switches.lookup .json).isSome)
  | .render, some file =>
    let format := ((g.switches.lookup .format).bind RenderFormat.ofWord?).getD .text
    .ok (.render file format (g.switches.lookup .output))
  | .versions, _ => .ok .versions
  | _, _ => .error .usage

/-- Help can be asked for on these words after `help`. -/
def isHelpTopic : List String → Bool
  | [] => true
  | [name] => name == "help" || (Level.ofCommand? name).isSome
  | _ => false

/-- The request that arguments make. -/
def Request.ofArguments (args : List String) : Except Refusal Request := do
  match ← takeAll .outer {} none args with
  | (_, []) => throw .usage
  | (outer, name :: rest) =>
    match Level.ofCommand? name with
    | none => throw (if name = "help" && isHelpTopic rest then .help else .usage)
    | some l =>
      let (inner, _) ← takeAll l {} none rest
      let command ← commandOf l inner
      return ⟨(inner.switches.lookup .config).or (outer.switches.lookup .config), command⟩

end DiscoveryMetadata.CommandLine
