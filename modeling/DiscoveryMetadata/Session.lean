import DiscoveryMetadata.Configuration
import DiscoveryMetadata.Finding
import DiscoveryMetadata.Vocabulary.Standard
/-
  What reading and building depend on besides their input.

  A session holds the installed configuration, the current version and the vocabularies that were
  loaded for that configuration. A context is what one operation sees of a session.
-/
namespace DiscoveryMetadata

/-- What one operation sees: the prefixes to write, whether vocabularies bind, the vocabularies,
or the reason why they cannot be had, and the version to assume where none is given. -/
structure Context where
  prefixes : Prefixes := {}
  strict : Bool := true
  vocabulary : Outcome Vocabulary := .ok .standard
  current : Version := .latest

namespace Context

/-- The token belongs to the vocabulary of the key. -/
def knows (ctx : Context) (key token : String) (v : Version) : Outcome Bool := do
  let voc ← ctx.vocabulary
  voc.contains key token v

/-- What is said of a token outside its vocabulary. -/
def outside (key token : String) : String :=
  s!"{token} is not a valid enumeration token for this attribute, as specified in {key}."

/-- Checks a token: outside its vocabulary it is a fault, or a warning where vocabularies do not
bind. -/
def checkToken (ctx : Context) (key token : String) (v : Version) : Outcome (Option Finding) := do
  if ← ctx.knows key token v then return none
  else if ctx.strict then throw (.rule (outside key token))
  else return some (.warning (outside key token) "")

/-- Checks tokens one after the other and gives the warnings. -/
def checkTokens (ctx : Context) (key : String) (v : Version) (tokens : List String) :
    Outcome (List Finding) := do
  return (← tokens.mapM fun t => ctx.checkToken key t v).filterMap id

end Context

/-- What is installed, and what was loaded for it. -/
structure Session where
  configuration : Configuration := {}
  current : Version := .latest
  loaded : Option Vocabulary := none

namespace Session

/-- An operation on a session. What it changed before it refuses stays changed. -/
abbrev Operation (α : Type) := EStateM Fault Session α

namespace Operation

/-- The step that gives a value or refuses, and changes nothing. -/
def ofOutcome {α : Type} : Outcome α → Operation α
  | .ok a => pure a
  | .error f => throw f

/-- What the operation answers, and the session after it. -/
def perform {α : Type} (op : Operation α) (s : Session) : Outcome α × Session :=
  match op s with
  | .ok a s => (.ok a, s)
  | .error f s => (.error f, s)

end Operation

/-- Loads the vocabularies that a configuration names. -/
def loadFor (files : Files) (c : Configuration) : Outcome Vocabulary :=
  match c.vocabularyLocation with
  | some dir => Vocabulary.load files dir
  | none => .ok .standard

/-- Forgets the vocabularies, so that they are loaded again when they are needed. -/
def forget (s : Session) : Session := { s with loaded := none }

/-- Gives the vocabularies, which are loaded unless they were before. -/
def lookUp (files : Files) : Operation Vocabulary := do
  match (← get).loaded with
  | some voc => return voc
  | none =>
    let voc ← .ofOutcome (loadFor files (← get).configuration)
    modify fun s => { s with loaded := some voc }
    return voc

/-- Makes the version with this number the current one. -/
def select (number : String) : Operation Version := do
  let version ← .ofOutcome (Version.ofText number)
  modify fun s => { s with current := version }
  return version

/-- Installs a configuration piece by piece: its default version becomes the current one, it takes
the place of the one before, and what was loaded for that one is forgotten. -/
def adopt (c : Configuration) : Operation Unit := do
  let _ ← .ofOutcome c.check
  let _ ← select c.defaultVersion
  modify fun s => { s with configuration := c }
  modify forget

/-- The vocabularies, and the session after looking. -/
def vocabulary (files : Files) (s : Session) : Outcome Vocabulary × Session :=
  (lookUp files).perform s

/-- The session in which the configuration is installed. -/
def install (s : Session) (c : Configuration) : Outcome Session :=
  let (answer, after) := (adopt c).perform s
  answer.map fun _ => after

/-- The session in which the version with this number is the current one. -/
def setCurrent (s : Session) (number : String) : Outcome Session :=
  let (answer, after) := (select number).perform s
  answer.map fun _ => after

/-- What the next operation sees, and the session after looking. -/
def context (files : Files) (s : Session) : Context × Session :=
  let (voc, after) := s.vocabulary files
  ({ prefixes := s.configuration.prefixes
     strict := s.configuration.strict
     vocabulary := voc
     current := s.current }, after)

end Session

end DiscoveryMetadata
