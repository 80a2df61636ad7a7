import DiscoveryMetadata.Fault
import DiscoveryMetadata.Uri.Address
import DiscoveryMetadata.Uri.Domain
/-
  References to resources on the web.

  A text without a scheme is a relative reference and is accepted. With a scheme, the host and the
  port must be right: always for the schemes of the web, and for any other scheme where two slashes
  announce a host.
-/
namespace DiscoveryMetadata.Uri

/-- What is wrong with a reference. -/
inductive Defect where
  | illegalCharacter (c : Char)
  | emptyHost
  | invalidDomain
  | invalidHostCharacter
  | invalidIPv4
  | invalidIPv6
  | invalidPort
  deriving DecidableEq, Repr

namespace Defect

/-- The words for a defect. -/
def words : Defect → String
  | illegalCharacter c => s!"Illegal character '{c}'"
  | emptyHost => "empty host"
  | invalidDomain => "invalid international domain name"
  | invalidHostCharacter => "invalid domain character"
  | invalidIPv4 => "invalid IPv4 address"
  | invalidIPv6 => "invalid IPv6 address"
  | invalidPort => "invalid port number"

end Defect

/-- A character that no reference may hold. -/
def isIllegal (c : Char) : Bool := Text.isSpace c || "<>\"\x7b\x7d|\\^`".toList.contains c

/-- How the rest of a reference is read. -/
inductive SchemeKind where
  /-- A scheme of the web, which needs a host. -/
  | web
  | file
  | other
  deriving DecidableEq

/-- The kind of a scheme, given in lower case. -/
def SchemeKind.of (scheme : String) : SchemeKind :=
  if ["http", "https", "ws", "wss", "ftp"].contains scheme then .web
  else if scheme = "file" then .file
  else .other

/-- The scheme of a reference and what follows its colon. -/
def scheme? (cs : List Char) : Option (String × List Char) :=
  let inScheme := fun (c : Char) => c.isAlphanum || c == '+' || c == '-' || c == '.'
  match cs.head?, cs.dropWhile inScheme with
  | some c, ':' :: rest =>
    if c.isAlpha then some (String.ofList ((cs.takeWhile inScheme).map Char.toLower), rest)
    else none
  | _, _ => none

/-- The character ends the part of a reference that names a host. -/
def endsAuthority (k : SchemeKind) (c : Char) : Bool :=
  c == '/' || c == '?' || c == '#' || (c == '\\' && k != .other)

/-- The reading of a host in square brackets, given with them. -/
def bracketed (host : List Char) : Except Defect Unit :=
  if host.getLast? = some ']' && IPv6.isAddress (host.drop 1).dropLast then .ok ()
  else .error .invalidIPv6

/-- Checks the host of a web or file reference. -/
def checkHost (host : List Char) : Except Defect Unit :=
  if host.head? = some '[' then bracketed host
  else
    match Domain.ofHost? host with
    | none => .error .invalidDomain
    | some domain =>
      if domain.isEmpty then .error .emptyHost
      else if IPv4.endsInNumber domain && !IPv4.isAddress domain then .error .invalidIPv4
      else .ok ()

/-- Checks the host of a reference with any other scheme. -/
def checkOpaqueHost (host : List Char) : Except Defect Unit :=
  if host.head? = some '[' then bracketed host
  else if host.any fun c => "\x00\t\n\r #/:<>?@[\\]^|".toList.contains c then
    .error .invalidHostCharacter
  else .ok ()

/-- Splits off the host, which ends at a colon outside square brackets. -/
def splitHost (k : SchemeKind) : Bool → List Char → List Char × List Char
  | _, [] => ([], [])
  | inside, c :: r =>
    if (c = ':' && !inside) || endsAuthority k c then ([], c :: r)
    else
      let inside := if c = '[' then true else if c = ']' then false else inside
      let (a, b) := splitHost k inside r
      (c :: a, b)

/-- Checks the digits of a port, up to the end of the authority. -/
def checkPort (cs : List Char) : Except Defect Unit :=
  let digits := cs.takeWhile Char.isDigit
  let value : Nat := digits.foldl (fun n c => n * 10 + (c.toNat - 48)) 0
  let after := (cs.dropWhile Char.isDigit).head?
  if 65535 < value then .error .invalidPort
  else if after.any fun c => !(c == '/' || c == '\\' || c == '?' || c == '#') then
    .error .invalidPort
  else .ok ()

/-- What stands before the last `@` of an authority, if there is one, and what follows it. -/
def splitUser (k : SchemeKind) (cs : List Char) : Option (List Char) × List Char :=
  let authority := cs.takeWhile (!endsAuthority k ·)
  let rest := cs.dropWhile (!endsAuthority k ·)
  if authority.contains '@' then
    let host := (authority.reverse.takeWhile (· != '@')).reverse
    (some (authority.take (authority.length - host.length - 1)), host ++ rest)
  else (none, cs)

/-- Checks what follows the two slashes before an authority. -/
def checkAuthority (k : SchemeKind) (cs : List Char) : Except Defect Unit := do
  let (user, rest) := splitUser k cs
  if user == some [] && rest.head?.any (endsAuthority k) then throw .emptyHost
  let (host, rest) := splitHost k false rest
  match k with
  | .other => checkOpaqueHost host
  | _ => if host.isEmpty then throw .emptyHost else checkHost host
  let named := user.any fun u => u != [] && u != [':']
  if host.isEmpty && (named || rest.head? == some ':') then throw .emptyHost
  match rest with
  | ':' :: port => checkPort port
  | _ => return ()

/-- Checks what follows `file:`; two slashes announce a host, unless a drive letter follows. -/
def checkFile (cs : List Char) : Except Defect Unit :=
  let slash := fun c => c == '/' || c == '\\'
  match cs with
  | a :: b :: r =>
    if slash a && slash b then
      let host := r.takeWhile fun c => !(endsAuthority .file c)
      let isDrive := match host with
        | [c, d] => c.isAlpha && (d == ':' || d == '|')
        | _ => false
      if host.isEmpty || isDrive then .ok () else checkHost host
    else .ok ()
  | _ => .ok ()

/-- Finds the defect of a reference, if it has one. -/
def inspect (text : String) : Except Defect Unit :=
  match text.toList.find? isIllegal with
  | some c => .error (.illegalCharacter c)
  | none =>
    match scheme? (Text.strip (fun c => c.toNat ≤ 0x20) text.toList) with
    | none => .ok ()
    | some (scheme, rest) =>
      match SchemeKind.of scheme, rest with
      | .web, rest => checkAuthority .web (rest.dropWhile fun c => c == '/' || c == '\\')
      | .file, rest => checkFile rest
      | .other, '/' :: '/' :: rest => checkAuthority .other rest
      | .other, _ => .ok ()

/-- Refuses a text that is no reference. -/
def check (text : String) : Outcome Unit :=
  match inspect text with
  | .ok () => .ok ()
  | .error d => .error (.rule s!"Invalid URI ({d.words}): {text}")

end DiscoveryMetadata.Uri
