import DiscoveryMetadata.Text.Escape
/-
  Network addresses in a host: four numbers between points, and eight groups of hexadecimal digits
  between colons.
-/
namespace DiscoveryMetadata.Uri

namespace IPv4

/-- The number that a part of an address writes: hexadecimal behind `0x`, octal behind `0`, else
decimal. -/
def part? : List Char → Option Nat
  | [] => none
  | '0' :: 'x' :: r | '0' :: 'X' :: r => Text.number? 16 r.length r
  | '0' :: c :: r =>
    if (c :: r).all fun x => '0' ≤ x && x ≤ '7' then
      some ((c :: r).foldl (fun n x => n * 8 + (x.toNat - 48)) 0)
    else none
  | cs => Text.number? 10 cs.length cs

/-- The parts of a domain, without an empty one at the end. -/
def parts (domain : List Char) : List (List Char) :=
  let ps := domain.splitOn '.'
  if ps.getLast? = some [] then ps.dropLast else ps

/-- The last part of the domain writes a number, so that the domain must be an address. -/
def endsInNumber (domain : List Char) : Bool :=
  match (parts domain).getLast? with
  | some last => (!last.isEmpty && last.all Char.isDigit) || (part? last).isSome
  | none => false

/-- The domain is an address: at most four numbers, of which all but the last are below 256 and
the last fills the rest of 32 bits. -/
def isAddress (domain : List Char) : Bool :=
  let ps := parts domain
  match ps.mapM part? with
  | none => false
  | some ns =>
    match ns.getLast? with
    | none => false
    | some last =>
      ps.length ≤ 4 && last < Nat.pow 256 (5 - ns.length) && ns.dropLast.all (· < 256)

end IPv4

namespace IPv6

/-- The text ends in an address of four numbers; each is below 256 and begins with zero only if it
is zero. -/
def isTail (cs : List Char) : Bool :=
  let ps := cs.splitOn '.'
  ps.length == 4 && ps.all fun p =>
    !p.isEmpty && p.length ≤ 3 && p.all Char.isDigit && (p.length == 1 || p.head? != some '0') &&
      p.foldl (fun n c => n * 10 + (c.toNat - 48)) 0 < 256

/-- The longest beginning of at most `n` hexadecimal digits, and what follows it. -/
def hexRun : Nat → List Char → List Char × List Char
  | n + 1, c :: r =>
    if (Text.digitValue? 16 c).isSome then
      let (a, b) := hexRun n r
      (c :: a, b)
    else ([], c :: r)
  | _, cs => ([], cs)

/-- Reads groups where `count` of the eight are filled and `compressed` says whether a double colon
was seen. -/
def groups : Nat → Nat → Bool → List Char → Bool
  | 0, _, _, _ => false
  | _ + 1, count, compressed, [] => count == 8 || compressed
  | fuel + 1, count, compressed, c :: r =>
    if count = 8 then false
    else if c = ':' then !compressed && groups fuel (count + 1) true r
    else
      let (run, rest) := hexRun 4 (c :: r)
      match rest with
      | [] => groups fuel (count + 1) compressed []
      | ':' :: rest => !rest.isEmpty && groups fuel (count + 1) compressed rest
      | '.' :: _ =>
        !run.isEmpty && count ≤ 6 && isTail (c :: r) && (count + 2 == 8 || compressed)
      | _ => false

/-- The text is an address of eight groups; a double colon stands for groups left out. -/
def isAddress (cs : List Char) : Bool :=
  match cs with
  | ':' :: ':' :: r => groups (r.length + 2) 1 true r
  | ':' :: _ | [] | [_] => false
  | cs => groups (cs.length + 2) 0 false cs

end IPv6

end DiscoveryMetadata.Uri
