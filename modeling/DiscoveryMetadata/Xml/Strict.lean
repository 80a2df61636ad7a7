import DiscoveryMetadata.Text.Basic
import DiscoveryMetadata.Text.Escape
import DiscoveryMetadata.Xml.Element
/-
  The strict reader, for reports and vocabularies: a document must be well formed with regard to
  namespaces and may have no document type. Comments and instructions are kept as nodes, because
  they separate pieces of text.
-/
namespace DiscoveryMetadata.Xml

/-- A node of a well-formed document. -/
inductive Node where
  | element (name : QName) (attributes : List Attribute) (children : List Node)
  | text (content : String)
  /-- A comment or a processing instruction. -/
  | remark
  deriving Inhabited

namespace Node

/-- The name of an element. -/
def name? : Node → Option QName
  | element n _ _ => some n
  | _ => none

/-- The nodes directly inside. -/
def children : Node → List Node
  | element _ _ c => c
  | _ => []

/-- The value of an attribute in no namespace. -/
def attribute? (name : String) : Node → Option String
  | element _ as _ => (as.find? fun a => a.name == .unqualified name).map (·.value)
  | _ => none

/-- The text that an element begins with. -/
def leadingText : Node → String
  | element _ _ (text t :: _) => t
  | _ => ""

mutual
/-- The node and all nodes inside it, in document order. -/
def all : Node → List Node
  | element n a c => element n a c :: allOf c
  | x => [x]

/-- The nodes and all inside them, in document order. -/
def allOf : List Node → List Node
  | [] => []
  | x :: r => x.all ++ allOf r
end

end Node

namespace Strict

open Text (isXmlSpace)

/-- A character that may stand in a document. -/
def isChar (c : Char) : Bool :=
  0x20 ≤ c.toNat && c.toNat != 0xFFFE && c.toNat != 0xFFFF || c == '\t' || c == '\n' || c == '\r'

/-- A character that can begin a name. -/
def isNameStart (c : Char) : Bool :=
  let n := c.toNat
  c.isAlpha || c == '_' || (0xC0 ≤ n && n ≤ 0xD6) || (0xD8 ≤ n && n ≤ 0xF6) ||
    (0xF8 ≤ n && n ≤ 0x2FF) || (0x370 ≤ n && n ≤ 0x37D) || (0x37F ≤ n && n ≤ 0x1FFF) ||
    n == 0x200C || n == 0x200D || (0x2070 ≤ n && n ≤ 0x218F) || (0x2C00 ≤ n && n ≤ 0x2FEF) ||
    (0x3001 ≤ n && n ≤ 0xD7FF) || (0xF900 ≤ n && n ≤ 0xFDCF) || (0xFDF0 ≤ n && n ≤ 0xFFFD) ||
    (0x10000 ≤ n && n ≤ 0xEFFFF)

/-- A character that can stand inside a name. -/
def isNamePart (c : Char) : Bool :=
  let n := c.toNat
  isNameStart c || c.isDigit || c == '-' || c == '.' || n == 0xB7 || (0x300 ≤ n && n ≤ 0x36F) ||
    n == 0x203F || n == 0x2040

/-- The rest of a text after the given beginning. -/
def after? : List Char → List Char → Option (List Char)
  | [], cs => some cs
  | _ :: _, [] => none
  | w :: ws, c :: cs => if w = c then after? ws cs else none

/-- The text up to the first place where `mark` stands, and what follows the mark. -/
def upTo? (mark : List Char) : List Char → Option (List Char × List Char)
  | [] => if mark.isEmpty then some ([], []) else none
  | c :: r =>
    match after? mark (c :: r) with
    | some rest => some ([], rest)
    | none => (upTo? mark r).map fun (a, b) => (c :: a, b)

/-- A name without a colon, and what follows it. -/
def ncName? : List Char → Option (List Char × List Char)
  | [] => none
  | c :: r =>
    if isNameStart c then some (c :: r.takeWhile isNamePart, r.dropWhile isNamePart) else none

/-- A name with an optional prefix, and what follows it. -/
def qName? (cs : List Char) : Option (Option String × String × List Char) :=
  match ncName? cs with
  | none => none
  | some (a, ':' :: r) =>
    (ncName? r).map fun (b, r) => (some (String.ofList a), String.ofList b, r)
  | some (a, r) => some (none, String.ofList a, r)

/-- The text with each end of line written as a single line feed. -/
def unifyLines : List Char → List Char
  | '\r' :: '\n' :: r => '\n' :: unifyLines r
  | '\r' :: r => '\n' :: unifyLines r
  | c :: r => c :: unifyLines r
  | [] => []

/-- Replaces the references; what they stand for must be allowed in a document. -/
def dereference : Option (List Char) → List Char → Option (List Char)
  | none, [] => some []
  | some _, [] => none
  | none, c :: r =>
    if c = '&' then dereference (some []) r else (dereference none r).map (c :: ·)
  | some pending, c :: r =>
    if c = ';' then
      ((Text.referent? pending.reverse).filter isChar).bind fun x =>
        (dereference none r).map (x :: ·)
    else if c = '&' then none
    else dereference (some (c :: pending)) r

/-- The value of an attribute, given as it is written: line ends and tabs count as blanks. -/
def attributeValue? (raw : List Char) : Option String :=
  if raw.contains '<' || !raw.all isChar then none
  else
    let blanked := (unifyLines raw).map fun c => if isXmlSpace c then ' ' else c
    (dereference none blanked).map String.ofList

/-- The text between two tags, given as it is written. -/
def textValue? (raw : List Char) : Option (List Char) :=
  if (upTo? "]]>".toList raw).isSome || !raw.all isChar then none
  else dereference none (unifyLines raw)

/-- An attribute as it is written: prefix, local name and value. -/
abbrev Written := Option String × String × String

/-- Reads attributes up to the end of a tag. Gives them, whether the tag is empty, and the rest.
Blanks must separate them. -/
def attributes? : Nat → List Char → Option (List Written × Bool × List Char)
  | 0, _ => none
  | fuel + 1, cs =>
    match cs.dropWhile isXmlSpace with
    | '>' :: r => some ([], false, r)
    | '/' :: '>' :: r => some ([], true, r)
    | rest =>
      if rest.length = cs.length then none
      else
        match qName? rest with
        | none => none
        | some (p, l, r) =>
          match r.dropWhile isXmlSpace with
          | '=' :: r =>
            match r.dropWhile isXmlSpace with
            | q :: r =>
              if q != '"' && q != '\'' then none
              else
                match upTo? [q] r with
                | none => none
                | some (raw, r) =>
                  match attributeValue? raw, attributes? fuel r with
                  | some v, some (as, closed, r) => some ((p, l, v) :: as, closed, r)
                  | _, _ => none
            | [] => none
          | _ => none

/-- Adds the namespace declarations among the attributes to a scope. The prefixes `xml` and
`xmlns` cannot be given another meaning, and none can be taken back. -/
def declare? (outer : Scope) (as : List Written) : Option Scope :=
  let xmlnsUri := "http://www.w3.org/2000/xmlns/"
  as.foldlM (fun s (p, l, v) =>
    if p = some "xmlns" then
      if l = "xmlns" || v = xmlnsUri || v = "" then none
      else if (l = "xml") != (v = xmlNamespace) then none
      else some (s.bind l v)
    else if p = none && l = "xmlns" then
      if v = xmlNamespace || v = xmlnsUri then none else some (s.withDefault v)
    else some s) outer

/-- The namespace of a prefix that a name is written with. -/
def namespace? (s : Scope) (unprefixed : Option String) : Option String → Option (Option String)
  | none => some (unprefixed.filter (· != ""))
  | some p => (s.lookup p).map some

/-- The attributes that are no declarations, with their names resolved; no two may have the same
name. -/
def plain? (s : Scope) (as : List Written) : Option (List Attribute) :=
  let others := as.filter fun (p, l, _) => p != some "xmlns" && !(p == none && l == "xmlns")
  let resolved := others.mapM fun (p, l, v) =>
    (namespace? s none p).map fun u => (⟨⟨u, l, p⟩, v⟩ : Attribute)
  resolved.bind fun rs =>
    let names := rs.map fun a => (a.name.uri, a.name.localName)
    let declarations := as.filter fun (p, l, _) => p == some "xmlns" || (p == none && l == "xmlns")
    let declared := declarations.map fun (p, l, _) => (p, l)
    if names.eraseDups.length = names.length && declared.eraseDups.length = declared.length then
      some rs
    else none

/-- Reads to the end of a comment, from after its beginning. -/
def comment? (cs : List Char) : Option (List Char) :=
  match upTo? "--".toList cs with
  | some (body, '>' :: r) => if body.all isChar then some r else none
  | _ => none

/-- Reads to the end of an instruction, from after its beginning. -/
def instruction? (cs : List Char) : Option (List Char) :=
  match ncName? cs with
  | none => none
  | some (target, r) =>
    if target.map Char.toLower = "xml".toList then none
    else
      match upTo? "?>".toList r with
      | some (body, rest) =>
        if body.all isChar && (body.isEmpty || body.head?.any isXmlSpace) then some rest else none
      | none => none

/-- Adds text before the nodes, joining it with text that they begin with. -/
def prependText (cs : List Char) : List Node → List Node
  | .text t :: r => .text (String.ofList cs ++ t) :: r
  | r => if cs.isEmpty then r else .text (String.ofList cs) :: r

mutual
/-- Reads an element from after its `<`. -/
def element? : Nat → Scope → List Char → Option (Node × List Char)
  | 0, _, _ => none
  | fuel + 1, outer, cs =>
    match qName? cs with
    | none => none
    | some (p, l, r) =>
      match attributes? fuel r with
      | none => none
      | some (as, closed, r) =>
        match declare? outer as with
        | none => none
        | some scope =>
          if p = some "xmlns" then none
          else
            match namespace? scope scope.defaultUri p, plain? scope as with
            | some uri, some plain =>
              let name : QName := ⟨uri, l, p⟩
              if closed then some (.element name plain [], r)
              else
                match content? fuel scope r with
                | none => none
                | some (nodes, r) =>
                  match qName? r with
                  | some (p2, l2, r) =>
                    match r.dropWhile isXmlSpace with
                    | '>' :: r =>
                      if p2 = p && l2 = l then some (.element name plain nodes, r) else none
                    | _ => none
                  | none => none
            | _, _ => none

/-- Reads what an element holds, up to and with the `</` that ends it. -/
def content? : Nat → Scope → List Char → Option (List Node × List Char)
  | 0, _, _ => none
  | fuel + 1, scope, cs =>
    match cs with
    | [] => none
    | '<' :: '/' :: r => some ([], r)
    | '<' :: '!' :: '-' :: '-' :: r =>
      (comment? r).bind fun r => (content? fuel scope r).map fun (ns, r) => (.remark :: ns, r)
    | '<' :: '!' :: r =>
      match after? "[CDATA[".toList r with
      | none => none
      | some r =>
        match upTo? "]]>".toList r with
        | none => none
        | some (body, r) =>
          if !body.all isChar then none
          else (content? fuel scope r).map fun (ns, r) => (prependText (unifyLines body) ns, r)
    | '<' :: '?' :: r =>
      (instruction? r).bind fun r => (content? fuel scope r).map fun (ns, r) => (.remark :: ns, r)
    | '<' :: r =>
      match element? fuel scope r with
      | none => none
      | some (n, r) => (content? fuel scope r).map fun (ns, r) => (n :: ns, r)
    | cs =>
      match textValue? (cs.takeWhile (· != '<')) with
      | none => none
      | some t =>
        (content? fuel scope (cs.dropWhile (· != '<'))).map fun (ns, r) => (prependText t ns, r)
end

/-- Passes over blanks, comments and instructions. -/
def skipMisc : Nat → List Char → Option (List Char)
  | 0, _ => none
  | fuel + 1, cs =>
    match cs.dropWhile isXmlSpace with
    | '<' :: '!' :: '-' :: '-' :: r => (comment? r).bind (skipMisc fuel)
    | '<' :: '?' :: r => (instruction? r).bind (skipMisc fuel)
    | r => some r

/-- One quoted part of the declaration at the head of a document, if it is there. -/
def headPart? (name : String) (cs : List Char) : Option (Option (List Char) × List Char) :=
  match after? name.toList (cs.dropWhile isXmlSpace) with
  | none => some (none, cs)
  | some r =>
    if (cs.dropWhile isXmlSpace).length = cs.length then none
    else
      match r.dropWhile isXmlSpace with
      | '=' :: r =>
        match r.dropWhile isXmlSpace with
        | q :: r =>
          if q != '"' && q != '\'' then none
          else (upTo? [q] r).map fun (v, r) => (some v, r)
        | [] => none
      | _ => none

/-- Passes over the declaration at the head of a document: a version and, if wanted, an encoding
and a statement on outside declarations. -/
def skipHead (cs : List Char) : Option (List Char) :=
  match after? "<?xml".toList cs with
  | some (c :: r) =>
    if !isXmlSpace c then some cs
    else
      match headPart? "version" (c :: r) with
      | some (some v, r) =>
        if v.take 2 != ['1', '.'] then none
        else
          match headPart? "encoding" r with
          | none => none
          | some (_, r) =>
            match headPart? "standalone" r with
            | none => none
            | some (s, r) =>
              if s.all fun v => v = "yes".toList || v = "no".toList then
                after? "?>".toList (r.dropWhile isXmlSpace)
              else none
      | _ => none
  | _ => some cs

end Strict

/-- The root of a well-formed document. Each step reads at least one character or ends a level, so
twice the length of the text bounds the steps. -/
def Node.ofXml? (xml : String) : Option Node :=
  let cs := match xml.toList with
    | '\ufeff' :: r => r
    | cs => cs
  let fuel := 2 * cs.length + 8
  match (Strict.skipHead cs).bind (Strict.skipMisc fuel) with
  | some ('<' :: r) =>
    match Strict.element? fuel .empty r with
    | none => none
    | some (n, r) =>
      match Strict.skipMisc fuel r with
      | some [] => some n
      | _ => none
  | _ => none

end DiscoveryMetadata.Xml
