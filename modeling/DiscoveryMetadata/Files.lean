/-
  Files that can be read: a path either has a text or a reason why it has none.

  A tree of text files, such as a directory that was filled beforehand, is seen as files by
  resolving paths against it.
-/
namespace DiscoveryMetadata

/-- What reading each path gives: a text, or the reason why there is none. -/
abbrev Files := String → Except String String

namespace Files

/-- The reason given for a path at which nothing lies. -/
def missing : String := "No such file or directory (os error 2)"

/-- The reason given for a path that leads through a text file. -/
def notDirectory : String := "Not a directory (os error 20)"

/-- The reason given for a path at which a directory lies. -/
def isDirectory : String := "Is a directory (os error 21)"

/-- No files at all. -/
def none : Files := fun _ => .error missing

/-- One path below another. -/
def join (dir name : String) : String :=
  if name.toList.head? == some '/' || dir.isEmpty then name
  else if dir.toList.getLast? == some '/' then dir ++ name
  else dir ++ "/" ++ name

/-- The names on a path, without those that lead nowhere. A path from the top of all directories
begins with an empty name. -/
def steps (path : String) : List String :=
  let names := (path.splitOn "/").filter fun s => s != "" && s != "."
  if path.toList.head? == some '/' then "" :: names else names

/-- The last part of the file name that a path ends with, from its last point on; a name that only
begins with a point has none. -/
def extension? (path : String) : Option String :=
  match (steps path).getLast? with
  | Option.none => Option.none
  | some name =>
    let ending := (name.toList.reverse.takeWhile (· != '.')).reverse
    let stem := name.toList.take (name.length - ending.length - 1)
    if name == ".." || stem.isEmpty || ending.length == name.length then Option.none
    else some (String.ofList ending)

/-- The reading of a path in a tree of text files. -/
def ofTree (tree : List (String × String)) : Files := fun path =>
  let wanted := steps path
  let found := tree.find? fun (p, _) => steps p == wanted
  if path.isEmpty then .error missing
  else match found with
    | some (_, text) =>
      if path.toList.getLast? == some '/' then .error notDirectory else .ok text
    | Option.none =>
      if tree.any fun (p, _) => (steps p).isPrefixOf wanted then .error notDirectory
      else if tree.any fun (p, _) => wanted.isPrefixOf (steps p) then .error isDirectory
      else .error missing

end Files

end DiscoveryMetadata
