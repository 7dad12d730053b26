import SchemaReconcile.Text.Quoted

/-!
# File paths

A path is a root and the names that follow it.  Empty names and single points are left out; two points
stay, since what stands above a name depends on the files.
-/

namespace SchemaReconcile.File

/-- A path. -/
structure Path where
  /-- The slashes that an absolute path starts with. -/
  root : String := ""
  names : List String := []
  deriving DecidableEq, Repr, Inhabited

namespace Path

/-- The slashes that a path starts with: none, one, or exactly two. -/
def rootOf : List Char → String
  | '/' :: '/' :: '/' :: _ => "/"
  | '/' :: '/' :: _ => "//"
  | '/' :: _ => "/"
  | _ => ""

/-- The parts of a text between slashes. -/
def segments : List Char → List Char → List (List Char)
  | current, [] => [current.reverse]
  | current, '/' :: rest => current.reverse :: segments [] rest
  | current, c :: rest => segments (c :: current) rest

/-- The path of a text. -/
def ofText (s : String) : Path where
  root := rootOf s.toList
  names := ((segments [] s.toList).filter fun n => n != [] && n != ['.']).map String.ofList

/-- The text of a path; the path without names is a point. -/
def text (p : Path) : String :=
  let body := p.root ++ "/".intercalate p.names
  if body.isEmpty then "." else body

/-- A path with one more name. -/
def child (p : Path) (name : String) : Path := { p with names := p.names ++ [name] }

/-- A path without its last name. -/
def parent (p : Path) : Path := { p with names := p.names.dropLast }

/-- The last name of a path. -/
def name (p : Path) : String := p.names.getLast?.getD ""

/-- The end of a name from its last point on, if something stands before the point and after it. -/
def suffixOf (name : List Char) : List Char :=
  let after := (name.reverse.takeWhile (· != '.')).reverse
  let before := name.length - after.length
  if after.isEmpty || before < 2 then [] else '.' :: after

/-- The suffix of a path. -/
def suffix (p : Path) : String := String.ofList (suffixOf p.name.toList)

/-- Whether a path has a character that no file name has. -/
def hasNul (p : Path) : Bool := p.names.any fun n => n.toList.contains (Char.ofNat 0)

end Path

end SchemaReconcile.File
