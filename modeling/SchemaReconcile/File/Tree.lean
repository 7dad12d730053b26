import SchemaReconcile.File.Path

/-!
# File trees

A tree holds files and directories by their places, which are lists of names below the working directory.
Paths are followed name by name: each name but the last must be a directory, and two points lead to the
place above.  What lies outside the working directory is taken to be empty directories.
-/

namespace SchemaReconcile.File

/-- A place below the working directory; a place outside of it starts with a mark. -/
abbrev Place := List String

/-- What stands at a place. -/
inductive Node where
  | file (bytes : List UInt8)
  | directory
  deriving DecidableEq, Repr, Inhabited

/-- Files and directories by their places; the working directory itself is not listed. -/
abbrev Tree := List (Place × Node)

/-- Why a path cannot be used. -/
inductive FaultKind where
  | missing
  | exists_
  | notDirectory
  | isDirectory
  | nameTooLong
  /-- The path has a character that no file name has. -/
  | nulCharacter
  deriving DecidableEq, Repr, Inhabited

/-- The system's number and wording of a fault. -/
def FaultKind.wording : FaultKind → String
  | missing => "[Errno 2] No such file or directory"
  | exists_ => "[Errno 17] File exists"
  | notDirectory => "[Errno 20] Not a directory"
  | isDirectory => "[Errno 21] Is a directory"
  | nameTooLong => "[Errno 36] File name too long"
  | nulCharacter => "embedded null byte"

/-- Why a path cannot be used, and how the path is shown. -/
structure Fault where
  kind : FaultKind
  shown : String
  deriving DecidableEq, Repr, Inhabited

/-- The wording of a fault. -/
def Fault.message (f : Fault) : String :=
  match f.kind with
  | .nulCharacter => f.kind.wording
  | kind => kind.wording ++ ": " ++ f.shown

/-- A fault about a path. -/
def faultAt (kind : FaultKind) (p : Path) : Fault := ⟨kind, Text.quoted p.text⟩

namespace Tree

/-- The mark of the place above, which no name is. -/
def up : String := ".."

/-- The mark of the place that absolute paths start from, which no name is. -/
def top : String := "/"

/-- Whether a place starts with a mark, so that it lies outside the working directory. -/
def isOutside (place : Place) : Bool :=
  match place with
  | [] => false
  | name :: _ => name == up || name == top

/-- Whether a place has no names. -/
def isBare (place : Place) : Bool := place == [top] || place.all (· == up)

/-- The node at a place. -/
def node? (t : Tree) (place : Place) : Option Node :=
  if isBare place then some .directory else t.lookup place

/-- The place above a place. -/
def above (place : Place) : Place :=
  if place == [top] then place else if isBare place then up :: place else place.dropLast

/-- The number of bytes that a name may have. -/
def maxNameBytes : Nat := 255

/-- The place that a name leads to from a directory. -/
def step (place : Place) (name : String) : Except FaultKind Place :=
  if name == up then .ok (above place)
  else if maxNameBytes < name.utf8ByteSize then .error .nameTooLong
  else .ok (place ++ [name])

/-- The place that names lead to; each place on the way must be a directory. -/
def follow (t : Tree) : Place → List String → Except FaultKind Place
  | place, [] => .ok place
  | place, name :: rest =>
    match t.node? place with
    | none => .error .missing
    | some (.file _) => .error .notDirectory
    | some .directory =>
      match step place name with
      | .error kind => .error kind
      | .ok place => follow t place rest

/-- Where a path starts. -/
def start (p : Path) : Place := if p.root.isEmpty then [] else [top]

/-- The place of a path. -/
def place (t : Tree) (p : Path) : Except FaultKind Place :=
  if p.hasNul then .error .nulCharacter else t.follow (start p) p.names

/-- The node of a path. -/
def find (t : Tree) (p : Path) : Except FaultKind Node :=
  match t.place p with
  | .error kind => .error kind
  | .ok place =>
    match t.node? place with
    | some node => .ok node
    | none => .error .missing

/-- Whether a path leads to a directory. -/
def isDirectory (t : Tree) (p : Path) : Bool :=
  match t.find p with
  | .ok .directory => true
  | _ => false

/-- A tree with a node at a place. -/
def set (t : Tree) (place : Place) (node : Node) : Tree :=
  if t.any fun (q, _) => q == place then t.map fun (q, n) => if q == place then (q, node) else (q, n)
  else t ++ [(place, node)]

/-- A tree with one more directory. -/
def makeDirectory (t : Tree) (p : Path) : Except FaultKind Tree :=
  match t.place p with
  | .error kind => .error kind
  | .ok place =>
    match t.node? place with
    | some _ => .error .exists_
    | none => .ok (t.set place .directory)

/-- A tree with a directory that may be there already. -/
def ensureDirectory (t : Tree) (p : Path) : Except Fault Tree :=
  match t.makeDirectory p with
  | .ok t => .ok t
  | .error kind =>
    if kind == .missing || kind == .nulCharacter then .error (faultAt kind p)
    else if t.isDirectory p then .ok t else .error (faultAt kind p)

/-- A tree with a directory and those above it, for a path given by its names in reverse. -/
def ensureReversed (root : String) : Tree → List String → Tree × Option Fault
  | t, [] =>
    match t.ensureDirectory ⟨root, []⟩ with
    | .ok t => (t, none)
    | .error fault => (t, some fault)
  | t, name :: above =>
    let p : Path := ⟨root, (name :: above).reverse⟩
    match t.makeDirectory p with
    | .error .missing =>
      match ensureReversed root t above with
      | (t, some fault) => (t, some fault)
      | (t, none) =>
        match t.ensureDirectory p with
        | .ok t => (t, none)
        | .error fault => (t, some fault)
    | _ =>
      match t.ensureDirectory p with
      | .ok t => (t, none)
      | .error fault => (t, some fault)

/-- A tree with a directory and those above it, and why it cannot be made. -/
def ensureDirectories (t : Tree) (p : Path) : Tree × Option Fault :=
  ensureReversed p.root t p.names.reverse

/-- A tree without a directory and all that it holds. -/
def remove (t : Tree) (place : Place) : Tree := t.filter fun (q, _) => !place.isPrefixOf q

/-- A tree without the directory of a path, if there is one. -/
def removeDirectory (t : Tree) (p : Path) : Except Fault Tree :=
  match t.place p with
  | .error .missing => .ok t
  | .error .notDirectory => .ok t
  | .error .nulCharacter => .ok t
  | .error kind => .error (faultAt kind p)
  | .ok place =>
    match t.node? place with
    | none => .ok t
    | some .directory => .ok (t.remove place)
    | some (.file _) => .error ⟨.notDirectory, "PosixPath(" ++ Text.quoted p.text ++ ")"⟩

/-- A tree with a file at a path. -/
def write (t : Tree) (p : Path) (bytes : List UInt8) : Except Fault Tree :=
  match t.place p with
  | .error kind => .error (faultAt kind p)
  | .ok place =>
    match t.node? place with
    | some .directory => .error (faultAt .isDirectory p)
    | _ => .ok (t.set place (.file bytes))

/-- The bytes of the file at a path. -/
def read (t : Tree) (p : Path) : Except Fault (List UInt8) :=
  match t.find p with
  | .error kind => .error (faultAt kind p)
  | .ok .directory => .error (faultAt .isDirectory p)
  | .ok (.file bytes) => .ok bytes

/-- What lies below a directory, by the names from there on. -/
def below (t : Tree) (place : Place) : List (List String × Node) :=
  t.filterMap fun (q, node) =>
    if place.isPrefixOf q && q.length != place.length && !(place.isEmpty && isOutside q) then
      some (q.drop place.length, node)
    else none

end Tree

end SchemaReconcile.File
