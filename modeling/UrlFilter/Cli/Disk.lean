import UrlFilter.Cli.Path
import UrlFilter.Cli.World

/-!
# A disk in memory

Files and directories below one directory, to which all paths are relative. What is refused, and how,
follows the rules of a file system: every part of a path but the last has to be a directory.
-/

namespace UrlFilter.Cli

/-- What a path names. -/
inductive Node where
  | directory
  /-- A file; its content is absent when it is no text. -/
  | file (content : Option Text)
  deriving Repr, DecidableEq

/-- Files and directories with the parts of their paths. -/
structure Disk where
  nodes : List (List Text × Node) := []
  deriving Repr, DecidableEq

namespace Disk

/-- What the parts of a path name; no part names the whole disk. -/
def node? (d : Disk) (path : List Text) : Option Node :=
  if path.isEmpty then some .directory else d.nodes.lookup path

/-- The disk with a file or directory made or replaced. -/
def put (d : Disk) (path : List Text) (n : Node) : Disk :=
  { d with nodes := (path, n) :: d.nodes.filter (·.1 ≠ path) }

/-- The directory that a part names in another. -/
def enter (d : Disk) (dir : List Text) (part : Text) : Except FileError (List Text) :=
  if part = ['.'] then .ok dir
  else if part = ['.', '.'] then if dir.isEmpty then .error .notFound else .ok dir.dropLast
  else
    match d.node? (dir ++ [part]) with
    | none => .error .notFound
    | some (.file _) => .error .notDirectory
    | some .directory => .ok (dir ++ [part])

/-- The directory that parts name one after the other. -/
def walk (d : Disk) (dir : List Text) : List Text → Except FileError (List Text)
  | [] => .ok dir
  | part :: parts => (d.enter dir part).bind fun dir => d.walk dir parts

/-- What a path leads to. -/
inductive Target where
  /-- A directory that is there. -/
  | here (dir : List Text)
  /-- A name in a directory; whether a slash follows it. -/
  | name (path : List Text) (slash : Bool)
  deriving Repr, DecidableEq

/-- What a path leads to. Nothing lies outside of the disk. -/
def target (d : Disk) (path : Text) : Except FileError Target :=
  let parts := Path.parts path
  match parts.getLast? with
  | none => .error .notFound
  | some last =>
    if path.head? = some '/' then .error .notFound
    else if last = ['.'] ∨ last = ['.', '.'] then (d.walk [] parts).map .here
    else
      (d.walk [] parts.dropLast).map fun dir =>
        .name (dir ++ [last]) (decide (path.getLast? = some '/'))

/-- The text of a file. -/
def read (d : Disk) (path : Text) : Except FileError Text :=
  (d.target path).bind fun t =>
    match t with
    | .here _ => .error .isDirectory
    | .name p slash =>
      match d.node? p with
      | none => .error .notFound
      | some .directory => .error .isDirectory
      | some (.file content) =>
        if slash then .error .notDirectory
        else
          match content with
          | none => .error .notText
          | some t => .ok t

/-- The disk after a file is written. -/
def write (d : Disk) (path content : Text) : Except FileError Disk :=
  (d.target path).bind fun t =>
    match t with
    | .here _ => .error .isDirectory
    | .name p slash =>
      match d.node? p with
      | some .directory => .error .isDirectory
      | some (.file _) =>
        if slash then .error .notDirectory else .ok (d.put p (.file (some content)))
      | none => if slash then .error .isDirectory else .ok (d.put p (.file (some content)))

/-- The disk after a directory is made. -/
def makeDirectory (d : Disk) (path : Text) : Except FileError Disk :=
  (d.target path).bind fun t =>
    match t with
    | .here _ => .error .alreadyExists
    | .name p _ =>
      match d.node? p with
      | none => .ok (d.put p .directory)
      | some _ => .error .alreadyExists

/-- A path leads to a directory. -/
def isDirectory (d : Disk) (path : Text) : Bool :=
  match d.target path with
  | .ok (.here _) => true
  | .ok (.name p _) => d.node? p == some .directory
  | .error _ => false

/-- The disk after a directory and those around it are made, as far as they are missing; the number
bounds how many that are. -/
def makeDirectoriesWithin : Nat → Disk → Text → Except FileError Disk
  | 0, d, _ => .ok d
  | n + 1, d, path =>
    if path.isEmpty then .ok d
    else
      let again (d : Disk) : Except FileError Disk :=
        match d.makeDirectory path with
        | .ok d => .ok d
        | .error e => if d.isDirectory path then .ok d else .error e
      match d.makeDirectory path with
      | .ok d => .ok d
      | .error e =>
        if e = .notFound then (makeDirectoriesWithin n d (Path.parent path)).bind again
        else if d.isDirectory path then .ok d
        else .error e

/-- The disk after a directory and those around it are made. -/
def makeDirectories (d : Disk) (path : Text) : Except FileError Disk :=
  makeDirectoriesWithin (path.length + 1) d path

/-- The directories that the parts of a path pass through. -/
def above (parts : List Text) : List (List Text) :=
  (List.range (parts.length - 1)).map fun n => parts.take (n + 1)

/-- The disk with a file and the directories around it. -/
def place (d : Disk) (path : Text) (content : Option Text) : Disk :=
  let parts := Path.parts path
  ((above parts).foldl (·.put · .directory) d).put parts (.file content)

/-- The disk with the files of a list. -/
def ofFiles (files : List (Text × Option Text)) : Disk :=
  files.foldl (fun d (path, content) => d.place path content) {}

end Disk

/-- A disk and the lines that have been printed. -/
structure Session where
  disk : Disk
  /-- The latest line comes first. -/
  printed : List Text := []
  deriving Repr, DecidableEq

namespace Session

/-- The session after the disk is changed or the change refused. -/
def change (s : Session) (r : Except FileError Disk) : Except FileError Unit × Session :=
  match r with
  | .ok d => (.ok (), { s with disk := d })
  | .error e => (.error e, s)

/-- The world of a session. No time passes in it. -/
def world : World (StateM Session) where
  read path := fun s => (s.disk.read path, s)
  write path content := fun s => s.change (s.disk.write path content)
  makeDirectories path := fun s => s.change (s.disk.makeDirectories path)
  print line := fun s => ((), { s with printed := line :: s.printed })
  clock := fun s => (0, s)
  latencies _ _ _ := fun s => ([], s)

end Session

end UrlFilter.Cli
