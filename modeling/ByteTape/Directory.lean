import ByteTape.Path
import ByteTape.Text.Utf8
import ByteTape.Text.Newline

/-! # Files and loading

    A directory is known by the folders and files below it.  What lies above
    or beside it is not known: the way up leads to folders, and no name in
    them leads anywhere.

    * `Directory.walk` — follow the names of a path, one at a time;
    * `Directory.read` — the bytes of the file a path leads to;
    * `load` — its text, as a source to parse.

    A path is followed in its normal form, so a trailing slash does not ask
    for a folder.  A name is looked at only when the way there exists: the
    first obstacle is the one reported.  Paths, and so the names of folders and
    files, are Unicode text, measured by its bytes in UTF-8.  A path with half
    of a surrogate pair in it has no such bytes, and nothing is said of it. -/

namespace ByteTape

/-- Why the file system gives no text. -/
inductive Obstacle where
  | noSuchFile
  | isDirectory
  | notDirectory
  | nameTooLong
deriving DecidableEq, Repr

/-- The words the file system has for an obstacle. -/
def Obstacle.reason : Obstacle → String
  | .noSuchFile => "No such file or directory"
  | .isDirectory => "Is a directory"
  | .notDirectory => "Not a directory"
  | .nameTooLong => "File name too long"

/-- Names from a directory downwards. -/
abbrev Trail := List (List Char)

/-- The content of a directory: the trails of the folders below it, and its
    files, the one written last in front. -/
structure Directory where
  folders : List Trail
  files : List (Trail × List UInt8)
deriving DecidableEq, Repr

/-- A place that a path leads to. -/
inductive Place where
  /-- The folder at a trail from the directory itself. -/
  | folder (trail : Trail)
  /-- A folder that is not below the directory. -/
  | elsewhere
  /-- A file with its content. -/
  | file (content : List UInt8)
deriving DecidableEq, Repr

/-- The most bytes a name may have. -/
def maxNameBytes : Nat := 255

/-- The most bytes a whole path may have. -/
def maxPathBytes : Nat := 4095

/-- The number of bytes some characters take in UTF-8. -/
def byteLength (cs : List Char) : Nat := cs.foldr (fun c n => c.utf8Size + n) 0

namespace Directory

/-- A directory with nothing in it. -/
def empty : Directory := ⟨[], []⟩

/-- The trail that a name leads to, as long as the way stays below the
    directory. -/
def follow : Option Trail → List Char → Option Trail
  | none, _ => none
  | some trail, name =>
      if name = ['.', '.'] then if trail.isEmpty then none else some trail.dropLast
      else some (trail ++ [name])

/-- The trails passed on the way along some names, the first and the last
    included. -/
def passed : Option Trail → List (List Char) → List Trail
  | none, _ => []
  | some trail, [] => [trail]
  | some trail, name :: rest => trail :: passed (follow (some trail) name) rest

/-- The trail that a path starts from, if that is the directory itself. -/
def start : Root → Option Trail
  | .relative => some []
  | .slash => none
  | .doubleSlash => none

/-- Make the folder at a path, with every folder on the way to it. -/
def makeFolder (d : Directory) (p : Path) : Directory :=
  { d with folders := passed (start p.root) p.names ++ d.folders }

/-- Write the file at a path, in place of one that is there already. -/
def write (d : Directory) (p : Path) (content : List UInt8) : Directory :=
  match p.names.foldl follow (start p.root) with
  | none => d
  | some trail =>
      ⟨passed (start p.root) p.names.dropLast ++ d.folders, (trail, content) :: d.files⟩

/-- The directory in which the given folders are made, and then the given
    files written, each named by a path. -/
def ofListing (folders : List String) (files : List (String × List UInt8)) : Directory :=
  let made := folders.foldl (fun d name => d.makeFolder (Path.parse name)) empty
  files.foldl (fun d f => d.write (Path.parse f.1) f.2) made

/-- Whether a trail leads to a folder: the directory itself, or one in it. -/
def isFolder (d : Directory) (trail : Trail) : Bool :=
  trail.isEmpty || d.folders.contains trail

/-- The content of the file at a trail. -/
def content? (d : Directory) (trail : Trail) : Option (List UInt8) :=
  (d.files.find? fun f => f.1 == trail).map fun f => f.2

/-- The place one folder up. -/
def parent : Trail → Place
  | [] => .elsewhere
  | trail => .folder trail.dropLast

/-- Follow one name. -/
def enter (d : Directory) : Place → List Char → Except Obstacle Place
  | .file _, _ => .error .notDirectory
  | .elsewhere, name =>
      if name = ['.', '.'] then .ok .elsewhere
      else if maxNameBytes < byteLength name then .error .nameTooLong
      else .error .noSuchFile
  | .folder trail, name =>
      if name = ['.', '.'] then .ok (parent trail)
      else if maxNameBytes < byteLength name then .error .nameTooLong
      else
        match d.content? (trail ++ [name]) with
        | some content => .ok (.file content)
        | none =>
            if d.isFolder (trail ++ [name]) then .ok (.folder (trail ++ [name]))
            else .error .noSuchFile

/-- Follow names from left to right, up to the first obstacle. -/
def walk (d : Directory) : Place → List (List Char) → Except Obstacle Place
  | place, [] => .ok place
  | place, name :: rest =>
      match d.enter place name with
      | .ok next => d.walk next rest
      | .error e => .error e

/-- Where following a path begins. -/
def origin : Root → Place
  | .relative => .folder []
  | .slash => .elsewhere
  | .doubleSlash => .elsewhere

/-- The bytes of the file that a path leads to. -/
def read (d : Directory) (p : Path) : Except Obstacle (List UInt8) :=
  if maxPathBytes < byteLength p.renderChars then .error .nameTooLong
  else
    match d.walk (origin p.root) p.names with
    | .ok (.file content) => .ok content
    | .ok _ => .error .isDirectory
    | .error e => .error e

end Directory

/-- Why a source cannot be loaded. -/
inductive LoadError where
  /-- A path cannot hold the character NUL. -/
  | nulInPath
  /-- The file system gives no text for the path, which is shown as given. -/
  | unavailable (path : String) (obstacle : Obstacle)
deriving DecidableEq, Repr

/-- The text for a path that yields no source, with the reason in words. -/
def unavailableMessage (path reason : String) : String :=
  "Source unavailable: " ++ path ++ ": " ++ reason

/-- The text of a refusal. -/
def LoadError.message : LoadError → String
  | .nulInPath => "embedded null byte"
  | .unavailable path obstacle => unavailableMessage path obstacle.reason

/-- The text of a file's content: bytes as UTF-8, every line end a line feed. -/
def sourceText (content : List UInt8) : String :=
  String.ofList (Newline.unify (Utf8.decode content))

/-- Load the source at a path. -/
def load (d : Directory) (path : String) : Except LoadError String :=
  if path.toList.contains (Char.ofNat 0) then .error .nulInPath
  else
    match d.read (Path.parse path) with
    | .ok content => .ok (sourceText content)
    | .error e => .error (.unavailable path e)

end ByteTape
