/-! # Paths

    A path is a root and the names below it.  Writing a path down drops what
    carries no meaning: repeated and trailing slashes and the component `.`.
    The component `..` is kept, because what it leads to depends on the
    directory.  Exactly two leading slashes are a root of their own; one, and
    three or more, are the ordinary root.

    A path is named by Unicode text.  A name that no such text can write, with
    half of a surrogate pair in it, is not among the paths here.

    * `Path.parse` — the path a text stands for;
    * `Path.render` — its one written form. -/

namespace ByteTape

/-- Where a path starts. -/
inductive Root where
  /-- At the current directory. -/
  | relative
  /-- At the root directory. -/
  | slash
  /-- At the root that exactly two slashes name. -/
  | doubleSlash
deriving DecidableEq, Repr

/-- How a root is written. -/
def Root.render : Root → List Char
  | .relative => []
  | .slash => ['/']
  | .doubleSlash => ['/', '/']

/-- A root and the names to follow from it. -/
structure Path where
  root : Root
  names : List (List Char)
deriving DecidableEq, Repr

namespace Path

/-- The root that a text begins with. -/
def rootOf : List Char → Root
  | '/' :: '/' :: '/' :: _ => .slash
  | '/' :: '/' :: _ => .doubleSlash
  | '/' :: _ => .slash
  | _ => .relative

/-- The pieces of a text between slashes, the empty ones included. -/
def pieces : List Char → List (List Char)
  | [] => [[]]
  | c :: rest =>
      if c = '/' then [] :: pieces rest
      else
        match pieces rest with
        | first :: others => (c :: first) :: others
        | [] => [[c]]

/-- A piece that names something: neither empty nor a single dot. -/
def isName (piece : List Char) : Bool := !(piece == [] || piece == ['.'])

/-- The path a text stands for. -/
def parseChars (cs : List Char) : Path := ⟨rootOf cs, (pieces cs).filter isName⟩

/-- The path a text stands for. -/
def parse (text : String) : Path := parseChars text.toList

/-- Names with one slash between each two. -/
def joinNames : List (List Char) → List Char
  | [] => []
  | [name] => name
  | name :: rest => name ++ '/' :: joinNames rest

/-- The characters of the written form; the path that goes nowhere is a dot. -/
def renderChars (p : Path) : List Char :=
  match p.root, p.names with
  | .relative, [] => ['.']
  | root, names => root.render ++ joinNames names

/-- The written form of a path. -/
def render (p : Path) : String := String.ofList p.renderChars

end Path

/-- The written form of the path that a text stands for. -/
def normalPath (text : String) : String := (Path.parse text).render

end ByteTape
