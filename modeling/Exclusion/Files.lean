import Exclusion.Failure

/-! # Files

A tree of files as it stands while rules and configurations are read, relative to the directory that
paths start from. Reading follows a path name by name: each name but the last must be a directory.
The same rules of path texts say where a file that is named beside another one lies.
-/

namespace Exclusion

/-- The files of a tree by the names that lead to them, and its directories likewise. Whatever lies on
the way to one of them is a directory too. -/
structure Files where
  contents : List (List String × ByteArray)
  directories : List (List String)

def pathNames (path : String) : List String :=
  let (last, names) := path.toList.foldr
    (fun c (current, done) => if c == '/' then ([], String.ofList current :: done) else (c :: current, done))
    ([], [])
  String.ofList last :: names

namespace Files

def empty : Files := ⟨[], []⟩

def content? (fs : Files) (place : List String) : Option ByteArray :=
  (fs.contents.find? (·.1 == place)).map (·.2)

def isDirectory (fs : Files) (place : List String) : Bool :=
  place.isEmpty || fs.directories.any (place.isPrefixOf ·)
    || fs.contents.any fun f => f.1 != place && place.isPrefixOf f.1

def goesUp (names : List String) : Bool := names.all (· ∈ ["", ".", ".."])

/-- Follows names from a place. What lies above the starting directory is out of sight, but for the
directories themselves. -/
def follow (fs : Files) (place : List String) : List String → Except FileFault (List String)
  | [] => .ok place
  | name :: rest =>
    if fs.isDirectory place then
      if name == "" || name == "." then fs.follow place rest
      else if name == ".." then
        if place.isEmpty then .error (if goesUp rest then .isDirectory else .notFound)
        else fs.follow place.dropLast rest
      else fs.follow (place ++ [name]) rest
    else if (fs.content? place).isSome then .error .notDirectory
    else .error .notFound

def isAbsolute (path : String) : Bool := path.toList.head? == some '/'

/-- The bytes of the file that a path leads to. Of what an absolute path names, only the top is known. -/
def read (fs : Files) (path : String) : Except FileFault ByteArray := do
  if path.isEmpty then .error .notFound
  else if isAbsolute path then
    .error (if goesUp (pathNames path) then .isDirectory else .notFound)
  else
    let place ← fs.follow [] (pathNames path)
    match fs.content? place with
    | some bytes => return bytes
    | none => if fs.isDirectory place then .error .isDirectory else .error .notFound

def readText (fs : Files) (path : String) : Except Failure String :=
  match fs.read path with
  | .error f => .error (.file path f)
  | .ok bytes =>
    match String.fromUTF8? bytes with
    | some s => .ok s
    | none => .error (.file path .invalidData)

/-- Drops slashes, and dots behind a slash, from the end of a reversed path text. -/
def trimEnd : List Char → List Char
  | ['/'] => ['/']
  | '/' :: rest => trimEnd rest
  | '.' :: '/' :: rest => trimEnd ('/' :: rest)
  | s => s

def parent? (path : String) : Option String :=
  match trimEnd path.toList.reverse with
  | [] => none
  | ['/'] => none
  | s => some (String.ofList (trimEnd (s.dropWhile (· != '/'))).reverse)

def join (directory path : String) : String :=
  if isAbsolute path then path
  else if directory.isEmpty || directory.toList.getLast? == some '/' then directory ++ path
  else directory ++ "/" ++ path

end Files

end Exclusion
