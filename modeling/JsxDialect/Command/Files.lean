/-!
# Files

What the command needs of the world: reading and writing files and the standard input. `Files` is
the interface, over any monad; `Disk` is a pure file system that has it.
-/

namespace JsxDialect

/-- Why a file cannot be read or written. -/
inductive FileError where
  | notFound
  | exists
  | notDirectory
  | isDirectory
  | other (text : String)
deriving Repr, DecidableEq, Inhabited

/-- The wording of an error, as the operating system has it. -/
def FileError.message : FileError → String
  | .notFound => "No such file or directory (os error 2)"
  | .exists => "File exists (os error 17)"
  | .notDirectory => "Not a directory (os error 20)"
  | .isDirectory => "Is a directory (os error 21)"
  | .other text => text

/-- Access to files by their paths, and to the standard input. -/
structure Files (m : Type → Type) where
  read : String → m (Except FileError String)
  write : String → String → m (Except FileError Unit)
  /-- Makes a directory, and those around it that are missing. -/
  makeDirectory : String → m (Except FileError Unit)
  standardInput : m (Except FileError String)

/-- A file system: the texts of its files and its directories, each by the names on the way to it.
The directory without a name is always there. -/
structure Disk where
  files : List (List String × String)
  directories : List (List String)
  standardInput : String
deriving Repr, Inhabited

namespace Disk

/-- The names on the way to a path. Names that are empty or a single dot lead nowhere else, and two
dots lead back. -/
def names (path : String) : List String :=
  (path.splitOn "/").foldl (fun way name =>
    if name == "" || name == "." then way
    else if name == ".." then way.dropLast
    else way ++ [name]) []

/-- Whether a path can only be one of a directory. -/
def endsInSlash (path : String) : Bool :=
  path.toList.getLast? == some '/'

/-- The text of a file. -/
def file? (d : Disk) (way : List String) : Option String :=
  d.files.lookup way

/-- Whether there is a directory. -/
def isDirectory (d : Disk) (way : List String) : Bool :=
  way.isEmpty || d.directories.contains way

/-- The error on the way from a directory along names that all have to be directories. -/
def obstacle? (d : Disk) (way : List String) : List String → Option FileError
  | [] => none
  | name :: rest =>
    let here := way ++ [name]
    if d.isDirectory here then d.obstacle? here rest
    else if (d.file? here).isSome then some .notDirectory
    else some .notFound

/-- Reads a file. -/
def read (d : Disk) (path : String) : Except FileError String :=
  let way := names path
  if path == "" then .error .notFound
  else match d.obstacle? [] way.dropLast with
    | some e => .error e
    | none =>
      if d.isDirectory way then .error .isDirectory
      else match d.file? way with
        | some text => if endsInSlash path then .error .notDirectory else .ok text
        | none => .error .notFound

/-- The files with a text for one of them. -/
def setFile (way : List String) (text : String) :
    List (List String × String) → List (List String × String)
  | [] => [(way, text)]
  | (w, t) :: rest => if w == way then (w, text) :: rest else (w, t) :: setFile way text rest

/-- Writes a file; its directory has to be there. -/
def write (d : Disk) (path text : String) : Except FileError Unit × Disk :=
  let way := names path
  if path == "" then (.error .notFound, d)
  else match d.obstacle? [] way.dropLast with
    | some e => (.error e, d)
    | none =>
      if d.isDirectory way || endsInSlash path then (.error .isDirectory, d)
      else (.ok (), { d with files := setFile way text d.files })

/-- Makes directories for all names on a way. -/
def makeAll (d : Disk) (way : List String) : List String → Except FileError Unit × Disk
  | [] => (.ok (), d)
  | name :: rest =>
    let here := way ++ [name]
    if d.isDirectory here then d.makeAll here rest
    else if (d.file? here).isSome then
      (.error (if rest.isEmpty then .exists else .notDirectory), d)
    else { d with directories := d.directories ++ [here] }.makeAll here rest

/-- Makes a directory, and those around it that are missing. -/
def makeDirectory (d : Disk) (path : String) : Except FileError Unit × Disk :=
  d.makeAll [] (names path)

/-- A file system with files at paths, and the directories they need. -/
def ofFiles (files : List (String × String)) (standardInput : String) : Disk :=
  files.foldl (fun d (path, text) =>
    let d := (d.makeAll [] (names path).dropLast).2
    (d.write path text).2) ⟨[], [], standardInput⟩

/-- The files by their paths. -/
def listing (d : Disk) : List (String × String) :=
  d.files.map fun (way, text) => ("/".intercalate way, text)

/-- A file system as an interface to files. -/
def access : Files (StateM Disk) where
  read path := return (← get).read path
  write path text := modifyGet (·.write path text)
  makeDirectory path := modifyGet (·.makeDirectory path)
  standardInput := return .ok (← get).standardInput

end Disk

end JsxDialect
