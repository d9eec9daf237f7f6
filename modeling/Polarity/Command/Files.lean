import Polarity.Text

/-!
# Files

What a command can learn about files is what reading them by their names gives.

* `Files`: the outcome of reading, for every path;
* `Folder`: files kept in memory below one folder, in which paths are followed
  name by name;
* `Path.clean`: the shortest way to write a path.
-/

namespace Polarity

/-- Why a file cannot be read. -/
inductive FileFault where
  /-- There is nothing of that name. -/
  | missing
  /-- It is a folder. -/
  | folder
  /-- Something on the way is a file. -/
  | notFolder
  /-- It may not be read. -/
  | forbidden
  /-- A name, or the whole path, is too long to be one. -/
  | tooLong
  /-- The path cannot be handed to the system. -/
  | unsayable
  /-- The system has a reason of its own. -/
  | other (reason : Text)
  deriving DecidableEq, Repr

namespace FileFault

/-- The fault by itself. -/
def reason : FileFault → Text
  | .missing => "no such file or directory"
  | .folder => "is a directory"
  | .notFolder => "not a directory"
  | .forbidden => "permission denied"
  | .tooLong => "file name too long"
  | .unsayable => "invalid argument"
  | .other reason => reason

/-- The fault of reading a path. A folder can be opened, but not read. -/
def text (f : FileFault) (path : Text) : Text :=
  let attempt : Text := if f = .folder then "read " else "open "
  attempt ++ path ++ ": " ++ f.reason

end FileFault

/-- What reading a path gives. -/
abbrev Files := Text → Except FileFault Text

namespace Path

/-- The byte between the names of a path. -/
def slash : UInt8 := Text.byte '/'

/-- The names of a path, with an empty one beside every needless slash. -/
def split : Text → List Text
  | [] => [[]]
  | b :: rest =>
    if b = slash then [] :: split rest
    else
      match split rest with
      | [] => [[b]]
      | name :: others => (b :: name) :: others

/-- The names that lead somewhere. -/
def names (path : Text) : List Text := (split path).filter fun n => n ≠ [] ∧ n ≠ "."

/-- Whether a path begins at the root. -/
def isRooted (path : Text) : Bool := path.head? == some slash

/-- Names without steps back, the last one first. Nothing lies above the root. -/
def shorten (rooted : Bool) : (reversed : List Text) → List Text → List Text
  | reversed, [] => reversed
  | reversed, name :: rest =>
    if name = ".." then
      match reversed with
      | last :: before =>
        if last = ".." then shorten rooted (name :: reversed) rest else shorten rooted before rest
      | [] => shorten rooted (if rooted then [] else [name]) rest
    else shorten rooted (name :: reversed) rest

/-- A path from its names. -/
def ofNames (rooted : Bool) (names : List Text) : Text :=
  let path := Text.joined "/" names
  if rooted then "/" ++ path else if names.isEmpty then "." else path

/-- The shortest way to write a path. -/
def clean (path : Text) : Text :=
  ofNames (isRooted path) (shorten (isRooted path) [] (names path)).reverse

/-- The folder a path lies in. -/
def parent (path : Text) : Text :=
  ofNames (isRooted path) ((shorten (isRooted path) [] (names path)).drop 1).reverse

/-- The most bytes that a name can have. -/
def longestName : Nat := 255

/-- The most bytes that a path can have. -/
def longestPath : Nat := 4095

/-- What keeps a path from being looked up at all. -/
def fault? (path : Text) : Option FileFault :=
  if path.contains 0 then some .unsayable
  else if longestPath < path.length then some .tooLong
  else none

/-- A path seen from a folder. -/
def seenFrom (folder path : Text) : Text :=
  if isRooted path then clean path else clean (folder ++ "/" ++ path)

end Path

/-- Files in memory. -/
structure Folder where
  /-- The path of the folder itself. -/
  location : Text
  /-- The files in it and below it, by their names from there. -/
  files : List (List Text × Text)

namespace Folder

/-- What the names lead to: the content of a file, or a fault. -/
def entry (f : Folder) (names : List Text) : Except FileFault Text :=
  match f.files.lookup names with
  | some content => .ok content
  | none =>
    if names.isEmpty || f.files.any fun (n, _) => names.isPrefixOf n then .error .folder
    else .error .missing

/-- Follows names from the folder at `here`, the last name first; `none` is
somewhere above, where nothing else is known. -/
def follow (f : Folder) : (here : Option (List Text)) → List Text → Except FileFault Text
  | none, [] => .error .folder
  | some here, [] => f.entry here.reverse
  | here, name :: rest =>
    if Path.longestName < name.length then .error .tooLong
    else
      match here with
      | none => if name = ".." then f.follow none rest else .error .missing
      | some here =>
        if name = ".." then f.follow (if here.isEmpty then none else some (here.drop 1)) rest
        else
          match f.entry (name :: here).reverse with
          | .error .folder => f.follow (some (name :: here)) rest
          | .error e => .error e
          | .ok content => if rest.isEmpty then .ok content else .error .notFolder

/-- Where a path begins, and the part of it from there: in the folder itself, or
at the root. -/
def below (f : Folder) (path : Text) : Option (List Text) × Text :=
  if path = f.location then (some [], ".")
  else if path.startsWith (f.location ++ "/") then (some [], path.drop (f.location.length + 1))
  else if Path.isRooted path then (none, path)
  else (some [], path)

/-- Reads a path. A path that ends in a slash or a dot is that of a folder. -/
def read (f : Folder) : Files := fun path =>
  match Path.fault? path with
  | some fault => .error fault
  | none =>
    let (here, path) := f.below path
    if path.isEmpty then .error .missing
    else
      let asFolder := (Path.split path).getLast?.any fun n => n = [] ∨ n = "."
      match f.follow here (Path.names path) with
      | .ok content => if asFolder then .error .notFolder else .ok content
      | .error e => .error e

end Folder

end Polarity
