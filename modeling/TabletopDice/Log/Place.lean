import TabletopDice.Text.Quoted
/-!
# Place — where the file of a log is

The path of a file starts at the working directory, or at the root of the disk if it begins with a slash. In its plain
form it leads from the root through one name after another: a single dot is no name, and two dots take the name before
them away. A file can be written if every name before its own is a directory and its own is none.
-/
namespace TabletopDice
namespace Log

/-- What is known of a disk: the working directory, and which plain paths are directories. -/
structure Disk where
  current : String
  isDirectory : String → Bool

/-- Why a file cannot be written. -/
inductive PlaceFault
  /-- A directory on the way to the file is missing. -/
  | missing (path : String)
  /-- A directory stands where the file should be. -/
  | isDirectory (path : String)
  /-- A name on the way to the file, or its own, is too long. -/
  | longName (path : String)
  deriving DecidableEq, Repr

/-- **The message of such a fault.** -/
def PlaceFault.message : PlaceFault → String
  | missing path => "[Errno 2] No such file or directory: " ++ Text.quoted path
  | isDirectory path => "[Errno 21] Is a directory: " ++ Text.quoted path
  | longName path => "[Errno 36] File name too long: " ++ Text.quoted path

namespace Disk

/-- The names in a path. -/
def namesIn (path : String) : List String := (path.splitOn "/").filter fun name => !name.isEmpty && name != "."

/-- The names on a way, the last first, and one more. -/
def follow (way : List String) (name : String) : List String := if name == ".." then way.tail else name :: way

/-- **The names that lead from the root** to the end of a path. -/
def way (disk : Disk) (path : String) : List String :=
  let start := if path.startsWith "/" then "" else disk.current
  ((namesIn start ++ namesIn path).foldl follow []).reverse

/-- The plain path of names. -/
def pathOf (names : List String) : String := "/" ++ "/".intercalate names

/-- The most bytes that a name may have. -/
def maxNameSize : Nat := 255

/-- What keeps a file from being written at the end of names, those before them being directories. -/
def obstacle? (disk : Disk) (path : String) (before : List String) : List String → Option PlaceFault
  | [] => some (.isDirectory path)
  | name :: rest =>
    let there := disk.isDirectory (pathOf (before ++ [name]))
    if maxNameSize < name.utf8ByteSize then some (.longName path)
    else if there then obstacle? disk path (before ++ [name]) rest
    else if rest.isEmpty then none else some (.missing path)

/-- **The plain path of a file**, if it can be written. -/
def place (disk : Disk) (path : String) : Except PlaceFault String :=
  let names := disk.way path
  match disk.obstacle? (pathOf names) [] names with
  | some fault => .error fault
  | none => .ok (pathOf names)

end Disk
end Log
end TabletopDice
