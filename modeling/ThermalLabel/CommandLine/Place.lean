import ThermalLabel.Error

/-! # Places in the file system

A command is run in a folder that holds files and no other folders. The folder lies among the
temporary files of a system. Of what lies outside only the outline is known, which every system has:
the standard folders, the links between them, and the devices. -/

namespace ThermalLabel.CommandLine

/-- The devices that every system has. -/
inductive SystemDevice where
  /-- Takes everything, keeps nothing and holds nothing. -/
  | null
  /-- Takes everything, and has no end when it is read. -/
  | endless
  /-- Takes nothing, and has no end when it is read. -/
  | full
  /-- The output of the command. -/
  | output
  /-- The error output of the command. -/
  | messages
  /-- The terminal of the command, which has none. -/
  | terminal
deriving DecidableEq

/-- A place in the file system, as seen from the folder of a command. -/
inductive Place where
  /-- The folder itself. -/
  | here
  /-- A folder of the system, with the names that lead to it from the top. -/
  | folder (path : List String)
  /-- A file of the folder, which may be missing. -/
  | file (name : String)
  /-- A name among the temporary files that nothing has. -/
  | free
  /-- A text of the system, which is no label. -/
  | notice
  | device (d : SystemDevice)
deriving DecidableEq

namespace Place

/-- The top of the file system. -/
def top : Place := .folder []

/-- The standard folders, by the path from the top. -/
def folders : List String := ["boot", "dev", "dev/mqueue", "dev/pts", "dev/shm", "etc", "home",
  "media", "mnt", "opt", "proc", "proc/self", "proc/self/fd", "root", "run", "run/lock", "srv",
  "sys", "tmp", "usr", "usr/bin", "usr/games", "usr/include", "usr/lib", "usr/lib64", "usr/local",
  "usr/local/bin", "usr/local/lib", "usr/local/sbin", "usr/local/share", "usr/sbin", "usr/share",
  "usr/src", "var", "var/cache", "var/lib", "var/local", "var/log", "var/mail", "var/opt",
  "var/spool", "var/tmp"]

/-- The folders where every user may put files. -/
def temporary : List String := ["tmp", "var/tmp", "dev/shm"]

/-- What else stands at a known path from the top: links, devices and texts. The input of a command
is empty. -/
def landmarks : List (String × Place) := [
  ("bin", .folder ["usr", "bin"]), ("lib", .folder ["usr", "lib"]),
  ("lib64", .folder ["usr", "lib64"]), ("sbin", .folder ["usr", "sbin"]),
  ("var/run", .folder ["run"]), ("var/lock", .folder ["run", "lock"]),
  ("dev/fd", .folder ["proc", "self", "fd"]), ("proc/self/cwd", .here), ("proc/self/root", top),
  ("dev/null", .device .null), ("dev/zero", .device .endless), ("dev/full", .device .full),
  ("dev/random", .device .endless), ("dev/urandom", .device .endless),
  ("dev/tty", .device .terminal), ("dev/stdin", .device .null), ("dev/stdout", .device .output),
  ("dev/stderr", .device .messages), ("proc/self/fd/0", .device .null),
  ("proc/self/fd/1", .device .output), ("proc/self/fd/2", .device .messages),
  ("etc/passwd", .notice), ("etc/group", .notice), ("proc/version", .notice),
  ("proc/cpuinfo", .notice), ("proc/meminfo", .notice), ("proc/self/status", .notice)]

/-- The longest name in bytes. -/
def maxNameLength : Nat := 255

/-- The longest path in bytes. -/
def maxPathLength : Nat := 4095

/-- The place with a name in a folder. -/
def child? (p : Place) (name : String) : Option Place :=
  match p with
  | .here => some (.file name)
  | .folder path =>
    let inner := path ++ [name]
    if folders.contains ("/".intercalate inner) then some (.folder inner)
    else (landmarks.lookup ("/".intercalate inner)).or
      (if temporary.contains ("/".intercalate path) then some .free else none)
  | _ => none

/-- The folder that a folder lies in. The top lies in itself. -/
def parent : Place → Place
  | .here => .folder ["tmp"]
  | .folder path => .folder path.dropLast
  | p => p

/-- Where a part of a path leads from a place; `exists?` says which files of the folder there are.
Only folders can be passed through. -/
def enter (exists? : String → Bool) (p : Place) (part : String) : Except FileFault Place :=
  match p with
  | .file name => .error (if exists? name then .notDirectory else .notFound)
  | .free => .error .notFound
  | .notice | .device _ => .error .notDirectory
  | .here | .folder _ =>
    if part == "" || part == "." then .ok p
    else if part == ".." then .ok p.parent
    else if maxNameLength < part.utf8ByteSize then .error .nameTooLong
    else ((p.child? part).map Except.ok).getD (.error .notFound)

/-- What a path leads to from the folder. -/
def ofPath (exists? : String → Bool) (path : String) : Except FileFault Place :=
  if maxPathLength < path.utf8ByteSize then .error .nameTooLong
  else
    match path.splitOn "/" with
    | [""] => .error .notFound
    | "" :: parts => parts.foldlM (enter exists?) top
    | parts => parts.foldlM (enter exists?) .here

end Place

end ThermalLabel.CommandLine
