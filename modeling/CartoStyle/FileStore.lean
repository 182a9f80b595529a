import CartoStyle.Dictionary

/-!
# Files

`FileAccess` is what a conversion needs of a file system: reading the text of a file and replacing
it. `FileStore` is a file system of its own, in which directories exist as far as files lie in them;
a write takes effect whole or not at all, and leaves the other files as they are
(`get?_files_write_of_ne`).
-/

namespace CartoStyle

/-- Why a file could not be read or written. -/
inductive FileProblem where
  | notFound
  /-- A file where a directory must be. -/
  | notADirectory
  /-- A directory where a file must be. -/
  | isADirectory
  /-- A content that is no text. -/
  | notText
  | other (message : String)
deriving DecidableEq

def FileProblem.message : FileProblem → String
  | .notFound => "No such file or directory (os error 2)"
  | .notADirectory => "Not a directory (os error 20)"
  | .isADirectory => "Is a directory (os error 21)"
  | .notText => "stream did not contain valid UTF-8"
  | .other message => message

/-- Reading and writing the texts of files by their paths. -/
structure FileAccess (m : Type → Type) where
  read : String → m (Except FileProblem String)
  write : String → String → m (Except FileProblem Unit)

/-- The text that some bytes encode. -/
def decodeText (content : ByteArray) : Except FileProblem String :=
  match String.fromUTF8? content with
  | some text => .ok text
  | none => .error .notText

/-- The parts of a path from the working directory. Empty parts and single dots do not count. -/
def pathParts (path : String) : List String :=
  (path.splitOn "/").filter fun part => !(part.isEmpty || part = ".")

/-- Whether a path names a directory by its form. -/
def endsAsDirectory (path : String) : Bool := path.endsWith "/" || path.endsWith "/."

/-- Files by the parts of their paths. -/
structure FileStore where
  files : Dictionary (List String) ByteArray := .empty

namespace FileStore

/-- Whether some parts are the working directory or a directory in which a file lies. -/
def isDirectory (store : FileStore) (parts : List String) : Bool :=
  parts.isEmpty || store.files.keys.any fun file => parts.isPrefixOf file && file != parts

/-- Whether a file stands in the way of some parts, where a directory must be. -/
def isBlocked (store : FileStore) (parts : List String) : Bool :=
  store.files.keys.any fun file => file.isPrefixOf parts && file != parts

/-- The content of a file. -/
def get? (store : FileStore) (path : String) : Option ByteArray := store.files.get? (pathParts path)

def read (store : FileStore) (path : String) : Except FileProblem String :=
  let parts := pathParts path
  if path.isEmpty then .error .notFound
  else if store.isDirectory parts then .error .isADirectory
  else if store.isBlocked parts then .error .notADirectory
  else match store.files.get? parts with
    | none => .error .notFound
    | some content => if endsAsDirectory path then .error .notADirectory else decodeText content

/-- Why a file cannot be written, if it cannot. -/
def writeProblem? (store : FileStore) (path : String) : Option FileProblem :=
  let parts := pathParts path
  if path.isEmpty then some .notFound
  else if store.isDirectory parts then some .isADirectory
  else if store.isBlocked parts then some .notADirectory
  else if !store.isDirectory parts.dropLast then some .notFound
  else if endsAsDirectory path then
    some (if store.files.contains parts then .notADirectory else .isADirectory)
  else none

/-- Replaces the content of a file, if that is possible. -/
def write (store : FileStore) (path text : String) : Except FileProblem Unit × FileStore :=
  match store.writeProblem? path with
  | some problem => (.error problem, store)
  | none => (.ok (), { files := store.files.insert (pathParts path) text.toUTF8 })

theorem write_of_problem {store : FileStore} {path : String} {problem : FileProblem}
    (refused : store.writeProblem? path = some problem) (text : String) :
    store.write path text = (.error problem, store) := by
  simp [write, refused]

theorem get?_write_self {store : FileStore} {path : String}
    (possible : store.writeProblem? path = none) (text : String) :
    (store.write path text).2.get? path = some text.toUTF8 := by
  simp [write, possible, get?]

theorem get?_files_write_of_ne (store : FileStore) {path : String} {file : List String}
    (different : file ≠ pathParts path) (text : String) :
    (store.write path text).2.files.get? file = store.files.get? file := by
  unfold write
  split
  · rfl
  · exact Dictionary.get?_insert_of_ne _ different.symm _

/-- A store as a file system. -/
def access : FileAccess (StateM FileStore) where
  read path store := (store.read path, store)
  write path text store := store.write path text

end FileStore

end CartoStyle
