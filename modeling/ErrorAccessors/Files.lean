/-
# Access to files

Everything that this library does with files goes through the small interface
`Files`, so that commands can run on the files of a machine as well as on a
tree of files in memory.  Every operation that can fail answers with a reason.
-/

namespace ErrorAccessors

/-- Why an operation on a file failed. -/
inductive FileError where
  | notFound
  | alreadyExists
  | notDirectory
  | isDirectory
  | nameTooLong
  | badName
  | notText
  /-- Another reason, in the words of the system. -/
  | other (text : String)
deriving DecidableEq, Repr, Inhabited

/-- What is said about a failed operation. -/
def FileError.message : FileError → String
  | notFound => "No such file or directory (os error 2)"
  | alreadyExists => "File exists (os error 17)"
  | notDirectory => "Not a directory (os error 20)"
  | isDirectory => "Is a directory (os error 21)"
  | nameTooLong => "File name too long (os error 36)"
  | badName => "file name contained an unexpected NUL byte"
  | notText => "stream did not contain valid UTF-8"
  | other text => text

/-- Operations on files, each given a path. -/
class Files (m : Type → Type) where
  isFile : String → m Bool
  isDirectory : String → m Bool
  /-- The text of a file. -/
  read : String → m (Except FileError String)
  /-- Write a text to a file, replacing what it held. -/
  write : String → String → m (Except FileError Unit)
  /-- The names of the entries of a directory. -/
  list : String → m (Except FileError (List String))
  /-- Make a directory and every missing one above it. -/
  createDirectories : String → m (Except FileError Unit)
  /-- Remove a file. -/
  remove : String → m (Except FileError Unit)
  /-- A text that two paths share exactly if they lead to the same place. -/
  location? : String → m (Option String)

instance {m : Type → Type} {σ : Type} [Monad m] [Files m] : Files (StateT σ m) where
  isFile path := liftM (m := m) (Files.isFile path)
  isDirectory path := liftM (m := m) (Files.isDirectory path)
  read path := liftM (m := m) (Files.read path)
  write path text := liftM (m := m) (Files.write path text)
  list path := liftM (m := m) (Files.list path)
  createDirectories path := liftM (m := m) (Files.createDirectories path)
  remove path := liftM (m := m) (Files.remove path)
  location? path := liftM (m := m) (Files.location? path)

instance {m : Type → Type} {ε : Type} [Monad m] [Files m] : Files (ExceptT ε m) where
  isFile path := liftM (m := m) (Files.isFile path)
  isDirectory path := liftM (m := m) (Files.isDirectory path)
  read path := liftM (m := m) (Files.read path)
  write path text := liftM (m := m) (Files.write path text)
  list path := liftM (m := m) (Files.list path)
  createDirectories path := liftM (m := m) (Files.createDirectories path)
  remove path := liftM (m := m) (Files.remove path)
  location? path := liftM (m := m) (Files.location? path)

end ErrorAccessors
