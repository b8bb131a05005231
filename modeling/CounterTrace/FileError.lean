/-!
# File errors

What the operating system answers when a file cannot be used.
-/

namespace CounterTrace

/-- Why a file cannot be used. -/
inductive FileError where
  | notFound
  | exists
  | isDirectory
  | notDirectory
  deriving DecidableEq, Repr

def FileError.message : FileError → String
  | .notFound => "No such file or directory (os error 2)"
  | .exists => "File exists (os error 17)"
  | .notDirectory => "Not a directory (os error 20)"
  | .isDirectory => "Is a directory (os error 21)"

end CounterTrace
