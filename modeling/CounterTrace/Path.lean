/-!
# Paths

Paths are texts with parts separated by slashes.  Putting a name below a directory adds a slash
unless there is one; a name that starts with a slash stands for itself.
-/

namespace CounterTrace.Path

def join (dir name : String) : String :=
  if name.startsWith "/" || dir.isEmpty then name
  else if dir.endsWith "/" then dir ++ name
  else dir ++ "/" ++ name

end CounterTrace.Path
