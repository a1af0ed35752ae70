/-!
Where the agent's executable lives.

The agent's name, with the ending that the system gives to executables, is joined to its directory.
How paths are joined is the system's matter too.
-/

namespace Warden.Agent

/-- What the paths of executables are like on a system. -/
structure Platform where
  /-- The path of what is named in a directory. -/
  join : String → String → String
  /-- What the names of executables end in. -/
  suffix : String

namespace Platform

/-- An absolute name stands for itself, and a separator is added only behind a directory that is not
empty and does not already end in one. -/
def joinAt (separator dir name : String) : String :=
  if name.startsWith separator then name
  else if dir.isEmpty || dir.endsWith separator then dir ++ name
  else dir ++ separator ++ name

def unix : Platform := ⟨joinAt "/", ""⟩

end Platform

/-- The path of the agent named `name` in `dir`. -/
def path (p : Platform) (dir name : String) : String := p.join dir (name ++ p.suffix)

end Warden.Agent
