import Warden.Agent.Path

/-!
What is launched.

A command names an executable, the directory in which it runs and the arguments it is given, word
for word.
-/

namespace Warden.Agent

structure Command where
  path : String
  directory : String
  arguments : List String
  deriving DecidableEq, Repr

/-- The command that runs the agent `name`, which lives in `directory`, there. -/
def Command.ofName (p : Platform) (name directory : String) (arguments : List String) : Command :=
  ⟨Agent.path p directory name, directory, arguments⟩

end Warden.Agent
