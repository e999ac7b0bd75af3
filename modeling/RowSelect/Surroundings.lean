import RowSelect.Failure

/-!
What a program finds around it: the variables of its environment and the files it can read. The
operations run in any monad, so that the same code answers for given files and for those of the
machine.
-/

set_option autoImplicit false

namespace RowSelect

structure Surroundings (m : Type → Type) where
  lookup : String → m (Option String)
  /-- The home directory on record for the user, whatever the environment says. -/
  recordedHome : m (Option String)
  readText : String → m (Except FileFault String)
  hasPath : String → m Bool

end RowSelect
