import InstallScript.Proofs.Disk.Tree
import InstallScript.Proofs.Result
import InstallScript.Proofs.Text.Pieces

/-!
Finding things on a disk below a path. A path that goes on below another one leads on from where
that one leads, and names that a disk can have lead to what they lead to in the tree found there.
-/

namespace InstallScript

open Text

namespace Disk

section Walk

variable {trail : List (String × Node)} {node : Node}

end Walk

section Find

variable {disk : Disk} {root below : String}

end Find

end Disk

end InstallScript
