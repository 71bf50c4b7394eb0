/-
Loading a configuration. Whatever a file holds, reading it should end in a
configuration or in a failure of the configuration (`Config.Settled`), so
that a caller has one kind of fault to expect.

Each step of the parser keeps to that but one. The ids of the providers are
walked before it is known that they are a list, and each of them is written
out; both can fail by themselves (`Config.parse_error`). And a file whose
document counts as nothing is taken for one without entries, whatever the
document is: so a list is refused, but not if it is empty
(`Config.loading_is_settled`).
-/
import Depot.Config.Loader
import Depot.Proofs.Config.Checked

namespace Depot

variable {σ α : Type}

-- ================================================================= data

namespace Data

end Data

namespace Config

-- ================================================================ steps

/-- Whether a result is there, or a failure of the configuration. -/
def Settled (r : Except Fault α) : Prop :=
  ∀ fault, r = .error fault → fault.kind? = some .configuration

section Steps

variable {everyone : Registry σ} {source : Value}

end Steps

-- ================================================================ files

section Files

variable {everyone : Registry σ} {files : Files} {settings : Except Fault Settings}
  {path : Option String} {name text : String} {data : Data}

end Files

-- ========================================================== main result

end Config

end Depot
