import StablecoinAmm.Funding.Prefunding
import StablecoinAmm.System.Options

/-!
# System — histories of the cluster

Histories run with lamports and options as well.  `issued` is the cluster after the history of
`lopsided`: its issuer has paid for every account, and nobody has set an option yet.
-/

namespace StablecoinAmm
open Support

/-- The cluster after a history, or the error of the first action that fails. -/
def Cluster.after (rt : Runtime) (s : Cluster) (xs : List ClusterAction) :
    Except Cluster.Refusal Cluster := xs.foldlM (Cluster.step rt) s

/-- The cluster after a history that succeeds. -/
def Cluster.afterAll (rt : Runtime) (s : Cluster) (xs : List ClusterAction) : Cluster :=
  (s.after rt xs).toOption.getD s

theorem Cluster.run_afterAll {rt : Runtime} {s : Cluster} {xs : List ClusterAction}
    (h : (s.after rt xs).isOk) : Run (Cluster.step rt) s xs (s.afterAll rt xs) := by
  rw [Run.iff_foldlM, afterAll]
  cases hs : s.after rt xs with
  | ok s' => exact hs
  | error e => rw [hs] at h; cases h

/-- An action whose lamports, if it gives any back, go to nobody in particular. -/
def Action.sent (a : Action) : ClusterAction := .send (.act a .default) false

namespace Issued
open Lopsided

/-- Two keys have lamports, and the others space for a token account. -/
def bank : Bank where
  info
    | .external 0 | .external 1 => ⟨1000000000, 0, .system⟩
    | .external _ => ⟨10000000, 200, .token2022⟩
    | _ => ⟨0, 0, .system⟩

def genesis : Cluster := ⟨⟨World.genesis addressBytes, bank⟩, fun _ => .unset⟩

theorem genesis_isGenesis : genesis.IsGenesis where
  chain :=
    { world := ⟨_, rfl⟩
      derived := fun k hk => by cases k <;> first | exact ⟨rfl, rfl⟩ | exact absurd rfl hk }
  options := rfl

end Issued

open Issued Lopsided in
def issued : Cluster := genesis.afterAll Squatted.runtime (history.map Action.sent)

open Issued Lopsided in
theorem issued_run : Run (Cluster.step Squatted.runtime) genesis (history.map Action.sent) issued :=
  Cluster.run_afterAll (by decide +kernel)

theorem issued_reachable : issued.Reachable Squatted.runtime :=
  ⟨_, _, Issued.genesis_isGenesis, issued_run⟩

/-- The issuer has paid the rents of two stablecoins, of a pool and of the roles and policies. -/
example : (issued.chain.bank.info Lopsided.issuer).lamports = 965220880 := by decide +kernel

end StablecoinAmm
