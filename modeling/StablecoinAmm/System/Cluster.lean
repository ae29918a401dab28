import StablecoinAmm.Chain.Options
import StablecoinAmm.System.Funding

/-!
# System — the programs and the options of accounts

The chain with the delegates, guards and memos that its ledger leaves out: `Cluster` adds the
options of every token account, and `Cluster.step` is `Chain.step` with what they say to each
payment that the instruction makes.

To the ledger a delegate is the owner, in whose place it acts (`Cluster.asOwner`).  Who signs is
asked of the delegate.  What a program's call has taken from an account is read off the ledgers.
-/

namespace StablecoinAmm
open Support

structure Cluster where
  chain : Chain
  options : Pubkey → AccountOptions

/-- An instruction of the programs, of Token-2022 or of the system program, after a memo or not;
or one that changes the options of an account. -/
inductive ClusterAction where
  | send (x : ChainAction) (afterMemo : Bool)
  | setOption (account authority : Pubkey) (change : OptionChange)

/-- The signature of a direct instruction, which may be a delegate's. -/
def Action.authority : Action → Option Pubkey
  | .transfer c .. => some c.authority
  | .burnDirect c .. => some c.authority
  | _ => none

def Ledger.TransferChecked.payment (c : Ledger.TransferChecked) (amount : ℕ) : Payment :=
  ⟨c.source, some c.destination, c.authority, amount⟩

/-- The payments that an action has made, if it has made `w'` of `w`. -/
def Action.payments (w w' : World) (a : Action) : List Payment :=
  let taken (k : Pubkey) := w.ledger.balance k - w'.ledger.balance k
  match a with
  | .burn ctx amount => [⟨ctx.source, none, ctx.owner, amount⟩]
  | .addLiquidity ctx .. =>
      [⟨ctx.userA, some ctx.vaultA, ctx.user, taken ctx.userA⟩,
        ⟨ctx.userB, some ctx.vaultB, ctx.user, taken ctx.userB⟩]
  | .removeLiquidity ctx lpAmount _ _ =>
      [⟨ctx.userLp, none, ctx.user, lpAmount⟩,
        ⟨ctx.vaultA, some ctx.userA, ctx.pool, taken ctx.vaultA⟩,
        ⟨ctx.vaultB, some ctx.userB, ctx.pool, taken ctx.vaultB⟩]
  | .swap ctx d amountIn _ =>
      [(ctx.transferIn d).payment amountIn,
        (ctx.transferOut d).payment (taken (ctx.transferOut d).source)]
  | .transfer c amount _ => [c.payment amount]
  | .burnDirect c amount _ => [⟨c.source, none, c.authority, amount⟩]
  | _ => []

namespace Cluster

/-- In whose place `authority` takes from the account: its owner's, if it is the delegate. -/
def principal (s : Cluster) (account authority : Pubkey) : Pubkey :=
  match s.chain.world.ledger.tokens account with
  | some a => if (s.options account).Delegated authority then a.owner else authority
  | none => authority

/-- The action, as the ledger knows it. -/
def asOwner (s : Cluster) : Action → Action
  | .transfer c amount decimals =>
      .transfer { c with authority := s.principal c.source c.authority } amount decimals
  | .burnDirect c amount decimals =>
      .burnDirect { c with authority := s.principal c.source c.authority } amount decimals
  | a => a

/-- What an action that has made `w'` does to the options. -/
def settleOptions (s : Cluster) (w' : World) (afterMemo : Bool) (a : Action) :
    Except OptionError (Pubkey → AccountOptions) :=
  match a with
  | .createAccount account .. | .closeAccount account _ =>
      pure (Function.update s.options account .unset)
  | .setOwner account _ _ => do
      require (¬ (s.options account).cpiGuard) .cpiGuardBlocked
      pure (Function.update s.options account { s.options account with delegation := none })
  | .transfer .. | .burnDirect .. =>
      payAllWith s.chain.world.ledger false afterMemo s.options (a.payments s.chain.world w')
  | _ => payAllWith s.chain.world.ledger true false s.options (a.payments s.chain.world w')

inductive Refusal where
  | chain (e : Fault StepError)
  | option (e : OptionError)
  deriving DecidableEq

def step (rt : Runtime) (s : Cluster) : ClusterAction → Except Refusal Cluster
  | .send (.act a destination) afterMemo => do
      require (∀ k ∈ a.authority, k.isSigner) (.option .missingRequiredSignature)
      let chain ← (s.chain.step rt (.act (s.asOwner a) destination)).mapError .chain
      let options ← (s.settleOptions chain.world afterMemo a).mapError .option
      pure { chain, options }
  | .send (.system i) _ => do
      let chain ← (s.chain.step rt (.system i)).mapError .chain
      pure { s with chain }
  | .setOption account authority change => do
      require authority.isSigner (.option .missingRequiredSignature)
      let a ← okOr (s.chain.world.ledger.tokens account) (.option .uninitializedState)
      let o ← ((s.options account).change a authority change).mapError .option
      pure { s with options := Function.update s.options account o }

/-- The cluster before either program has been used. -/
structure IsGenesis (s : Cluster) : Prop where
  chain : s.chain.IsGenesis
  options : s.options = fun _ => .unset

/-- Some run from genesis ends in `s`. -/
def Reachable (rt : Runtime) (s : Cluster) : Prop := Support.Reachable (step rt) IsGenesis s

end Cluster

end StablecoinAmm
