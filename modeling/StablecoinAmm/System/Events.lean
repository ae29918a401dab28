import StablecoinAmm.Amm.Events
import StablecoinAmm.Stablecoin.Events
import StablecoinAmm.Support.Logs
import StablecoinAmm.System.Step

/-!
# System — the log

What the two programs write as the chain runs.  Token-2022 writes none of these events, so what
outsiders send to it directly leaves no trace here.
-/

namespace StablecoinAmm
open Support

inductive Event where
  | stablecoin (e : StablecoinEvent)
  | amm (e : AmmEvent)
  deriving DecidableEq

/-- What an action writes when it succeeds in `w`. -/
def Action.emitted (w : World) : Action → List Event
  | .initializeStablecoin ctx symbol _ _ decimals supplyCap =>
      ((ctx.emitted symbol decimals supplyCap).map .stablecoin).toList
  | .grantMinter ctx allowance => ((ctx.emitted allowance).map .stablecoin).toList
  | .revokeMinter ctx => ((ctx.emitted w).map .stablecoin).toList
  | .setWalletPolicy ctx status unixTimestamp =>
      ((ctx.emitted w status unixTimestamp).map .stablecoin).toList
  | .mintTo ctx amount => ((ctx.emitted w amount).map .stablecoin).toList
  | .burn ctx amount => ((ctx.emitted w amount).map .stablecoin).toList
  | .setPause ctx paused => ((ctx.emitted paused).map .stablecoin).toList
  | .updateConfig ctx supplyCap complianceAuthority pendingAdmin =>
      ((ctx.emitted w supplyCap complianceAuthority pendingAdmin).map .stablecoin).toList
  | .acceptAdmin ctx => ((ctx.emitted w).map .stablecoin).toList
  | .initializePool ctx feeBps => ((ctx.emitted w feeBps).map .amm).toList
  | .addLiquidity ctx aDesired bDesired _ _ _ =>
      ((ctx.addEmitted w aDesired bDesired).map .amm).toList
  | .removeLiquidity ctx lpAmount _ _ => ((ctx.removeEmitted w lpAmount).map .amm).toList
  | .swap ctx direction amountIn _ => ((ctx.swapEmitted w direction amountIn).map .amm).toList
  | .createAccount .. | .transfer .. | .burnDirect .. | .setOwner .. | .closeAccount .. => []

/-- The event is of the kind that the action writes, and names its accounts and arguments. -/
inductive Event.Of : Action → Event → Prop where
  | stablecoinInitialized {ctx : InitializeStablecoin} {symbol : Symbol} {name uri : List UInt8}
      {decimals supplyCap : ℕ} :
      Of (.initializeStablecoin ctx symbol name uri decimals supplyCap) (.stablecoin
        (.stablecoinInitialized ctx.mint ctx.config ctx.payer symbol decimals supplyCap))
  | minterGranted {ctx : GrantMinter} {allowance : ℕ} :
      Of (.grantMinter ctx allowance)
        (.stablecoin (.minterGranted ctx.config ctx.authority allowance))
  | minterRevoked {ctx : RevokeMinter} {minted : ℕ} :
      Of (.revokeMinter ctx) (.stablecoin (.minterRevoked ctx.config ctx.authority minted))
  | walletPolicyChanged {ctx : SetWalletPolicy} {status : PolicyStatus} {unixTimestamp : ℤ}
      {owner : Pubkey} :
      Of (.setWalletPolicy ctx status unixTimestamp) (.stablecoin (.walletPolicyChanged ctx.mint
        ctx.tokenAccount owner status ctx.complianceAuthority unixTimestamp))
  | tokensMinted {ctx : MintTo} {amount minterMinted supply : ℕ} :
      Of (.mintTo ctx amount) (.stablecoin (.tokensMinted ctx.mint ctx.minter ctx.destination amount
        minterMinted supply))
  | tokensBurned {ctx : Burn} {amount supply : ℕ} :
      Of (.burn ctx amount)
        (.stablecoin (.tokensBurned ctx.mint ctx.owner ctx.source amount supply))
  | pauseChanged {ctx : SetPause} {paused : Bool} :
      Of (.setPause ctx paused) (.stablecoin (.pauseChanged ctx.mint ctx.authority paused))
  | configUpdated {ctx : UpdateConfig} {supplyCap : Option ℕ}
      {complianceAuthority pendingAdmin : Option Pubkey} {c : MintConfig} :
      Of (.updateConfig ctx supplyCap complianceAuthority pendingAdmin) (.stablecoin
        (.configUpdated c.mint c.admin c.supplyCap c.complianceAuthority c.pendingAdmin))
  | adminAccepted {ctx : AcceptAdmin} {c : MintConfig} :
      Of (.acceptAdmin ctx) (.stablecoin (.adminAccepted c.mint c.admin ctx.pendingAdmin))
  | poolInitialized {ctx : InitializePool} {feeBps decimals : ℕ} :
      Of (.initializePool ctx feeBps) (.amm
        (.poolInitialized ctx.pool ctx.mintA ctx.mintB ctx.lpMint feeBps decimals))
  | liquidityAdded {ctx : LiquidityAccounts} {aDesired bDesired aMin bMin minLpOut : ℕ}
      {amountA amountB lpMinted reserveA reserveB lpSupply : ℕ} :
      Of (.addLiquidity ctx aDesired bDesired aMin bMin minLpOut) (.amm
        (.liquidityAdded ctx.pool ctx.user amountA amountB lpMinted reserveA reserveB lpSupply))
  | liquidityRemoved {ctx : LiquidityAccounts} {lpAmount minAOut minBOut : ℕ}
      {amountA amountB reserveA reserveB lpSupply : ℕ} :
      Of (.removeLiquidity ctx lpAmount minAOut minBOut) (.amm
        (.liquidityRemoved ctx.pool ctx.user lpAmount amountA amountB reserveA reserveB lpSupply))
  | swapExecuted {ctx : PoolAccounts} {d : SwapDirection} {amountIn minAmountOut : ℕ}
      {amountOut reserveA reserveB : ℕ} :
      Of (.swap ctx d amountIn minAmountOut) (.amm
        (.swapExecuted ctx.pool ctx.user d amountIn amountOut reserveA reserveB))

/-- The log of a history. -/
def World.log (w : World) (as : List Action) : List Event :=
  logAlong step Action.emitted w as

/-- An instruction of one of the two programs. -/
def Action.isInstruction : Action → Bool
  | .createAccount .. | .transfer .. | .burnDirect .. | .setOwner .. | .closeAccount .. => false
  | _ => true

/-- **No event is attributed to another action's accounts.** -/
theorem Action.emitted_of (w : World) {a : Action} {e : Event} (h : e ∈ a.emitted w) :
    e.Of a := by
  cases a with
  | createAccount | transfer | burnDirect | setOwner | closeAccount => cases h
  | _ =>
      simp only [Action.emitted, InitializeStablecoin.emitted, GrantMinter.emitted,
        RevokeMinter.emitted, SetWalletPolicy.emitted, MintTo.emitted, Burn.emitted,
        SetPause.emitted, UpdateConfig.emitted, AcceptAdmin.emitted, InitializePool.emitted,
        LiquidityAccounts.addEmitted, LiquidityAccounts.removeEmitted, PoolAccounts.swapEmitted,
        Option.mem_toList, Option.map_eq_some_iff, Option.bind_eq_bind,
        Option.bind_eq_some_iff, Option.pure_def, Option.some.injEq] at h
      grind [Event.Of]

end StablecoinAmm
