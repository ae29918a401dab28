import StablecoinAmm.Admission.Trading
import StablecoinAmm.Locality.Writes

/-!
# Locality — instructions in parallel

The two programs, seen through the accounts of the instructions, have footprints
(`World.footprint`), so instructions that share no account that either may write are independent.
`instructions_local` is what that means: such instructions, and whole batches of attempts at them,
may be interleaved at will.

Two trades share a mint and its configuration when their pools have a stablecoin in common, but
only read them.  So what different users do on different pools is independent
(`pools_independent`).
-/

namespace StablecoinAmm
open Support Ledger

/-- What the instructions touch, in a world in order. -/
def World.footprint : Footprint World.cells step World.Inv where
  names := Action.names
  mutable := Action.mutable
  kept := step_inv
  reads _ _ _ := step_splice (List.Subset.refl _)
  writes _ _ _ hw h _ hk := step_writes hw h hk

/-- **Instructions are local.**  In a reachable world, an instruction changes none but the accounts
it declares mutable; it does the same in every world where the accounts it names are the same; and
two batches of attempts, each of one independent of each of the other, lead to one world in every
interleaving, in which each attempt ends as it would if the other batch were not there. -/
theorem instructions_local {w : World} (hw : w.Reachable) :
    (∀ a w', step w a = .ok w' → ∀ k, k ∉ a.mutable → World.cells w' k = World.cells w k) ∧
      (∀ a v, (∀ k ∈ a.names, World.cells v k = World.cells w k) →
        step v a = (fun w' => World.splice a.names w' v) <$> step w a) ∧
      ∀ as bs cs : List Action, (∀ a ∈ as, ∀ b ∈ bs, a.Independent b) →
        Interleaved as bs cs →
        attempts step w cs = attempts step (attempts step w as) bs ∧
          Interleaved (reports step w as) (reports step w bs) (reports step w cs) := by
  refine ⟨fun a w' h k hk => step_writes hw.inv h hk, fun a v hv => ?_, fun as bs cs hi hc => ?_⟩
  · have hsplice : World.splice a.names w v = v :=
      splice_of_agree fun k hk => (hv k hk).symm
    conv_lhs => rw [← hsplice]
    exact step_splice (List.Subset.refl _)
  · exact World.footprint.interleaved hc hi hw.inv

open Lopsided in
/-- While a user swaps, a stranger opens an account and the admin appoints a minter. -/
def strangers : List Action :=
  [.createAccount (.external 9) mintA (.external 9) false,
    .grantMinter
      { admin := issuer, config := .config mintA, authority := .external 9,
        minterRole := .minterRole (.config mintA) (.external 9) } 1000]

open Lopsided in
theorem instructions_local_lopsided :
    attempts step lopsided
        [.createAccount (.external 9) mintA (.external 9) false,
          .swap accounts.toPoolAccounts .aToB 3 600000,
          .grantMinter
            { admin := issuer, config := .config mintA, authority := .external 9,
              minterRole := .minterRole (.config mintA) (.external 9) } 1000] =
      attempts step (attempts step lopsided [.swap accounts.toPoolAccounts .aToB 3 600000])
        strangers :=
  ((instructions_local lopsided_reachable).2.2 [.swap accounts.toPoolAccounts .aToB 3 600000]
    strangers _ (by decide) (.right (.left (.right .nil)))).1

/-! ### Trades on different pools -/

/-- The pool that an address is derived for. -/
def Pubkey.poolOf : Pubkey → Option Pubkey
  | .pool mintA mintB => some (.pool mintA mintB)
  | .vault p _ | .lpMint p | .lockedLp p => some p
  | _ => none

/-- The accounts of the pool at `p`, and the token accounts of `u`. -/
def World.Held (w : World) (p u k : Pubkey) : Prop :=
  k.poolOf = some p ∨ ∃ m, w.ledger.HasAccount k m u

/-- What a trade of `u` on the pool at `p` names: these, the user, and accounts of the issuers. -/
def World.Seen (w : World) (p u k : Pubkey) : Prop :=
  w.Held p u k ∨ k = u ∨ k.isSigner = false ∧ k.poolOf = none

/-- The accounts of the pool and of the user. -/
def PoolAccounts.own (ctx : PoolAccounts) : List Pubkey :=
  [ctx.pool, ctx.vaultA, ctx.vaultB, ctx.lpMint, ctx.userA, ctx.userB]

def LiquidityAccounts.own (ctx : LiquidityAccounts) : List Pubkey :=
  ctx.lockedLp :: ctx.userLp :: ctx.toPoolAccounts.own

/-- The accounts named are of the pool, of the user, or of the issuers; nothing is said of what
they hold. -/
structure PoolAccounts.Drawn (w : World) (ctx : PoolAccounts) : Prop where
  own : ∀ k ∈ ctx.own, w.Held ctx.pool ctx.user k
  issuers : ∀ k ∈ [ctx.mintA, ctx.mintB, ctx.configA, ctx.configB, ctx.policyA, ctx.policyB],
    k.isSigner = false ∧ k.poolOf = none

structure LiquidityAccounts.Drawn (w : World) (ctx : LiquidityAccounts) : Prop
    extends ctx.toPoolAccounts.Drawn w where
  lockedLp : w.Held ctx.pool ctx.user ctx.lockedLp
  userLp : w.Held ctx.pool ctx.user ctx.userLp

/-- A trade of `u` on the pool at `p`, or an attempt at one. -/
def Action.Deals (w : World) (p u : Pubkey) : Action → Prop
  | .addLiquidity ctx .. | .removeLiquidity ctx .. => ctx.pool = p ∧ ctx.user = u ∧ ctx.Drawn w
  | .swap ctx .. => ctx.pool = p ∧ ctx.user = u ∧ ctx.Drawn w
  | _ => False

section
variable {w : World} {p q u v k : Pubkey} {P : Pool}

/-- With the accounts of a pool that exists and its own, whatever state they are in. -/
theorem PoolAccounts.Proper.drawn {ctx : PoolAccounts} (hs : w.Shape) (h : ctx.Proper w P) :
    ctx.Drawn w := by
  have hp := (hs.pool _ _ h.pool).placed
  obtain ⟨sA, hA⟩ := hp.mintA
  obtain ⟨sB, hB⟩ := hp.mintB
  constructor
  · simp only [PoolAccounts.own, List.forall_mem_cons]
    exact ⟨.inl (by rw [hp.key]; rfl), .inl (by rw [h.vaultA, hp.vaultA]; rfl),
      .inl (by rw [h.vaultB, hp.vaultB]; rfl), .inl (by rw [h.lpMint, hp.lpMint]; rfl),
      .inr ⟨_, h.userA.hasAccount⟩, .inr ⟨_, h.userB.hasAccount⟩, List.forall_mem_nil _⟩
  · simp only [List.forall_mem_cons, h.mintA, h.mintB, h.configA, h.configB, h.policyA, h.policyB,
      hA, hB]
    exact ⟨⟨rfl, rfl⟩, ⟨rfl, rfl⟩, ⟨rfl, rfl⟩, ⟨rfl, rfl⟩, ⟨rfl, rfl⟩, ⟨rfl, rfl⟩,
      List.forall_mem_nil _⟩

theorem LiquidityAccounts.Proper.drawn {ctx : LiquidityAccounts} (hs : w.Shape)
    (h : ctx.Proper w P) : ctx.Drawn w where
  toDrawn := h.toProper.drawn hs
  lockedLp := .inl (by
    have hp := (hs.pool _ _ h.pool).placed
    rw [h.lockedLp, hp.lockedLp]; rfl)
  userLp := .inr ⟨_, h.userLp⟩

theorem PoolAccounts.Drawn.seen {ctx : PoolAccounts} (h : ctx.Drawn w) :
    ∀ k ∈ ctx.names, w.Seen ctx.pool ctx.user k := by
  have hown : ∀ k ∈ ctx.own, w.Seen ctx.pool ctx.user k := fun k hk => .inl (h.own k hk)
  have hissuers := h.issuers
  simp only [PoolAccounts.own, List.forall_mem_cons] at hown hissuers
  obtain ⟨hpool, hvaultA, hvaultB, hlp, huserA, huserB, -⟩ := hown
  obtain ⟨hmintA, hmintB, hconfigA, hconfigB, hpolicyA, hpolicyB, -⟩ := hissuers
  simp only [PoolAccounts.names, List.forall_mem_cons]
  exact ⟨.inr (.inl rfl), hpool, .inr (.inr hmintA), .inr (.inr hmintB), .inr (.inr hconfigA),
    .inr (.inr hconfigB), hvaultA, hvaultB, hlp, huserA, huserB, .inr (.inr hpolicyA),
    .inr (.inr hpolicyB), List.forall_mem_nil _⟩

theorem LiquidityAccounts.Drawn.held {ctx : LiquidityAccounts} (h : ctx.Drawn w) :
    ∀ k ∈ ctx.own, w.Held ctx.pool ctx.user k := by
  rw [LiquidityAccounts.own, List.forall_mem_cons, List.forall_mem_cons]
  exact ⟨h.lockedLp, h.userLp, h.own⟩

theorem LiquidityAccounts.Drawn.seen {ctx : LiquidityAccounts} (h : ctx.Drawn w) :
    ∀ k ∈ ctx.names, w.Seen ctx.pool ctx.user k := by
  rw [LiquidityAccounts.names, List.forall_mem_cons, List.forall_mem_cons]
  exact ⟨.inl h.lockedLp, .inl h.userLp, h.toDrawn.seen⟩

namespace Action.Deals
variable {a b : Action}

theorem held (h : a.Deals w p u) (hk : k ∈ a.mutable) : w.Held p u k := by
  cases a with
  | addLiquidity ctx =>
      obtain ⟨rfl, rfl, h⟩ := h
      refine h.held k ?_
      simp only [Action.mutable, LiquidityAccounts.own, PoolAccounts.own, List.mem_cons] at hk ⊢
      tauto
  | removeLiquidity ctx =>
      obtain ⟨rfl, rfl, h⟩ := h
      refine h.held k ?_
      simp only [Action.mutable, LiquidityAccounts.own, PoolAccounts.own, List.mem_cons] at hk ⊢
      tauto
  | swap ctx =>
      obtain ⟨rfl, rfl, h⟩ := h
      refine h.own k ?_
      simp only [Action.mutable, PoolAccounts.own, List.mem_cons] at hk ⊢
      tauto
  | _ => exact h.elim

theorem seen (h : a.Deals w p u) (hk : k ∈ a.names) : w.Seen p u k := by
  cases a with
  | addLiquidity ctx | removeLiquidity ctx =>
      obtain ⟨rfl, rfl, h⟩ := h
      exact h.seen k hk
  | swap ctx =>
      obtain ⟨rfl, rfl, h⟩ := h
      exact h.seen k hk
  | _ => exact h.elim

end Action.Deals

theorem Pubkey.poolOf_of_isSigner (hk : k.isSigner) : k.poolOf = none := by
  obtain ⟨n, rfl⟩ := Pubkey.isSigner_iff.mp hk
  rfl

/-- Users keep their tokens at addresses that are not derived. -/
theorem World.Anchored.account (hA : w.Anchored) {m : Pubkey} (hu : u.isSigner)
    (hk : w.ledger.HasAccount k m u) : k.isSigner := by
  obtain ⟨a, ha, -, rfl⟩ := hk
  by_contra hn
  exact hA.owner k a ha hn hu

/-- What belongs to one pool or user is not named in a trade of another user on another pool. -/
theorem World.Held.not_seen (hA : w.Anchored) (hpq : p ≠ q) (huv : u ≠ v) (hu : u.isSigner)
    (hv : v.isSigner) (hfree : w.ledger.tokens v = none) (hk : w.Held p u k) :
    ¬ w.Seen q v k := by
  rcases hk with hp | ⟨m, hacc⟩
  · rintro ((hq | ⟨m, hacc⟩) | rfl | ⟨-, hnone⟩)
    · exact hpq (Option.some.inj (hp.symm.trans hq))
    · cases hp.symm.trans (Pubkey.poolOf_of_isSigner (hA.account hv hacc))
    · cases hp.symm.trans (Pubkey.poolOf_of_isSigner hv)
    · cases hp.symm.trans hnone
  · have hsigner := hA.account hu hacc
    rintro ((hq | ⟨m', hacc'⟩) | rfl | ⟨hn, -⟩)
    · cases hq.symm.trans (Pubkey.poolOf_of_isSigner hsigner)
    · exact hacc.ne_of_owner hacc' huv rfl
    · obtain ⟨a, ha, -⟩ := hacc
      cases hfree.symm.trans ha
    · cases hsigner.symm.trans hn

theorem World.Reachable.anchored (hw : w.Reachable) : w.Anchored := by
  have hinv : w.Inv ∧ w.Anchored := by
    refine Reachable.invariant (I := fun w => w.Inv ∧ w.Anchored) ?_ ?_ hw
    · rintro _ ⟨addressBytes, rfl⟩
      exact ⟨inv_genesis addressBytes, anchored_genesis addressBytes⟩
    · rintro w a w' ⟨hw, hA⟩ h
      exact ⟨step_inv _ _ _ hw h, (step_effect hw h).anchored hw.shape hA⟩
  exact hinv.2

/-- The key of a user, at which there is no token account. -/
structure World.IsUser (w : World) (u : Pubkey) : Prop where
  signer : u.isSigner
  free : w.ledger.tokens u = none

/-- A trade on another pool than `p`, of another user than `u`, or an attempt at one. -/
def Action.DealsElsewhere (w : World) (p u : Pubkey) (b : Action) : Prop :=
  ∃ q v, p ≠ q ∧ u ≠ v ∧ w.IsUser v ∧ b.Deals w q v

section
variable {a b : Action}

theorem Action.Deals.independent (hw : w.Reachable) (hu : w.IsUser u)
    (ha : a.Deals w p u) (hb : b.DealsElsewhere w p u) : a.Independent b := by
  obtain ⟨q, v, hpq, huv, hv, hb⟩ := hb
  refine ⟨fun k hk hn => ?_, fun k hk hn => ?_⟩
  · exact (ha.held hk).not_seen hw.anchored hpq huv hu.signer hv.signer hv.free (hb.seen hn)
  · exact (hb.held hk).not_seen hw.anchored hpq.symm huv.symm hv.signer hu.signer hu.free
      (ha.seen hn)

theorem Action.DealsElsewhere.unwritten (hw : w.Reachable) (hu : u.isSigner)
    (hb : b.DealsElsewhere w p u) (hk : w.Held p u k) : k ∉ b.mutable := by
  obtain ⟨q, v, hpq, huv, hv, hb⟩ := hb
  exact fun hm => hk.not_seen hw.anchored hpq huv hu hv.signer hv.free (.inl (hb.held hm))

/-- **Pools do not interfere.**  However what a user attempts on one pool is interleaved with what
other users attempt on other pools, which may share a stablecoin with it, every attempt ends as it
would without the others, with its result or its error, and the pool and all accounts of the user
end up as if the others had done nothing. -/
theorem pools_independent (hw : w.Reachable) (hu : w.IsUser u) {as bs cs : List Action}
    (has : ∀ a ∈ as, a.Deals w p u) (hbs : ∀ b ∈ bs, b.DealsElsewhere w p u)
    (hc : Interleaved as bs cs) :
    attempts step w cs = attempts step (attempts step w as) bs ∧
      (∀ k, w.Held p u k →
        World.cells (attempts step w cs) k = World.cells (attempts step w as) k) ∧
      Interleaved (reports step w as) (reports step w bs) (reports step w cs) := by
  obtain ⟨heq, hreports⟩ := World.footprint.interleaved hc
    (fun a ha b hb => (has a ha).independent hw hu (hbs b hb)) hw.inv
  refine ⟨heq, fun k hk => ?_, hreports⟩
  rw [heq]
  exact World.footprint.attempts_unwritten (attempts_invariant step_inv hw.inv as) fun b hb =>
    (hbs b hb).unwritten hw hu.signer hk

end

end

/-! ### Two pools that share a stablecoin -/

namespace Lopsided

def symbolC : Symbol := ⟨[67, 0, 0, 0, 0, 0, 0, 0], rfl⟩
def mintC : Pubkey := .mint symbolC
def pool₂ : Pubkey := .pool mintA mintC

def user₂ : Pubkey := .external 11
def userA₂ : Pubkey := .external 12
def userC₂ : Pubkey := .external 13
def userLp₂ : Pubkey := .external 14

def accounts₂ : LiquidityAccounts where
  user := user₂
  pool := pool₂
  mintA := mintA
  mintB := mintC
  configA := .config mintA
  configB := .config mintC
  vaultA := .vault pool₂ mintA
  vaultB := .vault pool₂ mintC
  lpMint := .lpMint pool₂
  userA := userA₂
  userB := userC₂
  policyA := .walletPolicy mintA userA₂
  policyB := .walletPolicy mintC userC₂
  lockedLp := .lockedLp pool₂
  userLp := userLp₂

/-- A second user gets tokens of two stablecoins, and a pool for them. -/
def secondHistory : List Action :=
  [.initializeStablecoin { payer := issuer, mint := mintC, config := .config mintC } symbolC [1] [1]
      stablecoinDecimals maxSupplyCap,
    .grantMinter
      { admin := issuer, config := .config mintC, authority := issuer,
        minterRole := .minterRole (.config mintC) issuer } maxSupplyCap,
    .createAccount userA₂ mintA user₂ false,
    allow mintA userA₂,
    .mintTo (mintTo mintA userA₂) 5000,
    .createAccount userC₂ mintC user₂ false,
    allow mintC userC₂,
    .mintTo (mintTo mintC userC₂) 5000,
    .initializePool
      { payer := issuer, mintA, mintB := mintC, configA := .config mintA, configB := .config mintC,
        pool := pool₂, vaultA := .vault pool₂ mintA, vaultB := .vault pool₂ mintC,
        lpMint := .lpMint pool₂, lockedLp := .lockedLp pool₂ } 30,
    allow mintA (.vault pool₂ mintA),
    allow mintC (.vault pool₂ mintC),
    .createAccount userLp₂ (.lpMint pool₂) user₂ false]

end Lopsided

open Lopsided in
def twoPools : World := lopsided.afterAll secondHistory

theorem twoPools_reachable : twoPools.Reachable :=
  Reachable.run lopsided_reachable (run_afterAll (by decide +kernel))

open Lopsided in
/-- The first user swaps while the second one fills its pool and swaps there. -/
theorem pools_independent_twoPools :
    attempts step twoPools
        [.addLiquidity accounts₂ 3000 4000 0 0 0, .swap accounts.toPoolAccounts .aToB 10 0,
          .swap accounts₂.toPoolAccounts .bToA 300 0] =
      attempts step (attempts step twoPools [.swap accounts.toPoolAccounts .aToB 10 0])
        [.addLiquidity accounts₂ 3000 4000 0 0 0,
          .swap accounts₂.toPoolAccounts .bToA 300 0] := by
  have hswap : ∃ w', swap twoPools accounts.toPoolAccounts .aToB 10 0 = .ok w' :=
    isOk_iff.mp (by decide +kernel)
  obtain ⟨_, hswap⟩ := hswap
  obtain ⟨P, hcan⟩ := canSwap_of_ok twoPools_reachable.inv hswap
  have hadd : ∃ w', addLiquidity twoPools accounts₂ 3000 4000 0 0 0 = .ok w' :=
    isOk_iff.mp (by decide +kernel)
  obtain ⟨_, hadd⟩ := hadd
  obtain ⟨P₂, hcan₂⟩ := canAdd_of_ok twoPools_reachable.inv hadd
  have hfree : twoPools.ledger.tokens user = none ∧ twoPools.ledger.tokens user₂ = none := by
    rw [← Option.isNone_iff_eq_none, ← Option.isNone_iff_eq_none]
    decide +kernel
  have hs := twoPools_reachable.inv.shape
  have has : ∀ a ∈ [Action.swap accounts.toPoolAccounts .aToB 10 0],
      a.Deals twoPools pool user := by
    rw [List.forall_mem_singleton]
    exact ⟨rfl, rfl, hcan.accounts.drawn hs⟩
  have hbs : ∀ b ∈ [Action.addLiquidity accounts₂ 3000 4000 0 0 0,
      .swap accounts₂.toPoolAccounts .bToA 300 0], b.DealsElsewhere twoPools pool user := by
    rw [List.forall_mem_cons, List.forall_mem_singleton]
    have hdrawn := hcan₂.accounts.drawn hs
    exact ⟨⟨pool₂, user₂, by decide, by decide, ⟨rfl, hfree.2⟩, rfl, rfl, hdrawn⟩,
      ⟨pool₂, user₂, by decide, by decide, ⟨rfl, hfree.2⟩, rfl, rfl, hdrawn.toDrawn⟩⟩
  exact (pools_independent twoPools_reachable ⟨rfl, hfree.1⟩ has hbs
    (.right (.left (.right .nil)))).1

end StablecoinAmm
