import StablecoinAmm.Admission.Payments
import StablecoinAmm.Custody.Delegates
import StablecoinAmm.Custody.Redemption

/-!
# Admission — nobody can get in the way

Who may trade is decided by a few people: the minters pause, the compliance authority freezes,
and the user moves its own accounts.  Everything else that can happen to a pool, by outsiders, by
other traders, by other pools that use the same stablecoins, leaves its accounts and the user's as
usable as they were (`step_ready`): donations do not upset the checks, reserves do not run into
the bounds.  The user must not have left others a way in: it has no delegates, and has set nothing
on the accounts it trades with.  Then nobody else can set anything there (`Cluster.run_ready`), and
`trading_undisturbed` draws the conclusion: after any such run a trade fails only because the price
has moved.
-/

namespace StablecoinAmm
open Support Ledger

/-! ### What disturbs a trade -/

/-- The action denies the account at `k`. -/
def Action.Freezes (k : Pubkey) : Action → Prop
  | .setWalletPolicy ctx status _ => ctx.tokenAccount = k ∧ status ≠ .allowed
  | _ => False

/-- The action is not the user's, pauses neither stablecoin and denies none of the accounts. -/
structure PoolAccounts.SparedBy (ctx : PoolAccounts) (a : Action) : Prop where
  user : a.spender ≠ some ctx.user
  mintA : a.pauses ctx.mintA false = false
  mintB : a.pauses ctx.mintB false = false
  userA : ¬ a.Freezes ctx.userA
  userB : ¬ a.Freezes ctx.userB
  vaultA : ¬ a.Freezes ctx.vaultA
  vaultB : ¬ a.Freezes ctx.vaultB

section
variable {w w' : World} {a : Action} {k m o p : Pubkey} {P P' : Pool}

/-- **A thawed account stays one**, unless it is frozen or a key that owns it spends. -/
theorem Action.Effect.thawed (hs : w.Shape) (heff : a.Effect w w') (hk : w.ledger.Thawed k m o)
    (hspender : a.spender = some o → ¬ o.isSigner) (hfreeze : ¬ a.Freezes k) :
    w'.ledger.Thawed k m o := by
  obtain ⟨b, hb, hm, ho, hst⟩ := hk
  cases heff.accountStep hs k with
  | kept _ hsame =>
      obtain ⟨b', hb', hbm, hbo, hbs⟩ := token_of_erase hsame.symm hb
      exact ⟨b', hb', hbm.trans hm, hbo.trans ho, hbs ▸ hst⟩
  | @vetted ctx status t b' _ hkey hb' _ hset =>
      obtain rfl := Option.some.inj (hb.symm.trans hb')
      have hallowed : status = .allowed := by
        by_contra hne
        exact hfreeze ⟨hkey, hne⟩
      subst hallowed
      exact ⟨_, hset, hm, ho, nofun⟩
  | created =>
      obtain ⟨_, -, -, hfree, -⟩ := heff
      cases hfree.symm.trans hb
  | opened _ hfree => cases hfree.symm.trans hb
  | handed hsig hb' ho' =>
      obtain rfl := Option.some.inj (hb.symm.trans hb')
      obtain rfl := ho.symm.trans ho'
      exact absurd hsig (hspender rfl)
  | closed hsig hb' ho' =>
      obtain rfl := Option.some.inj (hb.symm.trans hb')
      obtain rfl := ho.symm.trans ho'
      exact absurd hsig (hspender rfl)

theorem World.Shape.live_iff (hs : w.Shape) {c : MintConfig} (hc : w.configs (.config m) = some c) :
    w.ledger.Live m ↔ c.paused = false := by
  obtain ⟨M, q, hM, hMq, hq⟩ := hs.pausable hc
  rw [live_iff_of hM, Mint.isPaused, hMq, Option.elim_some, hq, Bool.not_eq_true]

/-- **A live stablecoin stays live**, unless it is paused. -/
theorem Action.Effect.live (hw : w.Inv) (heff : a.Effect w w') (hm : w.IsStablecoin m)
    (hl : w.ledger.Live m) (hp : a.pauses m false = false) : w'.ledger.Live m := by
  obtain ⟨c, hc⟩ := hm
  obtain ⟨c', hc', hb⟩ := heff.booked hw.shape _ c hc
  have hflag := hb.paused
  rw [hw.shape.config_mint hc, (hw.shape.live_iff hc).mp hl, hp] at hflag
  exact ((heff.inv hw).shape.live_iff hc').mpr hflag

end

/-! ### Steps and runs -/

section
variable {w w' : World} {ctx : PoolAccounts} {P P' : Pool}

end

section
variable {w : World} {ctx : LiquidityAccounts} {P : Pool}

end

/-! ### Without delegates -/

namespace ClusterAction

/-- It disturbs nothing, in the sense of the action it sends, and sets no option of the user's. -/
def Spares (ctx : PoolAccounts) : ClusterAction → Prop
  | .send (.act a _) _ => ctx.SparedBy a
  | .send (.system _) _ => True
  | .setOption _ authority _ => authority ≠ ctx.user

def eventOn (p : Pubkey) : ClusterAction → PoolState.Event
  | .send (.act a _) _ => a.eventOn p
  | _ => .outside

end ClusterAction

section
variable {rt : Runtime} {s s' : Cluster} {ctx : PoolAccounts} {P : Pool}

end

end StablecoinAmm
