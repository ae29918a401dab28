import StablecoinAmm.Pools.Alike
import StablecoinAmm.Pools.Ordering

/-!
# Pools — donations

To the AMM a donation does not exist.  It leaves the world as alike as it was
(`Effect.donation_alike`) and every instruction of the AMM ends the same way in alike worlds
(`step_agree`); these are the unwinding conditions, so two histories of the same instructions
with different donations between them cannot be told apart (`donations_unwind`).  The tokens
themselves stay in the vaults for good (`run_surplus`).
-/

namespace StablecoinAmm
open Support Ledger

/-- Who sends an instruction to the AMM. -/
def Action.ammCaller : Action → Option Pubkey
  | .initializePool ctx _ => some ctx.payer
  | .addLiquidity ctx .. => some ctx.user
  | .removeLiquidity ctx .. => some ctx.user
  | .swap ctx .. => some ctx.user
  | _ => none

def Action.isAmm (a : Action) : Bool := a.ammCaller.isSome

/-- Tokens sent to a vault from outside the AMM, by a donor or newly issued. -/
def Action.Donation (donor : Pubkey → Prop) : Action → Prop
  | .transfer c _ _ => donor c.authority ∧ ∃ p m, c.destination = .vault p m
  | .mintTo ctx _ => ∃ p m, ctx.destination = .vault p m
  | _ => False

/-- An instruction of the AMM sent by someone who is no donor, or a donation. -/
def Action.Admitted (donor : Pubkey → Prop) (a : Action) : Prop :=
  (∃ user, a.ammCaller = some user ∧ ¬ donor user) ∨ a.Donation donor

section
variable {donor : Pubkey → Prop} {w w' : World}

/-- What leaves a donor and arrives at a vault is apart. -/
theorem Ledger.Transferred.alike {l l' : Ledger} {c : TransferChecked} {n : ℕ}
    (t : Transferred l c c.authority n l') (hsig : c.authority.isSigner) (hd : donor c.authority)
    (hdst : ∃ p m, c.destination = .vault p m) : l.Alike donor l' where
  skeleton := t.skeleton
  balance k hk := by
    obtain ⟨b, hb, -, -, ho⟩ := t.source
    refine t.elsewhere ?_ ?_
    · rintro rfl
      exact hk (.inr ⟨_, _, ⟨b, hb, rfl, ho⟩, hsig, hd⟩)
    · rintro rfl
      exact hk (.inl hdst)
  lpSupply p := t.supplies _

/-- So is what is newly issued to a vault. -/
theorem MintTo.Effect.alike (hs : w.Shape) {ctx : MintTo} {amount : ℕ} {a : MintTo.Loaded}
    {l : Ledger} (h : ctx.Effect w amount a l w') (hdst : ∃ p m, ctx.destination = .vault p m) :
    w.Alike donor w' := by
  have hm : ctx.mint = .mint a.config.symbol :=
    h.valid.config_mint ▸ (hs.config _ _ h.valid.config).1.mint
  have hl : w.ledger.Alike donor l :=
    { skeleton := h.minted.skeleton
      balance := fun k hk => by
        refine h.minted.elsewhere ?_
        rintro rfl
        exact hk (.inl hdst)
      lpSupply := fun p => by
        rw [h.minted.supplies, if_neg (by rw [hm]; exact nofun), Nat.add_zero] }
  have hcfg := h.framed.configs
  rw [h.result] at hcfg ⊢
  exact ⟨rfl, hl, hcfg, rfl, rfl⟩

/-- **A donation leaves an alike world.** -/
theorem Action.Effect.donation_alike (hs : w.Shape) {a : Action} (h : a.Effect w w')
    (ha : a.Donation donor) : w.Alike donor w' := by
  cases a with
  | transfer c =>
      obtain ⟨l, hsig, t, hw⟩ := h
      rw [hw]
      exact ⟨rfl, t.alike hsig ha.1 ha.2, fun _ => rfl, rfl, rfl⟩
  | mintTo =>
      obtain ⟨a, l, h⟩ := h
      exact h.alike hs ha
  | _ => exact absurd ha id

/-- **An instruction of the AMM ends the same way in alike worlds.** -/
theorem step_agree (h : w.Alike donor w') (hw : w.Inv) (hw' : w'.Inv) (hV : w.VaultsHeld) :
    ∀ {a : Action} {user : Pubkey}, a.ammCaller = some user → ¬ donor user →
      Agree (World.Alike donor) (step w a) (step w' a)
  | .initializePool .., _, _, _ => .mapError (initializePool_agree h ..)
  | .addLiquidity .., _, rfl, hu => .mapError (addLiquidity_agree h hw hw' hV _ _ _ _ _ _ hu)
  | .removeLiquidity .., _, rfl, hu => .mapError (removeLiquidity_agree h hw hw' hV _ _ _ _ hu)
  | .swap .., _, rfl, hu => .mapError (swap_agree h hw hw' hV _ _ _ _ hu)

/-- Nothing is both. -/
theorem Action.Donation.not_isAmm {a : Action} (h : a.Donation donor) : ¬ a.isAmm := by
  cases a with
  | transfer | mintTo => exact nofun
  | _ => exact absurd h id

theorem Action.isAmm_of_caller {a : Action} {user : Pubkey} (h : a.ammCaller = some user) :
    a.isAmm := by
  rw [isAmm, h]; rfl

end

/-- **Donations are unseen.** -/
theorem donations_unwind (donor : Pubkey → Prop) :
    Unwinds step World.Reachable (World.Alike donor) Action.isAmm (Action.Admitted donor) where
  symm := World.Alike.symm
  trans := World.Alike.trans
  keeps _ _ _ hw h := hw.run (.one h)
  agree hw hw' h ha hseen := by
    rcases ha with ⟨user, hcaller, hu⟩ | hdon
    · exact step_agree h hw.inv hw'.inv hw.vaultsHeld hcaller hu
    · exact absurd hseen hdon.not_isAmm
  unseen hw ha hseen h := by
    rcases ha with ⟨user, hcaller, -⟩ | hdon
    · exact absurd (Action.isAmm_of_caller hcaller) hseen
    · exact (step_effect hw.inv h).donation_alike hw.inv.shape hdon

section
variable {donor : Pubkey → Prop} {w w' : World}

/-- What alike worlds have in common, for someone who is no donor. -/
theorem World.Alike.token (h : w.Alike donor w') (hs : w.Shape) (hV : w.VaultsHeld) {k : Pubkey}
    {a : TokenAccount} (ha : w.ledger.tokens k = some a) (hsig : a.owner.isSigner)
    (ho : ¬ donor a.owner) : w'.ledger.tokens k = some a := by
  have hk : w.ledger.HasAccount k a.mint a.owner := ⟨a, ha, rfl, rfl⟩
  rw [token_of_skeleton h.ledger.skeleton ha,
    h.ledger.balance k (hV.not_apart hs hk hsig ho), balance_of ha]

/-- All that was ever sent to the vaults. -/
theorem total_donated {w₀ : World} {as : List Action} {p : Pubkey} {P : Pool}
    (h₀ : IsGenesis w₀) (t : Run step w₀ as w) (hP : w.pools p = some P) :
    w.ledger.balance P.vaultA = P.reserveA + (as.map (·.donated P.vaultA)).sum ∧
      w.ledger.balance P.vaultB = P.reserveB + (as.map (·.donated P.vaultB)).sum := by
  have hw₀ : w₀.Reachable := ⟨w₀, [], h₀, .refl _⟩
  have hw : w.Reachable := hw₀.run t
  obtain ⟨hA, hB⟩ := hw.inv.surplus_eq hP
  have hplaced := (hw.inv.shape.pool p P hP).placed
  have hzero : ∀ k, w₀.surplus p k = 0 := by
    obtain ⟨addressBytes, rfl⟩ := h₀
    exact fun k => World.surplus_of_none rfl
  constructor
  · rw [hA, hplaced.vaultA, run_surplus hw₀ t, hzero, Nat.zero_add]
  · rw [hB, hplaced.vaultB, run_surplus hw₀ t, hzero, Nat.zero_add]

/-- None of it comes back. -/
theorem surplus_never_falls {as : List Action} {p : Pubkey} {P : Pool} (hw : w.Reachable)
    (t : Run step w as w') (hP : w.pools p = some P) :
    ∃ P', w'.pools p = some P' ∧
      w.ledger.balance P.vaultA - P.reserveA ≤ w'.ledger.balance P'.vaultA - P'.reserveA ∧
      w.ledger.balance P.vaultB - P.reserveB ≤ w'.ledger.balance P'.vaultB - P'.reserveB := by
  have hw' : w'.Reachable := hw.run t
  obtain ⟨P', hP', he, -⟩ := run_refines hw.inv hP t
  obtain ⟨hvA, hvB⟩ := Pool.vaults_of_erase he
  obtain ⟨hA, hB⟩ := hw.inv.surplus_eq hP
  obtain ⟨hA', hB'⟩ := hw'.inv.surplus_eq hP'
  have hplaced := (hw.inv.shape.pool p P hP).placed
  refine ⟨P', hP', ?_, ?_⟩
  · rw [hA, hA', Nat.add_sub_cancel_left, Nat.add_sub_cancel_left, hvA, hplaced.vaultA,
      run_surplus hw t]
    exact Nat.le_add_right _ _
  · rw [hB, hB', Nat.add_sub_cancel_left, Nat.add_sub_cancel_left, hvB, hplaced.vaultB,
      run_surplus hw t]
    exact Nat.le_add_right _ _

/-- Two histories of the same instructions, with different donations between them. -/
theorem histories_agree (hw : w.Reachable) {as bs : List Action}
    (has : ∀ a ∈ as, a.Admitted donor) (hbs : ∀ b ∈ bs, b.Admitted donor)
    (heq : as.filter Action.isAmm = bs.filter Action.isAmm) :
    verdicts step Action.isAmm w as = verdicts step Action.isAmm w bs ∧
      (attempts step w as).Alike donor (attempts step w bs) := by
  obtain ⟨halike, hv⟩ :=
    (donations_unwind donor).sound hw hw (.refl donor w) has hbs heq
  exact ⟨hv, halike⟩

end

/-- **Donations are inert and never recovered.** -/
theorem donations_inert :
    (∀ {w₀ w : World} {as : List Action} {p : Pubkey} {P : Pool},
      IsGenesis w₀ → Run step w₀ as w → w.pools p = some P →
      w.ledger.balance P.vaultA = P.reserveA + (as.map (·.donated P.vaultA)).sum ∧
      w.ledger.balance P.vaultB = P.reserveB + (as.map (·.donated P.vaultB)).sum) ∧
    (∀ {w w' : World} {as : List Action} {p : Pubkey} {P : Pool},
      w.Reachable → Run step w as w' → w.pools p = some P →
      ∃ P', w'.pools p = some P' ∧
        w.ledger.balance P.vaultA - P.reserveA ≤ w'.ledger.balance P'.vaultA - P'.reserveA ∧
        w.ledger.balance P.vaultB - P.reserveB ≤ w'.ledger.balance P'.vaultB - P'.reserveB) ∧
    ∀ {w w₁ w₂ : World} {as bs : List Action} {donor : Pubkey → Prop}, w.Reachable →
      (∀ a ∈ as, a.Admitted donor) → (∀ b ∈ bs, b.Admitted donor) →
      as.filter Action.isAmm = bs.filter Action.isAmm →
      w₁ = attempts step w as → w₂ = attempts step w bs →
      verdicts step Action.isAmm w as = verdicts step Action.isAmm w bs ∧
      w₁.pools = w₂.pools ∧
      (∀ p, w₁.ledger.supply (.lpMint p) = w₂.ledger.supply (.lpMint p)) ∧
      ∀ k a, w₁.ledger.tokens k = some a → a.owner.isSigner → ¬ donor a.owner →
        w₂.ledger.tokens k = some a := by
  refine ⟨fun h₀ t hP => total_donated h₀ t hP, fun hw t hP => surplus_never_falls hw t hP, ?_⟩
  rintro w _ _ as bs donor hw has hbs heq rfl rfl
  obtain ⟨hv, halike⟩ := histories_agree hw has hbs heq
  have hw₁ : (attempts step w as).Reachable :=
    attempts_invariant (fun _ _ _ hw h => hw.run (.one h)) hw as
  refine ⟨hv, halike.pools.symm, fun p => (halike.ledger.lpSupply p).symm, ?_⟩
  intro k a ha hsig ho
  exact halike.token hw₁.inv.shape hw₁.vaultsHeld ha hsig ho

open Lopsided in
/-- The issuer mints to a vault of the pool of `lopsided`. -/
def lopsidedGift (amount : ℕ) : Action :=
  .mintTo (Lopsided.mintTo mintA (.vault pool mintA)) amount

open Lopsided in
/-- The vault has the gift, the next trader trades as if it had not. -/
theorem donations_inert_lopsided :
    ∃ w₁ w₂ : World,
      w₁ = attempts step lopsided [lopsidedGift 500, lopsidedSwap .aToB 3 0] ∧
      w₂ = attempts step lopsided [lopsidedSwap .aToB 3 0] ∧
      w₁.ledger.balance (.vault pool mintA) = w₂.ledger.balance (.vault pool mintA) + 500 ∧
      w₁.pools = w₂.pools := by
  have has : ∀ a ∈ [lopsidedGift 500, lopsidedSwap .aToB 3 0], a.Admitted (· = issuer) := by
    simp [Action.Admitted, lopsidedGift, lopsidedSwap, Action.ammCaller, Action.Donation,
      Lopsided.accounts, Lopsided.mintTo, user, issuer]
  have hbs : ∀ b ∈ [lopsidedSwap .aToB 3 0], b.Admitted (· = issuer) :=
    fun b hb => has b (List.mem_cons_of_mem _ hb)
  refine ⟨_, _, rfl, rfl, by decide +kernel, ?_⟩
  exact (donations_inert.2.2 lopsided_reachable has hbs rfl rfl rfl).2.1

end StablecoinAmm
