import StablecoinAmm.Custody.Holdings
import StablecoinAmm.System.ClusterHistory

/-!
# Custody — what delegates may take

A delegate moves tokens without their owner's signature, but not more than the owner has approved.
What the delegates of a user may still take of a mint (`Cluster.pledged`) is set aside when it is
approved and drawn when it is taken, so it is the debt in an account of what the user holds:
whatever else happens, `holdings - pledged` falls only through what the user signs
(`Cluster.step_holdings`).  `custody` adds that up over every run.
-/

namespace StablecoinAmm
open Support Ledger

/-! ### Whose signature it is -/

namespace ClusterAction

/-- The signer whose accounts the action debits, hands over, closes or sets an option of. -/
def spender : ClusterAction → Option Pubkey
  | .send (.act a _) _ => a.spender
  | .send (.system _) _ => none
  | .setOption _ authority _ => some authority

/-- What `u` is assured by it. -/
def assuredTo (u m : Pubkey) : ClusterAction → ℕ
  | .send (.act a _) _ => a.assuredTo u m
  | _ => 0

end ClusterAction

namespace Cluster

/-- What `u` stakes in the action, which it signs as owner: what it approves is at stake too. -/
def stakeOf (s : Cluster) (u m : Pubkey) : ClusterAction → ℕ
  | .send (.act a _) _ =>
      if a.spender = some u ∧ (s.asOwner a).spender = some u then a.stake s.chain.world m else 0
  | .setOption account authority (.approve _ amount) =>
      if authority = u ∧ s.chain.world.ledger.selects (fun b => b.mint = m) account then amount else 0
  | _ => 0

/-- What the delegates of the account at `k` may take, if it is `u`'s and of the mint `m`. -/
def pledgedBy (s : Cluster) (u m k : Pubkey) : ℕ :=
  if s.chain.world.ledger.selects (fun b => b.owner = u ∧ b.mint = m) k then (s.options k).pledge
  else 0

/-- **What the delegates of `u` may take of the mint `m`.** -/
noncomputable def pledged (s : Cluster) (u m : Pubkey) : ℕ := ∑ᶠ k, s.pledgedBy u m k

variable {rt : Runtime} {s s' : Cluster} {a : Action} {destination u m k : Pubkey}
  {afterMemo : Bool}

theorem asOwner_stake (w : World) : (s.asOwner a).stake w m = a.stake w m := by cases a <;> rfl

theorem asOwner_assured : (s.asOwner a).assured m = a.assured m := by cases a <;> rfl

theorem principal_of_ne {account authority : Pubkey} (h : s.principal account authority = u)
    (hne : authority ≠ u) : ∃ b, s.chain.world.ledger.tokens account = some b ∧ b.owner = u ∧
      (s.options account).Delegated authority := by
  unfold principal at h
  cases hb : s.chain.world.ledger.tokens account with
  | none =>
      rw [hb] at h
      exact absurd h hne
  | some b =>
      rw [hb] at h
      dsimp only at h
      split_ifs at h with hd
      · exact ⟨b, rfl, h, hd⟩
      · exact absurd h hne

/-- Where somebody signs in the place of `u`, it is a delegate. -/
theorem delegate_of_spender (h : (s.asOwner a).spender = some u) (hne : a.spender ≠ some u) :
    (∃ c n d, a = .transfer c n d ∧ s.principal c.source c.authority = u) ∨
      ∃ c n d, a = .burnDirect c n d ∧ s.principal c.source c.authority = u := by
  cases a with
  | transfer c n d => exact .inl ⟨c, n, d, rfl, Option.some.inj h⟩
  | burnDirect c n d => exact .inr ⟨c, n, d, rfl, Option.some.inj h⟩
  | _ => exact absurd h hne

/-! ### Allowances -/

theorem pledgedBy_le (s : Cluster) (u m k : Pubkey) : s.pledgedBy u m k ≤ (s.options k).pledge := by
  unfold pledgedBy
  split_ifs
  · exact le_rfl
  · exact Nat.zero_le _

theorem Reachable.pledged (h : s.Reachable rt) (u m : Pubkey) :
    Totals (s.pledgedBy u m) (s.pledged u m) := by
  obtain ⟨n, hn⟩ := h.pledges
  obtain ⟨n', hn'⟩ := hn.of_support (g := s.pledgedBy u m)
    fun k hk => Nat.le_zero.mp (hk ▸ s.pledgedBy_le u m k)
  rw [Cluster.pledged, hn'.finsum_eq]
  exact hn'

theorem pledgedBy_of (h : s.chain.world.ledger.HasAccount k m u) :
    s.pledgedBy u m k = (s.options k).pledge :=
  if_pos ((selects_held_iff h).mpr ⟨rfl, rfl⟩)

theorem hasAccount_of_pledgedBy (h : s.pledgedBy u m k ≠ 0) :
    s.chain.world.ledger.HasAccount k m u := by
  obtain ⟨hsel, -⟩ := ite_ne_right_iff.mp h
  rcases hb : s.chain.world.ledger.tokens k with _ | b
  · simp [selects, Ledger.skeleton, hb] at hsel
  · rw [selects_of hb] at hsel
    obtain ⟨ho, hm⟩ := of_decide_eq_true hsel
    exact ⟨b, hb, hm, ho⟩

/-- **An account with a delegate was there before**, in the same hands and of the same mint. -/
theorem send_account (hs : s.Reachable rt)
    (h : s.step rt (.send (.act a destination) afterMemo) = .ok s')
    (hk : s'.chain.world.ledger.HasAccount k m u) (hnone : (s'.options k).delegation ≠ none) :
    s.chain.world.ledger.HasAccount k m u := by
  obtain ⟨-, hc, ho⟩ := send_ok_iff.mp h
  have hi := hs.chain.inv
  obtain ⟨hw, -⟩ := Chain.act_inv hi (Chain.step_ok_iff.mp hc).1
  have heff := step_effect hi.world hw
  have hk' : s'.Reachable rt := Support.Reachable.run hs (.one h)
  obtain ⟨b, hb, hm, howner⟩ := hk
  generalize hx : s.asOwner a = x at heff
  cases heff.accountStep hi.world.shape k with
  | kept _ hsame =>
      obtain ⟨b', hb', hm', ho', -⟩ := token_of_erase hsame hb
      exact ⟨b', hb', hm'.trans hm, ho'.trans howner⟩
  | vetted _ hb' _ hset =>
      obtain rfl := Option.some.inj (hb.symm.trans hset)
      exact ⟨_, hb', hm, howner⟩
  | created =>
      cases a with
      | createAccount =>
          cases hx
          rw [← pure_ok_iff.mp ho, Function.update_self] at hnone
          exact absurd rfl hnone
      | _ => cases hx
  | opened hder =>
      rw [hk'.options_derived hder] at hnone
      exact absurd rfl hnone
  | handed =>
      cases a with
      | setOwner =>
          cases hx
          simp only [settleOptions, bind_ok_iff, pure_ok_iff] at ho
          obtain ⟨-, -, ho⟩ := ho
          rw [← ho, Function.update_self] at hnone
          exact absurd rfl hnone
      | _ => cases hx
  | closed _ _ _ hgone => cases hgone.symm.trans hb

/-- **No instruction raises an allowance.** -/
theorem send_pledgedBy (hs : s.Reachable rt)
    (h : s.step rt (.send (.act a destination) afterMemo) = .ok s') (u m k : Pubkey) :
    s'.pledgedBy u m k ≤ s.pledgedBy u m k := by
  by_cases hz : s'.pledgedBy u m k = 0
  · rw [hz]; exact Nat.zero_le _
  · have hk' := hasAccount_of_pledgedBy hz
    rw [pledgedBy_of hk'] at hz ⊢
    have hnone : (s'.options k).delegation ≠ none := by
      intro hd
      rw [AccountOptions.pledge, hd] at hz
      exact hz rfl
    rw [pledgedBy_of (send_account hs h hk' hnone)]
    exact ((send_ok h).2 k).pledge

theorem send_pledged (hs : s.Reachable rt)
    (h : s.step rt (.send (.act a destination) afterMemo) = .ok s') (u m : Pubkey) :
    s'.pledged u m ≤ s.pledged u m := by
  have hs' : s'.Reachable rt := Support.Reachable.run hs (.one h)
  exact (hs'.pledged u m).mono (hs.pledged u m) (send_pledgedBy hs h u m)

/-- What a delegate takes it has been allowed to. -/
theorem send_drawn (hs : s.Reachable rt)
    (h : s.step rt (.send (.act a destination) afterMemo) = .ok s') {p : Payment}
    (hpay : s.settleOptions s'.chain.world afterMemo a =
      payAllWith s.chain.world.ledger false afterMemo s.options [p])
    (hself : p.destination ≠ some p.source)
    (hacc : s.chain.world.ledger.HasAccount p.source m u)
    (hd : (s.options p.source).Delegated p.authority) :
    s'.pledged u m + p.amount ≤ s.pledged u m := by
  have hs' : s'.Reachable rt := Support.Reachable.run hs (.one h)
  obtain ⟨-, -, ho⟩ := send_ok_iff.mp h
  rw [hpay, payAllWith_one, payWith_ok_iff] at ho
  obtain ⟨b, -, o, hspend, -, ho⟩ := ho
  rw [if_neg hself] at ho
  obtain ⟨-, hdraw⟩ := AccountOptions.spend_ok_iff.mp hspend
  rw [if_pos hd] at hdraw
  obtain ⟨hle, rfl⟩ := hdraw
  have hn := Totals.single_where p.source p.amount fun _ => True
  rw [if_pos trivial] at hn
  refine ((hs'.pledged u m).add hn).mono (hs.pledged u m) fun k => ?_
  have hk := send_pledgedBy hs h u m k
  by_cases hks : k = p.source
  · subst hks
    have hpledge := AccountOptions.draw_pledge hle
    have hafter : s'.pledgedBy u m p.source ≤ ((s.options p.source).draw p.amount).pledge := by
      refine (s'.pledgedBy_le u m _).trans ?_
      rw [← ho, Function.update_self]
    rw [pledgedBy_of hacc, if_pos trivial, if_pos rfl]
    omega
  · rw [if_pos trivial, if_neg hks]
    exact hk

/-! ### Steps -/

/-- What a delegate of `u` takes was owed to it. -/
theorem delegate_holdings (hs : s.Reachable rt) (hu : u.isSigner)
    (h : s.step rt (.send (.act a destination) afterMemo) = .ok s')
    (howner : (s.asOwner a).spender = some u) (hne : a.spender ≠ some u) (m : Pubkey) :
    s.chain.world.ledger.holdings u m + s'.pledged u m ≤
      s'.chain.world.ledger.holdings u m + s.pledged u m := by
  have hi := hs.chain.inv
  obtain ⟨hw, -⟩ := Chain.act_inv hi (Chain.step_ok_iff.mp (send_ok h).1).1
  have hcost := step_signed hi.world hu hw howner m
  have heff := step_effect hi.world hw
  have hmono := send_pledged hs h u m
  rcases delegate_of_spender howner hne with ⟨c, n, d, rfl, hp⟩ | ⟨c, n, d, rfl, hp⟩
  · obtain ⟨b, hb, hbo, hd⟩ := principal_of_ne hp fun e => hne (congrArg some e)
    obtain ⟨l, -, ht, hl⟩ := heff
    obtain ⟨b', hb', hm, -, ho⟩ := ht.source
    by_cases hself : c.destination = c.source
    · have hacc : s.chain.world.ledger.HasAccount c.source c.mint u := by
        obtain rfl := Option.some.inj (hb.symm.trans hb')
        exact ⟨b, hb, hm, hbo⟩
      have hsame := ht.holdings (u := u) (n := m) hi.world.conserved hacc (hself ▸ hacc)
      rw [hl]
      dsimp only
      omega
    · by_cases hcm : c.mint = m
      · have hacc : s.chain.world.ledger.HasAccount c.source m u := by
          obtain rfl := Option.some.inj (hb.symm.trans hb')
          exact ⟨b, hb, hm.trans hcm, hbo⟩
        have hdrawn := send_drawn (p := c.payment n) hs h rfl (fun e => hself (Option.some.inj e))
          hacc hd
        have hstake : (s.asOwner (.transfer c n d)).stake s.chain.world m = n := if_pos hcm
        have hamount : (c.payment n).amount = n := rfl
        omega
      · have hstake : (s.asOwner (.transfer c n d)).stake s.chain.world m = 0 := if_neg hcm
        omega
  · obtain ⟨b, hb, hbo, hd⟩ := principal_of_ne hp fun e => hne (congrArg some e)
    obtain ⟨l, -, ht, hl⟩ := heff
    obtain ⟨b', hb', hm, -, ho⟩ := ht.source
    by_cases hcm : c.mint = m
    · have hacc : s.chain.world.ledger.HasAccount c.source m u := by
        obtain rfl := Option.some.inj (hb.symm.trans hb')
        exact ⟨b, hb, hm.trans hcm, hbo⟩
      have hdrawn := send_drawn (p := ⟨c.source, none, c.authority, n⟩) hs h rfl nofun hacc hd
      have hstake : (s.asOwner (.burnDirect c n d)).stake s.chain.world m = n := if_pos hcm
      dsimp only at hdrawn
      omega
    · have hstake : (s.asOwner (.burnDirect c n d)).stake s.chain.world m = 0 := if_neg hcm
      omega

/-- What a change of options adds to an allowance is staked. -/
theorem change_pledge {account authority : Pubkey} {change : OptionChange} {b : TokenAccount}
    {o : AccountOptions} (hb : s.chain.world.ledger.tokens account = some b)
    (h : (s.options account).change b authority change = .ok o) (ho : b.owner = u)
    (hm : b.mint = m) :
    o.pledge ≤ (s.options account).pledge + s.stakeOf u m (.setOption account authority change) := by
  cases change with
  | approve delegate amount =>
      simp only [AccountOptions.change, bind_ok_iff, require_ok_iff, pure_ok_iff] at h
      obtain ⟨-, -, -, hauth, rfl⟩ := h
      have hsel : s.chain.world.ledger.selects (fun b => b.mint = m) account :=
        (selects_mint_iff hb).mpr hm
      rw [stakeOf, if_pos ⟨hauth.trans ho, hsel⟩]
      exact Nat.le_add_left _ _
  | revoke =>
      simp only [AccountOptions.change, bind_ok_iff, pure_ok_iff] at h
      obtain ⟨-, -, -, -, rfl⟩ := h
      exact Nat.zero_le _
  | guard | memo =>
      simp only [AccountOptions.change, bind_ok_iff, pure_ok_iff] at h
      obtain ⟨-, -, rfl⟩ := h
      exact Nat.le_add_right _ _

theorem setOption_pledged (hs : s.Reachable rt) {account authority : Pubkey}
    {change : OptionChange} (h : s.step rt (.setOption account authority change) = .ok s')
    (u m : Pubkey) :
    s'.pledged u m ≤ s.pledged u m + s.stakeOf u m (.setOption account authority change) := by
  have hs' : s'.Reachable rt := Support.Reachable.run hs (.one h)
  obtain ⟨-, hc, b, hb, o, ho, hchange, -⟩ := setOption_ok h
  have hn := Totals.single_where account
    (s.stakeOf u m (.setOption account authority change)) fun _ => True
  rw [if_pos trivial] at hn
  refine (hs'.pledged u m).mono ((hs.pledged u m).add hn) fun k => ?_
  by_cases hz : s'.pledgedBy u m k = 0
  · rw [hz]; exact Nat.zero_le _
  · have hk := hasAccount_of_pledgedBy hz
    rw [pledgedBy_of hk, pledgedBy_of (hc ▸ hk), if_pos trivial, ho]
    by_cases hka : k = account
    · subst hka
      obtain ⟨b', hb', hm, howner⟩ := hk
      rw [hc] at hb'
      obtain rfl := Option.some.inj (hb.symm.trans hb')
      rw [Function.update_self, if_pos rfl]
      exact change_pledge hb hchange howner hm
    · rw [Function.update_of_ne hka]
      exact Nat.le_add_right _ _

/-- **What `u` holds, less what it owes to delegates, falls only through what it signs.** -/
theorem step_holdings (hu : u.isSigner) (m : Pubkey) (s : Cluster) (x : ClusterAction)
    (s' : Cluster) (hs : s.Reachable rt) (h : s.step rt x = .ok s') :
    s.chain.world.ledger.holdings u m + x.assuredTo u m + s'.pledged u m ≤
      s'.chain.world.ledger.holdings u m + s.stakeOf u m x + s.pledged u m := by
  have hi := hs.chain.inv
  cases x with
  | setOption account authority change =>
      have hle := setOption_pledged hs h u m
      obtain ⟨-, hc, -⟩ := setOption_ok h
      have hassured : (ClusterAction.setOption account authority change).assuredTo u m = 0 := rfl
      rw [hc, hassured]
      omega
  | send x =>
      cases x with
      | system i =>
          obtain ⟨hc, ho⟩ := system_ok h
          obtain ⟨-, hw, -⟩ := Chain.system_kept (Chain.step_ok_iff.mp hc).1
          have hpledged : s'.pledged u m = s.pledged u m := by
            unfold Cluster.pledged pledgedBy
            rw [hw, ho]
          rw [hw, hpledged]
          exact le_rfl
      | act a destination =>
          obtain ⟨hw, -⟩ := Chain.act_inv hi (Chain.step_ok_iff.mp (send_ok h).1).1
          have heff := step_effect hi.world hw
          have hmono := send_pledged hs h u m
          simp only [ClusterAction.assuredTo, Action.assuredTo, stakeOf]
          by_cases howner : (s.asOwner a).spender = some u
          · by_cases hsig : a.spender = some u
            · have hcost := step_signed hi.world hu hw howner m
              rw [asOwner_assured, asOwner_stake] at hcost
              rw [if_pos hsig, if_pos ⟨hsig, howner⟩]
              omega
            · have hcost := delegate_holdings hs hu h howner hsig m
              rw [if_neg hsig, if_neg fun hc => hsig hc.1]
              omega
          · have hle := (heff.spares_user hu howner).holdings_le hi.world.conserved
              (heff.inv hi.world).conserved m
            have hassured : (if a.spender = some u then a.assured m else 0) = 0 := by
              split_ifs with hsig
              · cases a with
                | transfer | burnDirect => rfl
                | _ => exact absurd hsig howner
              · rfl
            rw [hassured, if_neg fun hc => howner hc.2]
            omega

end Cluster

/-- **Custody.**  Over every run, whoever else acts in it and however: what a user holds of a mint
falls by no more than what it staked of it in the actions it signed and what its delegates were
still owed, and rises by at least what those actions assured it.  What others sign takes from it
only what delegates may take, and that only once. -/
theorem custody {rt : Runtime} {s s' : Cluster} (hs : s.Reachable rt) {u : Pubkey}
    (hu : u.isSigner) {xs : List ClusterAction} (t : Run (Cluster.step rt) s xs s') (m : Pubkey) :
    s.chain.world.ledger.holdings u m + (xs.map (ClusterAction.assuredTo u m)).sum +
          s'.pledged u m ≤
        s'.chain.world.ledger.holdings u m +
          sumAlong (Cluster.step rt) (fun s => s.stakeOf u m) s xs + s.pledged u m ∧
      ((∀ x ∈ xs, x.spender ≠ some u) →
        s.chain.world.ledger.holdings u m + s'.pledged u m ≤
          s'.chain.world.ledger.holdings u m + s.pledged u m) := by
  have hle := t.budget (I := fun s => s.Reachable rt)
    (fun _ _ _ h hx => Support.Reachable.run h (.one hx)) (Cluster.step_holdings hu m) hs
  refine ⟨hle, fun hx => ?_⟩
  have hzero : sumAlong (Cluster.step rt) (fun s => s.stakeOf u m) s xs = 0 := by
    refine sumAlong_eq_zero (fun x hmem s => ?_) s
    have hne := hx x hmem
    cases x with
    | setOption account authority change =>
        cases change with
        | approve => exact if_neg fun h => hne (congrArg some h.1)
        | _ => rfl
    | send x =>
        cases x with
        | act => exact if_neg fun h => hne h.1
        | system => rfl
  omega

open Lopsided in
/-- The user approves five `A`, the delegate burns three of them, and the user swaps three more. -/
def issuedTrade : List ClusterAction :=
  [.setOption userA user (.approve (.external 9) 5),
    (Action.burnDirect ⟨mintA, userA, .external 9⟩ 3 stablecoinDecimals).sent,
    (Action.swap accounts.toPoolAccounts .aToB 3 600000).sent]

theorem issuedTrade_run :
    Run (Cluster.step Squatted.runtime) issued issuedTrade
      (issued.afterAll Squatted.runtime issuedTrade) :=
  Cluster.run_afterAll (by decide +kernel)

open Lopsided in
theorem custody_issued :
    issued.chain.world.ledger.holdings user mintA ≤
        (issued.afterAll Squatted.runtime issuedTrade).chain.world.ledger.holdings user mintA + 8 +
          issued.pledged user mintA ∧
      issued.chain.world.ledger.holdings user mintB + 600000 ≤
        (issued.afterAll Squatted.runtime issuedTrade).chain.world.ledger.holdings user mintB +
          issued.pledged user mintB := by
  obtain ⟨hA, -⟩ := custody (u := user) issued_reachable rfl issuedTrade_run mintA
  obtain ⟨hB, -⟩ := custody (u := user) issued_reachable rfl issuedTrade_run mintB
  have hstakeA : sumAlong (Cluster.step Squatted.runtime) (fun s => s.stakeOf user mintA) issued
      issuedTrade = 8 := by decide +kernel
  have hstakeB : sumAlong (Cluster.step Squatted.runtime) (fun s => s.stakeOf user mintB) issued
      issuedTrade = 0 := by decide +kernel
  have hassured : (issuedTrade.map (ClusterAction.assuredTo user mintB)).sum = 600000 := by
    decide +kernel
  rw [hstakeA] at hA
  rw [hstakeB, hassured] at hB
  exact ⟨(Nat.le_add_right _ _).trans ((Nat.le_add_right _ _).trans hA),
    (Nat.le_add_right _ _).trans hB⟩

end StablecoinAmm
