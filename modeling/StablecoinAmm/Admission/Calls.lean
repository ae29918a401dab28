import StablecoinAmm.Chain.Conservation

/-!
# Admission — when Token-2022 does what it is asked to

`Transferred`, `Minted` and `Burned` say what follows from the success of a call.  Here is the
converse: a call succeeds when the accounts are thawed and of the right mint (`Thawed`), the mint
is live with the decimals named (`Tradable`), the authority is the right one and the amount is
there.  Where tokens are conserved nothing overflows: two accounts of a mint hold no more than
its supply.  `Thawed` and `Tradable` depend on the skeleton alone, so they survive the calls of a
handler.
-/

namespace StablecoinAmm
open Support

namespace Ledger

/-- There is a thawed account of `mint` at `k`, owned by `owner`. -/
def Thawed (l : Ledger) (k mint owner : Pubkey) : Prop :=
  ∃ a, l.tokens k = some a ∧ a.mint = mint ∧ a.owner = owner ∧ a.state ≠ .frozen

/-- The mint at `m` is live, and has `d` decimals. -/
def Tradable (l : Ledger) (m : Pubkey) (d : ℕ) : Prop :=
  ∃ M, l.mints m = some M ∧ ¬ M.isPaused ∧ M.decimals = d

variable {l l' : Ledger}

theorem Thawed.hasAccount {k m o : Pubkey} (h : l.Thawed k m o) : l.HasAccount k m o := by
  obtain ⟨a, ha, hm, ho, -⟩ := h
  exact ⟨a, ha, hm, ho⟩

theorem Thawed.of_skeleton {k m o : Pubkey} (h : l'.skeleton = l.skeleton)
    (hk : l.Thawed k m o) : l'.Thawed k m o := by
  obtain ⟨a, ha, hm, ho, hs⟩ := hk
  exact ⟨_, token_of_skeleton h ha, hm, ho, hs⟩

theorem Tradable.of_skeleton {m : Pubkey} {d : ℕ} (h : l'.skeleton = l.skeleton)
    (hm : l.Tradable m d) : l'.Tradable m d := by
  obtain ⟨M, hM, hp, hd⟩ := hm
  exact ⟨_, mint_of_skeleton h hM, hp, hd⟩

theorem live_iff_of {m : Pubkey} {M : Mint} (hM : l.mints m = some M) :
    l.Live m ↔ ¬ M.isPaused := by
  constructor
  · rintro ⟨N, hN, hlive⟩
    obtain rfl := Option.some.inj (hM.symm.trans hN)
    exact hlive
  · exact fun hlive => ⟨M, hM, hlive⟩

/-- Two accounts of a mint hold no more than was issued. -/
theorem Conserved.balance_add_le (h : Conserved l) {j k m o o' : Pubkey} (hne : j ≠ k)
    (hj : l.HasAccount j m o) (hk : l.HasAccount k m o') :
    l.balance j + l.balance k ≤ l.supply m := by
  obtain ⟨a, ha, hma, -⟩ := hj
  obtain ⟨b, hb, hmb, -⟩ := hk
  rw [← balanceOf_of ha hma, ← balanceOf_of hb hmb, ← Finset.sum_pair hne]
  exact (h m).sum_le {j, k}

theorem validateOwner_of {expected signer : Pubkey} (h : signer = expected) :
    validateOwner expected signer signer = .ok () := by
  rw [validateOwner, require_of h, ok_bind, require_of rfl]

/-- **When a transfer succeeds.** -/
theorem transferChecked_of {c : TransferChecked} {n d : ℕ} {o : Pubkey} (hc : Conserved l)
    (hcap : l.supply c.mint < 2 ^ 64) (hm : l.Tradable c.mint d)
    (hs : l.Thawed c.source c.mint c.authority) (hd : l.Thawed c.destination c.mint o)
    (hn : n ≤ l.balance c.source) : ∃ l', l.transferChecked c c.authority n d = .ok l' := by
  obtain ⟨M, hM, hlive, hdec⟩ := hm
  obtain ⟨a, ha, ham, hao, haf⟩ := hs
  obtain ⟨b, hb, hbm, hbo, hbf⟩ := hd
  have hna : n ≤ a.amount := balance_of ha ▸ hn
  have hthawed : a.state ≠ .frozen ∧ b.state ≠ .frozen := ⟨haf, hbf⟩
  have hmint : a.mint = b.mint ∧ a.mint = c.mint := ⟨ham.trans hbm.symm, ham⟩
  simp only [transferChecked, token, mint, ha, hb, hM, okOr_some, ok_bind, require_of hthawed,
    require_of hna, require_of hmint, require_of hdec.symm, require_of hlive,
    validateOwner_of hao.symm]
  split
  · exact ⟨_, rfl⟩
  · rename_i hne
    have hle := hc.balance_add_le hne ⟨a, ha, ham, hao⟩ ⟨b, hb, hbm, hbo⟩
    rw [balance_of ha, balance_of hb] at hle
    have hadd : checkedAdd 64 b.amount n = some _ := checkedAdd_eq_some.mpr ⟨by omega, rfl⟩
    exact ⟨_, by rw [hadd]; rfl⟩

end Ledger

end StablecoinAmm
