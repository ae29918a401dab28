import StablecoinAmm.Chain.Movement
import StablecoinAmm.Support.Totals

/-!
# Chain — conservation of tokens

`Conserved l`: the balances of every mint add up to its supply.  Every ledger instruction keeps
it: the ones that move amounts by `Transferred.totals`, `Minted.totals` and `Burned.totals`, the
ones that create, close or rewrite accounts because they leave every amount where it is
(`Settled`).

`share sel` is the part of the balances that a predicate on accounts selects.  With the accounts
of one mint it is `balanceOf`, and conservation is about it; with those of one mint and one
owner it is `heldBy`, and its sum is what a user holds (`holdings`).
-/

namespace StablecoinAmm
open Support

namespace Ledger

/-- `sel` holds of the account at `k`; it is asked about the account without its amount. -/
def selects (l : Ledger) (sel : TokenAccount → Bool) (k : Pubkey) : Bool :=
  (l.skeleton.tokens k).any sel

/-- The balance at `k`, if `sel` selects it. -/
def share (l : Ledger) (sel : TokenAccount → Bool) (k : Pubkey) : ℕ :=
  if l.selects sel k then l.balance k else 0

/-- What the account at `k` holds of the mint `m`. -/
def balanceOf (l : Ledger) (m : Pubkey) : Pubkey → ℕ := l.share fun a => a.mint = m

/-- What the account at `k` holds of the mint `m` for `user`. -/
def heldBy (l : Ledger) (user m : Pubkey) : Pubkey → ℕ :=
  l.share fun a => a.owner = user ∧ a.mint = m

/-- **What `user` holds of the mint `m`**, over all its accounts. -/
noncomputable def holdings (l : Ledger) (user m : Pubkey) : ℕ := ∑ᶠ k, l.heldBy user m k

/-- **The balances of every mint add up to its supply.** -/
def Conserved (l : Ledger) : Prop := ∀ m, Totals (l.balanceOf m) (l.supply m)

variable {l l' : Ledger} {sel : TokenAccount → Bool}

/-! ### Selected balances -/

theorem selects_of_skeleton (h : l'.skeleton = l.skeleton) (sel : TokenAccount → Bool)
    (k : Pubkey) : l'.selects sel k = l.selects sel k := by
  rw [selects, h, selects]

theorem selects_of {k : Pubkey} {a : TokenAccount} (h : l.tokens k = some a) :
    l.selects sel k = sel a.erase := by
  simp [selects, skeleton, h]

theorem share_of {k : Pubkey} {a : TokenAccount} (h : l.tokens k = some a) :
    l.share sel k = if sel a.erase then a.amount else 0 := by
  rw [share, selects_of h, balance_of h]

theorem share_none {k : Pubkey} (h : l.tokens k = none) : l.share sel k = 0 := by
  simp [share, selects, skeleton, h]

theorem share_congr {k : Pubkey} (h : l'.tokens k = l.tokens k) (sel : TokenAccount → Bool) :
    l'.share sel k = l.share sel k := by
  rcases hk : l.tokens k with _ | a
  · rw [share_none hk, share_none (h.trans hk)]
  · rw [share_of hk, share_of (h.trans hk)]

theorem balanceOf_of {k m : Pubkey} {a : TokenAccount} (h : l.tokens k = some a)
    (hm : a.mint = m) : l.balanceOf m k = l.balance k := by
  rw [balanceOf, share_of h, balance_of h, if_pos (by simp [TokenAccount.erase, hm])]

theorem heldBy_le (l : Ledger) (user m k : Pubkey) : l.heldBy user m k ≤ l.balanceOf m k := by
  rcases h : l.tokens k with _ | a
  · rw [heldBy, share_none h]; exact Nat.zero_le _
  · rw [heldBy, balanceOf, share_of h, share_of h]
    by_cases hm : a.mint = m
    · simp only [TokenAccount.erase, hm]
      split <;> simp
    · simp [TokenAccount.erase, hm]

/-! ### Totals of selected balances -/

/-- If amounts `u` leave and `v` arrive, the selected ones of them leave and arrive in the
selected balances. -/
theorem share_shift (hs : l'.skeleton = l.skeleton) {u v : Pubkey → ℕ}
    (hb : ∀ k, l'.balance k + u k = l.balance k + v k) (sel : TokenAccount → Bool) (k : Pubkey) :
    l'.share sel k + (if l.selects sel k then u k else 0) =
      l.share sel k + if l.selects sel k then v k else 0 := by
  rw [share, share, selects_of_skeleton hs]
  by_cases h : l.selects sel k
  · simp only [h, if_true]; exact hb k
  · simp only [h]; rfl

theorem share_raise (hs : l'.skeleton = l.skeleton) {v : Pubkey → ℕ}
    (hb : ∀ k, l'.balance k = l.balance k + v k) (sel : TokenAccount → Bool) (k : Pubkey) :
    l'.share sel k + 0 = l.share sel k + if l.selects sel k then v k else 0 := by
  simpa using share_shift (u := fun _ => 0) hs hb sel k

theorem share_lower (hs : l'.skeleton = l.skeleton) {u : Pubkey → ℕ}
    (hb : ∀ k, l'.balance k + u k = l.balance k) (sel : TokenAccount → Bool) (k : Pubkey) :
    l'.share sel k + (if l.selects sel k then u k else 0) = l.share sel k + 0 := by
  simpa using share_shift (v := fun _ => 0) hs hb sel k

/-- A transfer moves the total of the selected balances by what it takes from and gives to
selected accounts. -/
theorem Transferred.totals {c : TransferChecked} {s : Pubkey} {n N N' : ℕ}
    (t : Transferred l c s n l') (h : Totals (l.share sel) N)
    (e : N' + (if l.selects sel c.source then n else 0) =
      N + if l.selects sel c.destination then n else 0) : Totals (l'.share sel) N' :=
  h.shift (.single_where c.source n _) (.single_where c.destination n _)
    (share_shift t.skeleton t.balances sel) e

theorem Minted.totals {c : MintToChecked} {s : Pubkey} {n N N' : ℕ}
    (t : Minted l c s n l') (h : Totals (l.share sel) N)
    (e : N' = N + if l.selects sel c.destination then n else 0) : Totals (l'.share sel) N' :=
  h.shift .zero (.single_where c.destination n _) (share_raise t.skeleton t.balances sel) e

theorem Burned.totals {c : BurnChecked} {s : Pubkey} {n N N' : ℕ}
    (t : Burned l c s n l') (h : Totals (l.share sel) N)
    (e : N' + (if l.selects sel c.source then n else 0) = N) : Totals (l'.share sel) N' :=
  h.shift (.single_where c.source n _) .zero (share_lower t.skeleton t.balances sel) e

/-! ### Conservation -/

theorem Conserved.empty : Conserved .empty := fun _ => .zero

/-- No account holds more of a mint than was issued. -/
theorem Conserved.balance_le (h : Conserved l) {k m o : Pubkey} (hk : l.HasAccount k m o) :
    l.balance k ≤ l.supply m := by
  obtain ⟨a, ha, hm, -⟩ := hk
  rw [← balanceOf_of ha hm]
  exact (h m).apply_le k

theorem selects_mint_iff {k m : Pubkey} {a : TokenAccount} (h : l.tokens k = some a) :
    l.selects (fun a => a.mint = m) k ↔ a.mint = m := by
  rw [selects_of h, decide_eq_true_iff]; rfl

theorem Transferred.conserved {c : TransferChecked} {s : Pubkey} {n : ℕ}
    (t : Transferred l c s n l') (h : Conserved l) : Conserved l' := fun m => by
  obtain ⟨a, ha, ham, -⟩ := t.source
  obtain ⟨b, hb, hbm, -⟩ := t.destination
  refine t.totals (h m) ?_
  -- source and destination are of one mint: both are selected, or neither
  simp only [selects_mint_iff ha, selects_mint_iff hb, ham, hbm, t.supplies]

theorem Minted.conserved {c : MintToChecked} {s : Pubkey} {n : ℕ}
    (t : Minted l c s n l') (h : Conserved l) : Conserved l' := fun m => by
  obtain ⟨a, ha, ham, -⟩ := t.destination
  refine t.totals (h m) ?_
  simp only [selects_mint_iff ha, ham, t.supplies, eq_comm (a := m)]

theorem Burned.conserved {c : BurnChecked} {s : Pubkey} {n : ℕ}
    (t : Burned l c s n l') (h : Conserved l) : Conserved l' := fun m => by
  obtain ⟨a, ha, ham, -⟩ := t.source
  refine t.totals (h m) ?_
  have hs := t.supplies m
  simpa only [selects_mint_iff ha, ham, eq_comm (a := m)] using hs

/-! ### What a user holds -/

theorem Conserved.held (h : Conserved l) (user m : Pubkey) :
    Totals (l.heldBy user m) (l.holdings user m) := by
  obtain ⟨n, hn⟩ := (h m).of_support (g := l.heldBy user m)
    fun k hk => Nat.le_zero.mp (hk ▸ heldBy_le l user m k)
  rw [holdings, hn.finsum_eq]
  exact hn

theorem selects_held_iff {k m o u n : Pubkey} (h : l.HasAccount k m o) :
    l.selects (fun a => a.owner = u ∧ a.mint = n) k ↔ o = u ∧ m = n := by
  obtain ⟨a, ha, rfl, rfl⟩ := h
  rw [selects_of ha, decide_eq_true_iff]; rfl

theorem Transferred.holdings {c : TransferChecked} {signer : Pubkey} {amount : ℕ}
    {m s d u n : Pubkey} (t : Transferred l c signer amount l') (h : Conserved l)
    (hs : l.HasAccount c.source m s) (hd : l.HasAccount c.destination m d) :
    l'.holdings u n + (if s = u ∧ m = n then amount else 0) =
      l.holdings u n + if d = u ∧ m = n then amount else 0 := by
  have := (h.held u n).shift_eq ((t.conserved h).held u n)
    (.single_where c.source amount _) (.single_where c.destination amount _)
    (share_shift t.skeleton t.balances fun a => a.owner = u ∧ a.mint = n)
  simpa only [selects_held_iff hs, selects_held_iff hd] using this

theorem Minted.holdings {c : MintToChecked} {signer : Pubkey} {amount : ℕ}
    {m d u n : Pubkey} (t : Minted l c signer amount l') (h : Conserved l)
    (hd : l.HasAccount c.destination m d) :
    l'.holdings u n = l.holdings u n + if d = u ∧ m = n then amount else 0 := by
  have := (h.held u n).shift_eq ((t.conserved h).held u n) .zero
    (.single_where c.destination amount _)
    (share_raise t.skeleton t.balances fun a => a.owner = u ∧ a.mint = n)
  simpa only [selects_held_iff hd, Nat.add_zero] using this

theorem Burned.holdings {c : BurnChecked} {signer : Pubkey} {amount : ℕ}
    {m s u n : Pubkey} (t : Burned l c signer amount l') (h : Conserved l)
    (hs : l.HasAccount c.source m s) :
    l'.holdings u n + (if s = u ∧ m = n then amount else 0) = l.holdings u n := by
  have := (h.held u n).shift_eq ((t.conserved h).held u n)
    (.single_where c.source amount _) .zero
    (share_lower t.skeleton t.balances fun a => a.owner = u ∧ a.mint = n)
  simpa only [selects_held_iff hs, Nat.add_zero] using this

/-- What an account of another holds and what a user holds were both issued. -/
theorem Conserved.balance_add_holdings_le (h : Conserved l) {k m o user : Pubkey}
    (hk : l.HasAccount k m o) (ho : o ≠ user) : l.balance k + l.holdings user m ≤ l.supply m := by
  have hsum := (Totals.single_where k (l.balance k) fun _ => True).add (h.held user m)
  rw [if_pos trivial] at hsum
  refine hsum.mono (h m) fun j => ?_
  by_cases hj : j = k
  · -- the other's account is none of the user's
    subst hj
    obtain ⟨a, ha, hm, rfl⟩ := hk
    have hzero : l.heldBy user m j = 0 := by
      rw [heldBy, share_of ha, if_neg (by simp [TokenAccount.erase, ho])]
    rw [hzero, balanceOf_of ha hm]
    simp
  · simpa [hj] using heldBy_le l user m j

/-! ### Instructions that move nothing -/

/-- No account holds more or less of any mint, and every supply is as it was. -/
structure Settled (l l' : Ledger) : Prop where
  balanceOf : ∀ m k, l'.balanceOf m k = l.balanceOf m k
  balance : ∀ k, l'.balance k = l.balance k
  supply : ∀ m, l'.supply m = l.supply m

theorem Settled.refl (l : Ledger) : Settled l l := ⟨fun _ _ => rfl, fun _ => rfl, fun _ => rfl⟩

theorem Settled.trans {l₁ : Ledger} (h₁ : Settled l l₁) (h₂ : Settled l₁ l') : Settled l l' where
  balanceOf m k := (h₂.balanceOf m k).trans (h₁.balanceOf m k)
  balance k := (h₂.balance k).trans (h₁.balance k)
  supply m := (h₂.supply m).trans (h₁.supply m)

theorem Settled.conserved (t : Settled l l') (h : Conserved l) : Conserved l' := fun m => by
  rw [t.supply, show l'.balanceOf m = l.balanceOf m from funext (t.balanceOf m)]
  exact h m

/-- An account is rewritten with its mint and amount kept, or appears or vanishes empty. -/
theorem Settled.of_tokens {k : Pubkey} (hm : l'.mints = l.mints)
    (ht : ∀ j, j ≠ k → l'.tokens j = l.tokens j)
    (hk : ∀ m, l'.balanceOf m k = l.balanceOf m k) (hb : l'.balance k = l.balance k) :
    Settled l l' where
  balanceOf m j := by
    by_cases hj : j = k
    · exact hj ▸ hk m
    · exact share_congr (ht j hj) _
  balance j := by
    by_cases hj : j = k
    · exact hj ▸ hb
    · rw [Ledger.balance, ht j hj, Ledger.balance]
  supply m := by rw [Ledger.supply, hm, Ledger.supply]

theorem settled_setToken {k : Pubkey} {a b : TokenAccount} (h : l.tokens k = some a)
    (hm : b.mint = a.mint) (hn : b.amount = a.amount) : Settled l (l.setToken k b) := by
  have hb : (l.setToken k b).tokens k = some b := setToken_tokens_self ..
  refine .of_tokens rfl (fun j hj => setToken_tokens_of_ne _ _ _ hj) (fun m => ?_) ?_
  · rw [balanceOf, balanceOf, share_of hb, share_of h, hn]
    simp only [TokenAccount.erase, hm]; rfl
  · rw [balance_of hb, balance_of h, hn]

theorem settled_create {k : Pubkey} {b : TokenAccount} (h : l.tokens k = none)
    (hn : b.amount = 0) : Settled l (l.setToken k b) := by
  have hb : (l.setToken k b).tokens k = some b := setToken_tokens_self ..
  refine .of_tokens rfl (fun j hj => setToken_tokens_of_ne _ _ _ hj) (fun m => ?_) ?_
  · rw [balanceOf, balanceOf, share_of hb, share_none h, hn, ite_self]
  · rw [balance_of hb, hn, balance, h]; rfl

theorem settled_close {k : Pubkey} {a : TokenAccount} (h : l.tokens k = some a)
    (hn : a.amount = 0) :
    Settled l { l with tokens := Function.update l.tokens k none } := by
  have hb : ({ l with tokens := Function.update l.tokens k none } : Ledger).tokens k = none :=
    Function.update_self ..
  refine .of_tokens rfl (fun j hj => Function.update_of_ne hj ..) (fun m => ?_) ?_
  · rw [balanceOf, balanceOf, share_none hb, share_of h, hn, ite_self]
  · rw [balance, hb, balance_of h, hn]; rfl

theorem settled_setMint {m : Pubkey} {M : Mint} (h : M.supply = l.supply m) :
    Settled l (l.setMint m M) where
  balanceOf _ _ := rfl
  balance _ := rfl
  supply j := by
    by_cases hj : j = m
    · subst hj
      rw [← h]; simp [Ledger.supply, setMint]
    · simp [Ledger.supply, setMint, hj]

end Ledger

end StablecoinAmm
