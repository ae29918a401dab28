import StablecoinAmm.Chain.World
import StablecoinAmm.Support.Footprints

/-!
# Locality — the world, account by account

A world is a family of cells, one for each address (`World.cells`).  Here is how reading, writing
and the instructions of Token-2022 go through a splice of two worlds: whatever the accounts that
are not named hold, the accounts that are named fare the same.
-/

namespace StablecoinAmm
open Support

/-- What stands at an address. -/
structure Cell where
  addressBytes : List UInt8
  mint : Option Mint
  token : Option TokenAccount
  config : Option MintConfig
  minterRole : Option MinterRole
  walletPolicy : Option WalletPolicy
  pool : Option Pool

def World.cells : World ≃ (Pubkey → Cell) where
  toFun w k :=
    ⟨w.addressBytes k, w.ledger.mints k, w.ledger.tokens k, w.configs k, w.minterRoles k,
      w.walletPolicies k, w.pools k⟩
  invFun f :=
    { addressBytes := fun k => (f k).addressBytes
      ledger := ⟨fun k => (f k).mint, fun k => (f k).token⟩
      configs := fun k => (f k).config
      minterRoles := fun k => (f k).minterRole
      walletPolicies := fun k => (f k).walletPolicy
      pools := fun k => (f k).pool }
  left_inv _ := rfl
  right_inv _ := rfl

/-- The accounts at `ks` from `w`, the others from `v`. -/
def World.splice (ks : List Pubkey) (w v : World) : World := Support.splice World.cells ks w v

namespace Ledger

/-- The token accounts and mints at `ks` from `l`, the others from `m`. -/
def splice (ks : List Pubkey) (l m : Ledger) : Ledger where
  mints k := if k ∈ ks then l.mints k else m.mints k
  tokens k := if k ∈ ks then l.tokens k else m.tokens k

variable {ks : List Pubkey} {l m : Ledger} {k : Pubkey}

theorem splice_mints (hk : k ∈ ks) : (splice ks l m).mints k = l.mints k := if_pos hk

theorem splice_tokens (hk : k ∈ ks) : (splice ks l m).tokens k = l.tokens k := if_pos hk

theorem token_splice (hk : k ∈ ks) : (splice ks l m).token k = l.token k := by
  rw [token, token, splice_tokens hk]

theorem mint_splice (hk : k ∈ ks) : (splice ks l m).mint k = l.mint k := by
  rw [mint, mint, splice_mints hk]

/-! ### Writing -/

theorem setMint_splice (hk : k ∈ ks) (M : Mint) :
    (splice ks l m).setMint k M = splice ks (l.setMint k M) m := by
  rw [setMint, splice, splice, update_ite hk]
  rfl

theorem setToken_splice (hk : k ∈ ks) (a : TokenAccount) :
    (splice ks l m).setToken k a = splice ks (l.setToken k a) m := by
  rw [setToken, splice, splice, update_ite hk]
  rfl

theorem modifyToken_splice (hk : k ∈ ks) (f : TokenAccount → TokenAccount) :
    (splice ks l m).modifyToken k f = splice ks (l.modifyToken k f) m := by
  rw [modifyToken, splice_tokens hk, splice, splice, update_ite hk]
  rfl

theorem credit_splice (hk : k ∈ ks) (n : ℕ) :
    (splice ks l m).credit k n = splice ks (l.credit k n) m := modifyToken_splice hk _

theorem debit_splice (hk : k ∈ ks) (n : ℕ) :
    (splice ks l m).debit k n = splice ks (l.debit k n) m := modifyToken_splice hk _

theorem setSupply_splice (hk : k ∈ ks) (n : ℕ) :
    (splice ks l m).setSupply k n = splice ks (l.setSupply k n) m := by
  rw [setSupply, splice_mints hk, splice, splice, update_ite hk]
  rfl

theorem removeToken_splice (hk : k ∈ ks) :
    { splice ks l m with tokens := Function.update (splice ks l m).tokens k none } =
      splice ks { l with tokens := Function.update l.tokens k none } m := by
  rw [splice, splice, update_ite hk]

/-! ### The instructions of Token-2022 -/

theorem transferChecked_splice {c : TransferChecked} {signer : Pubkey} {n d : ℕ}
    (hs : c.source ∈ ks) (hm : c.mint ∈ ks) (hd : c.destination ∈ ks) :
    (splice ks l m).transferChecked c signer n d =
      (fun l' => splice ks l' m) <$> l.transferChecked c signer n d := by
  simp only [transferChecked, token_splice hs, token_splice hd, mint_splice hm, debit_splice hs,
    credit_splice hd, map_bind, map_ite, map_pure]

theorem mintToChecked_splice {c : MintToChecked} {signer : Pubkey} {n d : ℕ}
    (hm : c.mint ∈ ks) (hd : c.destination ∈ ks) :
    (splice ks l m).mintToChecked c signer n d =
      (fun l' => splice ks l' m) <$> l.mintToChecked c signer n d := by
  simp only [mintToChecked, token_splice hd, mint_splice hm, credit_splice hd, setSupply_splice hm,
    map_bind, map_pure]

theorem burnChecked_splice {c : BurnChecked} {signer : Pubkey} {n d : ℕ}
    (hm : c.mint ∈ ks) (hs : c.source ∈ ks) :
    (splice ks l m).burnChecked c signer n d =
      (fun l' => splice ks l' m) <$> l.burnChecked c signer n d := by
  simp only [burnChecked, token_splice hs, mint_splice hm, debit_splice hs, setSupply_splice hm,
    map_bind, map_pure]

theorem toggleFreeze_splice {before after : AccountState} {j authority signer : Pubkey}
    (hk : k ∈ ks) (hj : j ∈ ks) :
    toggleFreeze before after (splice ks l m) k j authority signer =
      (fun l' => splice ks l' m) <$> toggleFreeze before after l k j authority signer := by
  simp only [toggleFreeze, token_splice hk, mint_splice hj, setToken_splice hk, map_bind, map_pure]

theorem initializeAccount3_splice {j owner : Pubkey} {immutableOwner : Bool} (hk : k ∈ ks)
    (hj : j ∈ ks) :
    (splice ks l m).initializeAccount3 k j owner immutableOwner =
      (fun l' => splice ks l' m) <$> l.initializeAccount3 k j owner immutableOwner := by
  simp only [initializeAccount3, splice_tokens hk, mint_splice hj, setToken_splice hk, map_bind,
    map_pure]

theorem initializeMint2_splice {decimals : ℕ} {mintAuthority : Pubkey}
    {freezeAuthority : Option Pubkey} {extensions : List ExtensionType}
    {defaultState : AccountState} {pausable : Option PausableConfig}
    {metadata : Option TokenMetadata} (hk : k ∈ ks) :
    (splice ks l m).initializeMint2 k decimals mintAuthority freezeAuthority extensions
        defaultState pausable metadata =
      (fun l' => splice ks l' m) <$> l.initializeMint2 k decimals mintAuthority freezeAuthority
        extensions defaultState pausable metadata := by
  simp only [initializeMint2, splice_mints hk, setMint_splice hk, map_bind, map_pure]

theorem pausableSet_splice {authority signer : Pubkey} {paused : Bool} (hk : k ∈ ks) :
    (splice ks l m).pausableSet k authority paused signer =
      (fun l' => splice ks l' m) <$> l.pausableSet k authority paused signer := by
  simp only [pausableSet, mint_splice hk, setMint_splice hk, map_bind, map_pure]

theorem setOwner_splice {authority newOwner signer : Pubkey} (hk : k ∈ ks) :
    (splice ks l m).setOwner k authority newOwner signer =
      (fun l' => splice ks l' m) <$> l.setOwner k authority newOwner signer := by
  simp only [setOwner, token_splice hk, setToken_splice hk, map_bind, map_pure]

theorem closeAccount_splice {authority signer : Pubkey} (hk : k ∈ ks) :
    (splice ks l m).closeAccount k authority signer =
      (fun l' => splice ks l' m) <$> l.closeAccount k authority signer := by
  simp only [closeAccount, token_splice hk, removeToken_splice hk, map_bind, map_pure]

end Ledger

/-! ### The world -/

namespace World

variable {ks : List Pubkey} {w v : World} {k : Pubkey}

theorem splice_addressBytes (hk : k ∈ ks) : (splice ks w v).addressBytes k = w.addressBytes k :=
  congrArg Cell.addressBytes ((cells_splice cells ks w v k).trans (if_pos hk))

theorem splice_configs (hk : k ∈ ks) : (splice ks w v).configs k = w.configs k :=
  congrArg Cell.config ((cells_splice cells ks w v k).trans (if_pos hk))

theorem splice_minterRoles (hk : k ∈ ks) : (splice ks w v).minterRoles k = w.minterRoles k :=
  congrArg Cell.minterRole ((cells_splice cells ks w v k).trans (if_pos hk))

theorem splice_walletPolicies (hk : k ∈ ks) :
    (splice ks w v).walletPolicies k = w.walletPolicies k :=
  congrArg Cell.walletPolicy ((cells_splice cells ks w v k).trans (if_pos hk))

theorem splice_pools (hk : k ∈ ks) : (splice ks w v).pools k = w.pools k :=
  congrArg Cell.pool ((cells_splice cells ks w v k).trans (if_pos hk))

/-- Account by account. -/
theorem splice_eq (ks : List Pubkey) (w v : World) :
    splice ks w v =
      { addressBytes := fun k => if k ∈ ks then w.addressBytes k else v.addressBytes k
        ledger := w.ledger.splice ks v.ledger
        configs := fun k => if k ∈ ks then w.configs k else v.configs k
        minterRoles := fun k => if k ∈ ks then w.minterRoles k else v.minterRoles k
        walletPolicies := fun k => if k ∈ ks then w.walletPolicies k else v.walletPolicies k
        pools := fun k => if k ∈ ks then w.pools k else v.pools k } := by
  refine ext_cells cells fun k => (cells_splice cells ks w v k).trans ?_
  by_cases hk : k ∈ ks
  · simp only [cells, Ledger.splice, if_pos hk, Equiv.coe_fn_mk]
  · simp only [cells, Ledger.splice, if_neg hk, Equiv.coe_fn_mk]

theorem splice_ledger : (splice ks w v).ledger = w.ledger.splice ks v.ledger := by
  rw [splice_eq]

theorem setLedger_splice (l : Ledger) :
    { splice ks w v with ledger := l.splice ks v.ledger } = splice ks { w with ledger := l } v := by
  rw [splice_eq, splice_eq]

theorem setConfig_splice (hk : k ∈ ks) (c : MintConfig) :
    (splice ks w v).setConfig k c = splice ks (w.setConfig k c) v := by
  rw [setConfig, splice_eq, splice_eq, update_ite hk]
  rfl

theorem setMinterRole_splice (hk : k ∈ ks) (r : Option MinterRole) :
    (splice ks w v).setMinterRole k r = splice ks (w.setMinterRole k r) v := by
  rw [setMinterRole, splice_eq, splice_eq, update_ite hk]
  rfl

theorem setWalletPolicy_splice (hk : k ∈ ks) (p : WalletPolicy) :
    (splice ks w v).setWalletPolicy k p = splice ks (w.setWalletPolicy k p) v := by
  rw [setWalletPolicy, splice_eq, splice_eq, update_ite hk]
  rfl

theorem setPool_splice (hk : k ∈ ks) (P : Pool) :
    (splice ks w v).setPool k P = splice ks (w.setPool k P) v := by
  rw [setPool, splice_eq, splice_eq, update_ite hk]
  rfl

end World

theorem invoke_map {ε α β : Type} (f : α → β) (x : Except TokenError α) :
    (invoke (f <$> x) : Except (ProgramError ε) β) = f <$> invoke x := by
  cases x <;> rfl

end StablecoinAmm
