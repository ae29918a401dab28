import Mathlib.Data.Nat.Notation

/-!
# Chain — addresses

A program-derived address is a hash of its seeds that no key pair signs for; the two programs
derive nine families of them.  The model keeps the seeds themselves: two derivations give one
address only when program and seeds agree, and no derived address is an ordinary one.  The
bumps, which only make the hash miss the curve, are left out with the hash.

`Pubkey.external` stands for every other address: key pairs, and token accounts that users
create.  `Pubkey.isSigner` holds for these alone; a derived address signs only through the
program that owns its seeds, which the cross-program calls model.
-/

namespace StablecoinAmm

/-- A `[u8; 8]` symbol. -/
def Symbol : Type := { bytes : List UInt8 // bytes.length = 8 }

instance : DecidableEq Symbol := inferInstanceAs (DecidableEq { bytes : List UInt8 // bytes.length = 8 })

/-- An address, as the seeds it is derived from. -/
inductive Pubkey where
  /-- `Pubkey::default()`. -/
  | default
  | external (n : ℕ)
  /-- `[MINT_SEED, symbol]` of the stablecoin program. -/
  | mint (symbol : Symbol)
  /-- `[CONFIG_SEED, mint]`. -/
  | config (mint : Pubkey)
  /-- `[MINTER_SEED, config, authority]`. -/
  | minterRole (config authority : Pubkey)
  /-- `[POLICY_SEED, mint, token_account]`. -/
  | walletPolicy (mint tokenAccount : Pubkey)
  /-- `[POOL_SEED, mint_a, mint_b]` of the AMM program. -/
  | pool (mintA mintB : Pubkey)
  /-- `[VAULT_SEED, pool, mint]`. -/
  | vault (pool mint : Pubkey)
  /-- `[LP_MINT_SEED, pool]`. -/
  | lpMint (pool : Pubkey)
  /-- `[LOCKED_LP_SEED, pool]`. -/
  | lockedLp (pool : Pubkey)
  deriving DecidableEq

/-- Whether a transaction can carry a signature of this address. -/
def Pubkey.isSigner : Pubkey → Bool
  | .external _ => true
  | _ => false

theorem Pubkey.isSigner_iff {k : Pubkey} : k.isSigner ↔ ∃ n, k = .external n := by
  cases k <;> simp [Pubkey.isSigner]

end StablecoinAmm
