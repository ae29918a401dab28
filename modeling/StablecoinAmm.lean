import StablecoinAmm.Support.Totals
import StablecoinAmm.Support.ShareValue
import StablecoinAmm.Support.ConstantProduct
import StablecoinAmm.System.Step
import StablecoinAmm.Amm.Quotes
import StablecoinAmm.Chain.Movement
import StablecoinAmm.Chain.Conservation
import StablecoinAmm.System.Shape
import StablecoinAmm.Stablecoin.Effects
import StablecoinAmm.Amm.PoolState
import StablecoinAmm.Chain.Custody
import StablecoinAmm.Amm.Effects
import StablecoinAmm.System.Effects
import StablecoinAmm.System.Preservation
import StablecoinAmm.System.Books
import StablecoinAmm.System.Refinement
import StablecoinAmm.System.History
import StablecoinAmm.Pools.Value
import StablecoinAmm.Pools.Extraction
import StablecoinAmm.Pools.Guards
import StablecoinAmm.Pools.Withdrawal
import StablecoinAmm.Issuance.Accounting
import StablecoinAmm.Issuance.Pause
import StablecoinAmm.Compliance.DefaultDeny
import StablecoinAmm.Compliance.Accounts
import StablecoinAmm.Compliance.Agreement
import StablecoinAmm.Compliance.Ownership
import StablecoinAmm.Pricing.Swaps
import StablecoinAmm.Pricing.Liquidity
import StablecoinAmm.Pools.Ordering
import StablecoinAmm.Issuance.Minters
import StablecoinAmm.Administration.Rotation
import StablecoinAmm.Chain.Alike
import StablecoinAmm.Pools.Alike
import StablecoinAmm.Pools.Donations
import StablecoinAmm.Pricing.Arithmetic
import StablecoinAmm.Amm.Events
import StablecoinAmm.Amm.Traces
import StablecoinAmm.Events.Index
import StablecoinAmm.Events.Reconciliation
import StablecoinAmm.Chain.Lamports
import StablecoinAmm.Chain.Options
import StablecoinAmm.Funding.Addresses
import StablecoinAmm.Funding.Creation
import StablecoinAmm.Funding.Handlers
import StablecoinAmm.Funding.Invariant
import StablecoinAmm.Funding.Prefunding
import StablecoinAmm.System.Cluster
import StablecoinAmm.System.Options
import StablecoinAmm.System.ClusterHistory
import StablecoinAmm.Custody.Holdings
import StablecoinAmm.Custody.Delegates
import StablecoinAmm.Custody.Redemption
import StablecoinAmm.Events.Fees
import StablecoinAmm.Identity.Pairs
import StablecoinAmm.Admission.Availability
import StablecoinAmm.Admission.Issuer
import StablecoinAmm.Locality.Parallel
import StablecoinAmm.Administration.Privileges
