import SolanaGacha.Core.State
import SolanaGacha.Lib.Fenwick
import SolanaGacha.Lib.Run
import SolanaGacha.Core.Asset
import SolanaGacha.Program.Account
import SolanaGacha.Program.Inventory
import SolanaGacha.Program.Runtime
import SolanaGacha.Program.Helpers
import SolanaGacha.Program.Admin
import SolanaGacha.Program.Entrypoint
import SolanaGacha.Program.Localnet
import SolanaGacha.Index.Counts
import SolanaGacha.Index.Take
import SolanaGacha.Index.Refinement
import SolanaGacha.Ledger.Entry
import SolanaGacha.Index.Frame
import SolanaGacha.Ledger.Helpers
import SolanaGacha.Index.Selection
import SolanaGacha.Ledger.Draw
import SolanaGacha.Ledger.Call
import SolanaGacha.Ledger.AdminEffects
import SolanaGacha.Ledger.PlayerEffects
import SolanaGacha.Ledger.OperatorEffects
import SolanaGacha.Banner.Basic
import SolanaGacha.Banner.Step
import SolanaGacha.Banner.Calls
import SolanaGacha.Banner.Held
import SolanaGacha.Banner.Shelved
import SolanaGacha.Banner.Sound
import SolanaGacha.System.Step
import SolanaGacha.System.Localnet
import SolanaGacha.Ledger.Exact
import SolanaGacha.System.Queue
import SolanaGacha.System.Vault
import SolanaGacha.Banner.History
import SolanaGacha.System.Stock
import SolanaGacha.System.Custody
import SolanaGacha.System.Draws
import SolanaGacha.System.Isolation
import SolanaGacha.Banner.Purchase
import SolanaGacha.System.Purchases
import SolanaGacha.System.Buybacks
import SolanaGacha.Ledger.Lamports
import SolanaGacha.Ledger.Enabled
import SolanaGacha.System.Exits
import SolanaGacha.System.Settlement
import SolanaGacha.System.Retirement
import SolanaGacha.System.Aborts
import SolanaGacha.Sdk.Plan
import SolanaGacha.Sdk.Agreement
import SolanaGacha.Core.Odds
import SolanaGacha.Index.Failures
import SolanaGacha.Sdk.Instructions
import SolanaGacha.System.Kinds
import SolanaGacha.Lib.Packing
import SolanaGacha.Sdk.Batches
import SolanaGacha.Sdk.Capacity
import SolanaGacha.System.Deliveries
import SolanaGacha.Sdk.Recovery
import SolanaGacha.System.Privileges
import SolanaGacha.System.Handlers
import SolanaGacha.Sdk.Wire
import SolanaGacha.System.Inputs
import SolanaGacha.Sdk.Client
import SolanaGacha.System.Standing
import SolanaGacha.Sdk.Relay
import SolanaGacha.System.Tallies
import SolanaGacha.System.Revenue
import SolanaGacha.Ledger.Events
import SolanaGacha.System.Journal
import SolanaGacha.Sdk.KitInstructions
import SolanaGacha.Sdk.KitAgreement
import SolanaGacha.Sdk.KitClient
import SolanaGacha.Sdk.Slices
import SolanaGacha.System.Refines
import SolanaGacha.Index.Odds
import SolanaGacha.System.Odds
import SolanaGacha.System.WindDown
