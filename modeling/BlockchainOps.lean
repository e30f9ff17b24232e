import BlockchainOps.AccountVault.Account
import BlockchainOps.AccountVault.AccountDir
import BlockchainOps.AccountVault.AccountLife
import BlockchainOps.AccountVault.Backup
import BlockchainOps.AccountVault.CommandRules
import BlockchainOps.AccountVault.Commands
import BlockchainOps.AccountVault.CommandsTheorems
import BlockchainOps.AccountVault.DiscoveryTheorems
import BlockchainOps.AccountVault.Envelope
import BlockchainOps.AccountVault.KeyFile
import BlockchainOps.AccountVault.KeyFileTheorems
import BlockchainOps.AccountVault.Mnemonic
import BlockchainOps.AccountVault.MnemonicTheorems
import BlockchainOps.AccountVault.Names
import BlockchainOps.AccountVault.OpenTheorems
import BlockchainOps.AccountVault.PaperBackup
import BlockchainOps.AccountVault.PartialSeals
import BlockchainOps.AccountVault.Reencrypt
import BlockchainOps.AccountVault.SealResidue
import BlockchainOps.AccountVault.SealTheorems
import BlockchainOps.AccountVault.VanityTheorems
import BlockchainOps.AccountVault.Vault
import BlockchainOps.AccountVault.VaultRuns
import BlockchainOps.Algo.Absent
import BlockchainOps.Algo.AccountScan
import BlockchainOps.Algo.AccountScanRuns
import BlockchainOps.Algo.AccountScanSources
import BlockchainOps.Algo.AccountScanTheorems
import BlockchainOps.Algo.Address
import BlockchainOps.Algo.Algonaut
import BlockchainOps.Algo.Applications
import BlockchainOps.Algo.Arc4
import BlockchainOps.Algo.Arc4Signatures
import BlockchainOps.Algo.AssetLedger
import BlockchainOps.Algo.AssetReconfiguration
import BlockchainOps.Algo.Assets
import BlockchainOps.Algo.Attempts
import BlockchainOps.Algo.CallFee
import BlockchainOps.Algo.Client
import BlockchainOps.Algo.Conduct
import BlockchainOps.Algo.ConductReads
import BlockchainOps.Algo.ConductSends
import BlockchainOps.Algo.ConductTheorems
import BlockchainOps.Algo.Confirmation
import BlockchainOps.Algo.DailyBudget
import BlockchainOps.Algo.DailyBudgetRestarts
import BlockchainOps.Algo.DailyBudgetRuns
import BlockchainOps.Algo.DailyBudgetWindows
import BlockchainOps.Algo.Exchanges
import BlockchainOps.Algo.GovernedRuns
import BlockchainOps.Algo.GroupCalls
import BlockchainOps.Algo.GroupSubmission
import BlockchainOps.Algo.Handle
import BlockchainOps.Algo.Json
import BlockchainOps.Algo.Keys
import BlockchainOps.Algo.LimitCharges
import BlockchainOps.Algo.LocalState
import BlockchainOps.Algo.Mandates
import BlockchainOps.Algo.NoteScanners
import BlockchainOps.Algo.NoteSearch
import BlockchainOps.Algo.Notify
import BlockchainOps.Algo.Operations
import BlockchainOps.Algo.Outbound
import BlockchainOps.Algo.RateLimiter
import BlockchainOps.Algo.RateLimiterTheorems
import BlockchainOps.Algo.RateLimiterWaits
import BlockchainOps.Algo.Reads
import BlockchainOps.Algo.Reporting
import BlockchainOps.Algo.ReserveChange
import BlockchainOps.Algo.Scans
import BlockchainOps.Algo.SentRequests
import BlockchainOps.Algo.StuckBuckets
import BlockchainOps.Algo.TransactionGroup
import BlockchainOps.Algo.TxnScanRuns
import BlockchainOps.Algo.TxnScanTheorems
import BlockchainOps.Algo.Unreachable
import BlockchainOps.Lib.Base32
import BlockchainOps.Lib.Calls
import BlockchainOps.Lib.Confined
import BlockchainOps.Lib.Disk
import BlockchainOps.Lib.Effect
import BlockchainOps.Lib.Failure
import BlockchainOps.Lib.Fallible
import BlockchainOps.Lib.Keyed
import BlockchainOps.Lib.Keyring
import BlockchainOps.Lib.MessagePack
import BlockchainOps.Lib.Metering
import BlockchainOps.Lib.Paging
import BlockchainOps.Lib.Reading
import BlockchainOps.Lib.Regroup
import BlockchainOps.Lib.Timeline
import BlockchainOps.Lib.Triple
import BlockchainOps.Lib.Wire
import BlockchainOps.Sidewinder.Client
import BlockchainOps.Sidewinder.Discovery
import BlockchainOps.Sidewinder.Health
import BlockchainOps.Sidewinder.HealthTheorems
import BlockchainOps.Sidewinder.MutualTls
import BlockchainOps.Sidewinder.NodeCalls
import BlockchainOps.Sidewinder.NodeDelivery
import BlockchainOps.Sidewinder.NodeTransport
import BlockchainOps.Sidewinder.NodeTransportTheorems
import BlockchainOps.Sidewinder.NodeTypes
import BlockchainOps.Sidewinder.Transaction
import BlockchainOps.Sidewinder.TransactionTheorems
import BlockchainOps.Tls.Certificate
import BlockchainOps.Tls.Decoder
import BlockchainOps.Tls.Endpoint
import BlockchainOps.Tls.Handshake
import BlockchainOps.Tls.Resolver
import BlockchainOps.Tls.Verify
