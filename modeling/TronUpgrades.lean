import TronUpgrades.Effects.Trace
import TronUpgrades.Tronbox.Transactions
import TronUpgrades.Tronbox.Operation
import TronUpgrades.Tronbox.Alike
import TronUpgrades.Tronbox.Refined
import TronUpgrades.Tronbox.HostBacked
import TronUpgrades.Effects.Refine
import TronUpgrades.Tronbox.RecordBacked
import TronUpgrades.Effects.Testimony
import TronUpgrades.Tronbox.DeployOrder
import TronUpgrades.Hardhat.UpgradeOrder
import TronUpgrades.Hardhat.DeployOrder
import TronUpgrades.Record.Atomic
import TronUpgrades.Hardhat.Baseline
import TronUpgrades.Hardhat.NamespacedCache
import TronUpgrades.Hardhat.Refusal
import TronUpgrades.Record.Concurrency
import TronUpgrades.Record.Reopen
import TronUpgrades.Retry
import TronUpgrades.Tronbox.NoBricking
import TronUpgrades.Tronbox.SameCode
import TronUpgrades.Tronbox.UpgradeOrder
import TronUpgrades.Address.Base58Check
import TronUpgrades.Effects.Commitment
import TronUpgrades.Checks.Scan
import TronUpgrades.Validation.Gate
import TronUpgrades.Validation.Snapshot
import TronUpgrades.Tronbox.BeforeSpend
import TronUpgrades.Hardhat.Addresses
import TronUpgrades.Deploy.Serialize
import TronUpgrades.Deploy.Queue
import TronUpgrades.Chain.Classify
import TronUpgrades.Chain.Transport
import TronUpgrades.Chain.Slots
import TronUpgrades.Chain.Provider
import TronUpgrades.Chain.Read
import TronUpgrades.Checks.Ends
import TronUpgrades.Validation.Robust
import TronUpgrades.Effects.Tracking
import TronUpgrades.Adoption.Record
import TronUpgrades.Adoption.Import
import TronUpgrades.Adoption.Confirmed
import TronUpgrades.Adoption.Alike
import TronUpgrades.Adoption.Reuse
import TronUpgrades.Chain.Messages
import TronUpgrades.Chain.Endpoint
import TronUpgrades.Chain.Secrets
import TronUpgrades.Output.Channel
import TronUpgrades.Output.Engine
import TronUpgrades.Output.Relay
import TronUpgrades.Environment.Host
import TronUpgrades.Environment.Lineage
import TronUpgrades.Environment.Resolve
import TronUpgrades.Environment.Groups
import TronUpgrades.Environment.Resolution
import TronUpgrades.Environment.Available
import TronUpgrades.Js.Number
import TronUpgrades.Chain.Identity
import TronUpgrades.Record.Name
import TronUpgrades.Keyed.Worklist
import TronUpgrades.Posix.Normal
import TronUpgrades.Validation.ImportClosure
import TronUpgrades.Validation.ImportReach
import TronUpgrades.Validation.SourceGraph
import TronUpgrades.Solidity.Source
import TronUpgrades.Validation.ImportText
import TronUpgrades.Validation.ImportScan
import TronUpgrades.Tronbox.Placeholders
import TronUpgrades.Validation.Freshness
import TronUpgrades.Regex.Match
import TronUpgrades.Regex.Words
import TronUpgrades.Hardhat.StorageLocation
import TronUpgrades.Keyed.Classes
import TronUpgrades.Hardhat.NamespacePrefix
import TronUpgrades.Validation.NamespaceMention
import TronUpgrades.Validation.NamespaceCensus
import TronUpgrades.Chain.ProxySlots
import TronUpgrades.Tronbox.Ownership
import TronUpgrades.Posix.Below
import TronUpgrades.Environment.Packaged
import TronUpgrades.Js.Uri
import TronUpgrades.Chain.AbiString
import TronUpgrades.Record.Reconciled
import TronUpgrades.Record.Reported
import TronUpgrades.Keyed.Grouped
import TronUpgrades.Environment.Ambiguity
import TronUpgrades.Environment.Indexed
import TronUpgrades.Options.Allowances
import TronUpgrades.Chain.Routing
