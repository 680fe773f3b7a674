import HeaderMiner.Header.View
import HeaderMiner.Main
import HeaderMiner.Miner.Rehearsal
import HeaderMiner.ProofOfWork.Bytes
import HeaderMiner.Rate
import HeaderMiner.Target.Compact
import HeaderMiner.Target.Json
import HeaderMiner.Target.Placing
import HeaderMiner.Worker.Session
import HeaderMiner.Worker.Sweep
import HeaderMiner.Proofs.Miner.History
import HeaderMiner.Proofs.Miner.Operations
import HeaderMiner.Proofs.Miner.Ledger
import HeaderMiner.Proofs.Miner.Supersession
import HeaderMiner.Proofs.Miner.Answers
import HeaderMiner.Proofs.Miner.Rounds
import HeaderMiner.Proofs.Miner.Submission
import HeaderMiner.Proofs.Header.Agreement
import HeaderMiner.Proofs.Miner.Coherence
import HeaderMiner.Proofs.Header.Format
import HeaderMiner.Proofs.Work.Answer
import HeaderMiner.Proofs.Miner.Assertions
import HeaderMiner.Proofs.Miner.OneLoop
import HeaderMiner.Proofs.Miner.Standstill
import HeaderMiner.Proofs.Miner.Defeat
import HeaderMiner.Proofs.Miner.Handover
import HeaderMiner.Proofs.Miner.Outgoing
import HeaderMiner.Proofs.Target.Compaction
import HeaderMiner.Proofs.Target.Decoding
import HeaderMiner.Proofs.Target.Encoding
import HeaderMiner.Proofs.Worker.Matches
import HeaderMiner.Proofs.Worker.CycleProofs
import HeaderMiner.Proofs.Settings.Devices
import HeaderMiner.Proofs.Settings.Keys
import HeaderMiner.Proofs.Header.CycleFormat
import HeaderMiner.Proofs.Text.HexDigits
import HeaderMiner.Proofs.Checks
import HeaderMiner.Proofs.Json.Members
import HeaderMiner.Proofs.Work.Acceptance
import HeaderMiner.Proofs.Rpc.Replies
import HeaderMiner.Proofs.Settings.Precedence
import HeaderMiner.Proofs.Miner.Occupancy
import HeaderMiner.Proofs.Header.Progression
import HeaderMiner.Proofs.Header.Editing
import HeaderMiner.Proofs.Header.Fields
import HeaderMiner.Proofs.Header.Counting
import HeaderMiner.Proofs.Miner.Progression
import HeaderMiner.Miner.Clock
import HeaderMiner.Proofs.Miner.Clock
import HeaderMiner.Proofs.Worker.FirstMatch
import HeaderMiner.Proofs.Worker.Sweeping
import HeaderMiner.Proofs.Worker.Partition
import HeaderMiner.Proofs.Worker.Settlement
import HeaderMiner.Proofs.Miner.Completion
import HeaderMiner.Proofs.Miner.Repetition
import HeaderMiner.Proofs.Worker.Holding
import HeaderMiner.Proofs.Worker.EarlyCancellation
import HeaderMiner.Proofs.Text.Digits
import HeaderMiner.Proofs.Text.Durations
import HeaderMiner.Proofs.Yaml.Gaps
import HeaderMiner.Proofs.Yaml.PlainText
import HeaderMiner.Proofs.Yaml.Quotes
import HeaderMiner.Proofs.Yaml.Blocks
import HeaderMiner.Proofs.Yaml.Scanning
import HeaderMiner.Proofs.Yaml.Records
import HeaderMiner.Proofs.Yaml.Documents
import HeaderMiner.Proofs.Settings.Printing
