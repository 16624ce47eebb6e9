import AuroraIngest.Go.Std
import AuroraIngest.Captive.Ledger
import AuroraIngest.Captive.State
import AuroraIngest.Captive.Backend
import AuroraIngest.Captive.Step
import AuroraIngest.Captive.Invariant
import AuroraIngest.Captive.Consumer
import AuroraIngest.Captive.Representation
import AuroraIngest.Captive.Stream
import AuroraIngest.Captive.Prepare
import AuroraIngest.Captive.Cached
import AuroraIngest.Captive.Remote
import AuroraIngest.Captive.Config
import AuroraIngest.Captive.Deadlock
import AuroraIngest.Captive.Replay
import AuroraIngest.Captive.ReplayRun
import AuroraIngest.Captive.Online
import AuroraIngest.Captive.Latest
import AuroraIngest.Captive.CoreRunner
import AuroraIngest.Captive.Overflow
import AuroraIngest.Captive.RunnerChannels
import AuroraIngest.Captive.RunnerClose
import AuroraIngest.Captive.LogLine
import AuroraIngest.Ingest.ChangeCache
import AuroraIngest.Ingest.History
import AuroraIngest.Ingest.Processors
import AuroraIngest.Ingest.Batching
import AuroraIngest.Ingest.Commit
import AuroraIngest.Ingest.Store
import AuroraIngest.Ingest.Runner
import AuroraIngest.Ingest.CaptiveBackend
import AuroraIngest.Friendbot.Minions
import AuroraIngest.Txnbuild.AllowTrust
