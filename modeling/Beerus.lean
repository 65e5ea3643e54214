import Beerus.Proof
import Beerus.Lib.Patricia
import Beerus.Proof.Walk
import Beerus.Proof.Chain
import Beerus.Proof.Starknet
import Beerus.Proof.Verify
import Beerus.Proof.Soundness
import Beerus.Lib.Memo
import Beerus.Client
import Beerus.Exe.Map
import Beerus.Exe.Cache
import Beerus.Exe.Transparency
import Beerus.Exe
import Beerus.Exe.Provenance
import Beerus.Exe.Overlay
import Beerus.Feeder
import Beerus.Rpc
import Beerus.Rpc.Pairing
import Beerus.Rpc.Binding
import Beerus.Exe.Decoders
import Beerus.Proof.Keys
import Beerus.Rpc.Batch
import Beerus.Rpc.Spelling
import Beerus.Proof.Panics
import Beerus.Proof.Absence
import Beerus.Rpc.Agreement
import Beerus.Exe.Call
import Beerus.Lib.Progress
import Beerus.Service
import Beerus.Service.Honest
import Beerus.Service.Locks
import Beerus.Rpc.Forward
import Beerus.Service.Heads
import Beerus.Service.Http
import Beerus.Startup
import Beerus.Web
import Beerus.Lib.Bounded
import Beerus.Lib.Refine
import Beerus.Service.Stores
import Beerus.Service.Reads
