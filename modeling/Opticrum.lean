import Opticrum.Calculator.Binaries
import Opticrum.Calculator.Cinnabar
import Opticrum.Calculator.Completion
import Opticrum.Calculator.Draft
import Opticrum.Calculator.FiberAddress
import Opticrum.Calculator.Instruction
import Opticrum.Calculator.Molecule
import Opticrum.Calculator.Operation
import Opticrum.Calculator.Pipeline
import Opticrum.Calculator.Reader
import Opticrum.Calculator.Scan
import Opticrum.Calculator.Simulator
import Opticrum.Calculator.Tenancy
import Opticrum.Calculator.TokenDraft
import Opticrum.Calculator.Types
import Opticrum.Ckb.Syscall
import Opticrum.Ckb.Transaction
import Opticrum.Contract.Acceptance
import Opticrum.Contract.Cells
import Opticrum.Contract.Chain
import Opticrum.Contract.Construct
import Opticrum.Contract.Faults
import Opticrum.Contract.Lifecycle
import Opticrum.Contract.Rent
import Opticrum.Contract.State
import Opticrum.Contract.Utils
import Opticrum.Contract.Verifiers
import Opticrum.Contract.View
import Opticrum.Foundation.Account
import Opticrum.Foundation.Codec
import Opticrum.Foundation.Collect
import Opticrum.Foundation.Expansion
import Opticrum.Foundation.LittleEndian
import Opticrum.Foundation.Outcome
import Opticrum.Foundation.Plan
import Opticrum.Foundation.Run
import Opticrum.Foundation.Triple
import Opticrum.Foundation.Utf8
import Opticrum.Protocol
import Opticrum.Results.Appended
import Opticrum.Results.Authorization
import Opticrum.Results.Binaries
import Opticrum.Results.Builders
import Opticrum.Results.Channel
import Opticrum.Results.ChannelSize
import Opticrum.Results.ClosedChannel
import Opticrum.Results.Closing
import Opticrum.Results.Codecs
import Opticrum.Results.Conservation
import Opticrum.Results.Destroy
import Opticrum.Results.Exhaustion
import Opticrum.Results.FiberAddress
import Opticrum.Results.Interleaving
import Opticrum.Results.Lease
import Opticrum.Results.Ledger
import Opticrum.Results.Life
import Opticrum.Results.Merging
import Opticrum.Results.Pipeline
import Opticrum.Results.Plan
import Opticrum.Results.Release
import Opticrum.Results.RentAgreement
import Opticrum.Results.RentBound
import Opticrum.Results.RentClock
import Opticrum.Results.Routing
import Opticrum.Results.Scan
import Opticrum.Results.Schedule
import Opticrum.Results.SelfMatch
import Opticrum.Results.SellerCapacity
import Opticrum.Results.Strategy
import Opticrum.Results.Terms
import Opticrum.Results.TokenRun
import Opticrum.Results.TokenUpdate
import Opticrum.Results.Tokens
