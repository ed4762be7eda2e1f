import Bartok.Bridge.Ladder
import Bartok.Bridge.Payout
import Bartok.Bridge.FailedChat
import Bartok.Bridge.Snapshot
import Bartok.Bridge.SpendCap
import Bartok.Bridge.Refunds
import Bartok.Bridge.Credits
import Bartok.Proof.Oracle
import Bartok.Proof.Provenance
import Bartok.Foundation.Json
import Bartok.Foundation.Text
import Bartok.Bridge.FreeReply
import Bartok.Bridge.Hold
import Bartok.Bridge.Restart
import Bartok.Foundation.SlotMap
import Bartok.Foundation.Trace
import Bartok.Miden.HostNotes
import Bartok.Miden.Serial
import Bartok.Miden.SettleSession
import Bartok.Bridge.TornWrite
import Bartok.Bridge.Answered
import Bartok.Bridge.Gate
import Bartok.Proof.Disclosure
import Bartok.Proof.Fragment
import Bartok.Proof.Tiers
import Bartok.Proof.WorstCase
import Bartok.Proof.Spans
import Bartok.Proof.Memory
import Bartok.Bridge.Lock
import Bartok.Bridge.RateLimit
import Bartok.Bridge.Stream
import Bartok.Bridge.Dashboard
import Bartok.Bridge.ChildOutput
import Bartok.Wallet.Receipt
import Bartok.Bridge.Collect
import Bartok.Bridge.MidenQueue
import Bartok.Bridge.Ledger
import Bartok.Bridge.SellerFeed
import Bartok.Wallet.Visits
import Bartok.Bridge.Body
import Bartok.Bridge.RateTable
import Bartok.Bridge.RefundRail
import Bartok.Bridge.RefundsKept
