import OrderDesk.Client.Node
import OrderDesk.Proofs.Client.Fifo
import OrderDesk.Proofs.Filing
import OrderDesk.Proofs.Json.Document
import OrderDesk.Proofs.Json.Lexeme
import OrderDesk.Proofs.Mirror.Convergence
import OrderDesk.Proofs.Mirror.LastWrite
import OrderDesk.Proofs.Packet.Bodies
import OrderDesk.Proofs.Packet.Codec
import OrderDesk.Proofs.Redelivery
import OrderDesk.Proofs.Registry.Atomicity
import OrderDesk.Proofs.Registry.Built
import OrderDesk.Proofs.Registry.Dangling
import OrderDesk.Proofs.Registry.Handles
import OrderDesk.Proofs.Registry.Loading
import OrderDesk.Proofs.Registry.Orders
import OrderDesk.Proofs.Registry.Refiling
import OrderDesk.Proofs.Seclusion
import OrderDesk.Proofs.Server.Delivery
import OrderDesk.Proofs.Server.OrderIds
import OrderDesk.Proofs.Server.Refusals
import OrderDesk.Proofs.Server.Submission
import OrderDesk.Proofs.Server.Unassigned
import OrderDesk.Proofs.Session.Clear
import OrderDesk.Proofs.Session.Decoding
import OrderDesk.Proofs.Session.Duplex
import OrderDesk.Proofs.Session.Integrity
import OrderDesk.Proofs.Session.KeyExchange
import OrderDesk.Proofs.Session.Lifecycle
import OrderDesk.Proofs.Session.Numbers
import OrderDesk.Proofs.Shape.RoundTrip
import OrderDesk.Proofs.Stream
import OrderDesk.Proofs.Totals
import OrderDesk.Server.Node
import OrderDesk.Session.Record
