import OrderDesk.Text.Decimal

/-!
# Settings of the nodes

All times are in milliseconds.
-/

namespace OrderDesk

structure ClientConfig where
  host : String
  port : UInt16
  clientId : String
  reconnectInterval : Nat
  drainInterval : Nat
  syncInterval : Nat
  handshakeTimeout : Nat
  deriving DecidableEq, Repr

namespace ClientConfig

def standard : ClientConfig where
  host := "127.0.0.1"
  port := 9000
  clientId := "kiosk"
  reconnectInterval := 5000
  drainInterval := 1000
  syncInterval := 300000
  handshakeTimeout := 10000

def forServer (host : String) (port : UInt16) (clientId : String) : ClientConfig :=
  { standard with host, port, clientId }

def address (config : ClientConfig) : String := config.host ++ ":" ++ Decimal.render config.port.toNat

end ClientConfig

structure ServerConfig where
  bindAddress : String
  /-- Peers that are not encrypted by then are dropped. -/
  handshakeTimeout : Nat
  /-- The length of a peer's queue from which on it is worth a warning. -/
  outboundBufferWarn : Nat
  deriving DecidableEq, Repr

def ServerConfig.standard : ServerConfig where
  bindAddress := "127.0.0.1:9000"
  handshakeTimeout := 10000
  outboundBufferWarn := 1024

end OrderDesk
