import DeerQuic.Keys

/-!
# Packet number spaces

Keys, counters and pending acknowledgements of one encryption level. The receive
time is left out: only an unused accessor reads it.
-/

namespace DeerQuic

structure Space where
  id : PacketNumberSpace
  keys : Option Keys
  nextSendPn : Nat
  largestRecvPn : Nat
  pendingAcks : List Nat

namespace Space

def new (id : PacketNumberSpace) : Space :=
  { id, keys := none, nextSendPn := 0, largestRecvPn := 0, pendingAcks := [] }

def setKeys (space : Space) (keys : Keys) : Space := { space with keys := some keys }

def localKeys (space : Space) : Option DirectionalKeys := space.keys.map Keys.localKeys

def remoteKeys (space : Space) : Option DirectionalKeys := space.keys.map Keys.remoteKeys

def hasKeys (space : Space) : Bool := space.keys.isSome

/-- The packet number to send with, and the space after it is used up. -/
def takeNextSendPn (space : Space) : Nat × Space :=
  (space.nextSendPn, { space with nextSendPn := space.nextSendPn + 1 })

/-- Schedules an acknowledgement every time, for a repeated number as well. -/
def recordRecvPn (space : Space) (pn : Nat) : Space :=
  { space with
    largestRecvPn := if space.largestRecvPn < pn then pn else space.largestRecvPn
    pendingAcks := space.pendingAcks ++ [pn] }

def takePendingAcks (space : Space) : List Nat × Space :=
  (space.pendingAcks, { space with pendingAcks := [] })

end Space
end DeerQuic
