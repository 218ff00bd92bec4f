import LayeredRtp.Packet

/-! Packets waiting to leave, in the order in which they came. A packet is released only
after the clock has ticked behind it. -/
namespace LayeredRtp

structure QueuedPacket where
  packet : Packet
  /-- The first tick after the packet came. -/
  since : Option Time := none
deriving DecidableEq, Repr

structure PacketQueue where
  items : List QueuedPacket := []
  queuedBytes : Nat := 0
  lastEmitted : Option Time := none
deriving DecidableEq, Repr

namespace PacketQueue

def empty : PacketQueue := {}

def size (q : PacketQueue) : Nat := q.items.length

def packets (q : PacketQueue) : List Packet := q.items.map (·.packet)

def push (q : PacketQueue) (packets : List Packet) : PacketQueue :=
  { q with items := q.items ++ packets.map ({ packet := · }) }

/-- Marks the run of unmarked packets at the back. -/
def tick (q : PacketQueue) (now : Time) : PacketQueue :=
  let (fresh, old) := q.items.reverse.span fun i => i.since.isNone
  { q with
    items := old.reverse ++ fresh.reverse.map fun i => { i with since := some now }
    queuedBytes := q.queuedBytes + (fresh.map fun i => i.packet.size).foldr (· + ·) 0 }

def needsTick (q : PacketQueue) : Bool :=
  q.items.getLast?.any fun i => i.since.isNone

def peek (q : PacketQueue) : Option Packet :=
  match q.items with
  | ⟨packet, some _⟩ :: _ => some packet
  | _ => none

def pop (q : PacketQueue) (now : Time) : Option (Packet × PacketQueue) :=
  match q.items with
  | ⟨packet, some _⟩ :: rest =>
    some (packet,
      { items := rest, queuedBytes := q.queuedBytes - packet.size, lastEmitted := some now })
  | _ => none

def drain (q : PacketQueue) : List Packet × PacketQueue :=
  (q.packets, { q with items := [], queuedBytes := 0 })

def waitingTime (q : PacketQueue) (now : Time) : Time :=
  (q.items.filterMap fun i => i.since.map (now - ·)).foldr (· + ·) 0

end PacketQueue
end LayeredRtp
