import LayeredRtp.Packet
import LayeredRtp.SequenceNumber

/-! Sent packets, kept for resending and for padding that repeats old payloads.

Entries stand by ascending sequence number, and are pending while a copy of their packet is
on its way. A ranking beside them says which one is the most useful padding, the best first.
Packets leave from the oldest on, when there are too many of them or when the oldest was sent
too long ago. -/
namespace LayeredRtp

structure ArchiveEntry where
  number : Nat
  packet : Packet
  sendTime : Option Time
  resends : Nat := 0
  pending : Bool := false
  arrival : Nat
deriving DecidableEq, Repr

structure PaddingRank where
  resends : Nat
  arrival : Nat
  number : Nat
deriving DecidableEq, Repr

namespace PaddingRank

/-- Few resends come first, and of those the latest arrival. -/
def before (a b : PaddingRank) : Bool :=
  a.resends < b.resends || (a.resends == b.resends &&
    (b.arrival < a.arrival || (a.arrival == b.arrival && a.number < b.number)))

def insert (r : PaddingRank) : List PaddingRank → List PaddingRank
  | [] => [r]
  | x :: rest => if r.before x then r :: x :: rest else x :: insert r rest

end PaddingRank

namespace ArchiveEntry

def rank (e : ArchiveEntry) : PaddingRank := ⟨e.resends, e.arrival, e.number⟩

def resent (e : ArchiveEntry) (now : Time) : ArchiveEntry :=
  { e with resends := e.resends + 1, sendTime := some now }

def isThrottled (e : ArchiveEntry) (rtt now : Time) : Bool :=
  match e.sendTime with
  | some sent => 0 < e.resends && now < sent + rtt
  | none => false

def insert (e : ArchiveEntry) : List ArchiveEntry → List ArchiveEntry
  | [] => [e]
  | x :: rest => if e.number < x.number then e :: x :: rest else x :: insert e rest

def modify (number : Nat) (f : ArchiveEntry → ArchiveEntry) (entries : List ArchiveEntry) :
    List ArchiveEntry :=
  entries.map fun e => if e.number = number then f e else e

end ArchiveEntry

structure Archive where
  enabled : Bool
  limit : Nat
  rtt : Time := 0
  entries : List ArchiveEntry := []
  ranking : List PaddingRank := []
  newest : Option Nat := none
  latestSend : Option Time := none
  arrivals : Nat := 0
deriving DecidableEq, Repr

namespace Archive

def maxLimit : Nat := 9600
def minDuration : Time := 1000000
def minRoundTrips : Nat := 3

def new (enabled : Bool) (limit : Nat) : Archive :=
  { enabled, limit := min limit maxLimit }

def size (a : Archive) : Nat := a.entries.length

def clear (a : Archive) : Archive :=
  { a with entries := [], ranking := [], newest := none, latestSend := none }

def find? (a : Archive) (number : Nat) : Option ArchiveEntry :=
  a.entries.find? fun e => e.number == number

def numberOf (a : Archive) (low : UInt16) : Nat := SequenceNumber.recover a.newest low

def erase (a : Archive) (number : Nat) : Archive :=
  match a.find? number with
  | none => a
  | some e =>
    { a with
      entries := a.entries.filter fun x => x.number != number
      ranking := a.ranking.erase e.rank }

def noteSend (a : Archive) (t : Time) : Archive :=
  match a.latestSend with
  | some latest => if latest < t then { a with latestSend := some t } else a
  | none => { a with latestSend := some t }

def duration (a : Archive) : Time := max (a.rtt * minRoundTrips) minDuration

def isTooOld (a : Archive) (e : ArchiveEntry) : Bool :=
  match e.sendTime, a.latestSend with
  | some sent, some latest => !e.pending && a.duration ≤ latest - sent
  | _, _ => false

/-- How many of the oldest entries have to leave: those above the limit, and after them
those that are too old. -/
def surplus (a : Archive) : Nat :=
  let above := a.entries.length - a.limit
  above + ((a.entries.drop above).takeWhile a.isTooOld).length

def trim (a : Archive) : Archive :=
  let k := a.surplus
  { a with
    entries := a.entries.drop k
    ranking := (a.entries.take k).foldl (fun ranks e => ranks.erase e.rank) a.ranking }

def setRtt (a : Archive) (rtt : Time) : Archive := trim { a with rtt }

/-- A smaller limit takes effect with the next packet; turned off, all packets are dropped. -/
def setStorage (a : Archive) (enabled : Bool) (limit : Nat) : Archive :=
  let a := { a with enabled, limit := min limit maxLimit }
  if enabled then a else a.clear

def insert (a : Archive) (number : Nat) (packet : Packet) (sendTime : Option Time) :
    Archive :=
  let e : ArchiveEntry := { number, packet, sendTime, arrival := a.arrivals + 1 }
  { a with
    arrivals := a.arrivals + 1
    entries := e.insert a.entries
    ranking := e.rank.insert a.ranking
    newest := some (match a.newest with
      | some newest => max newest number
      | none => number) }

def store (a : Archive) (packet : Packet) (sendTime : Option Time) : Archive :=
  if a.enabled then
    let number := a.numberOf packet.sequenceNumber
    let a := (a.erase number).insert number packet sendTime
    trim (match sendTime with
      | some t => a.noteSend t
      | none => a)
  else a

def resendable? (a : Archive) (low : UInt16) (now : Time) : Option ArchiveEntry :=
  if a.enabled then
    (a.find? (a.numberOf low)).filter fun e => !e.pending && !e.isThrottled a.rtt now
  else none

def markPending (a : Archive) (number : Nat) : Archive :=
  { a with entries := ArchiveEntry.modify number ({ · with pending := true }) a.entries }

def fetch (a : Archive) (low : UInt16) (now : Time) (wrap : Packet → Option Packet) :
    Option (Packet × Archive) := do
  let e ← a.resendable? low now
  return (← wrap e.packet, a.markPending e.number)

def countResend (a : Archive) (e : ArchiveEntry) (now : Time) : Archive :=
  { a with
    entries := ArchiveEntry.modify e.number (·.resent now) a.entries
    ranking := (e.resent now).rank.insert (a.ranking.erase e.rank) }

def markSent (a : Archive) (low : UInt16) (now : Time) : Archive :=
  if a.enabled then
    match a.find? (a.numberOf low) with
    | none => a
    | some e =>
      let a := a.countResend e now
      noteSend
        { a with entries := ArchiveEntry.modify e.number ({ · with pending := false }) a.entries }
        now
  else a

/-- The best padding: sent, not on its way, resent least, and of those the latest. -/
def paddingCandidate? (a : Archive) : Option ArchiveEntry :=
  if a.enabled then
    a.ranking.findSome? fun r =>
      (a.find? r.number).filter fun e => e.sendTime.isSome && !e.pending
  else none

def fetchPadding (a : Archive) (now : Time) (wrap : Packet → Option Packet) :
    Option (Packet × Archive) := do
  let e ← a.paddingCandidate?
  return (← wrap e.packet, a.countResend e now)

end Archive
end LayeredRtp
