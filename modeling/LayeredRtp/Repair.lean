import LayeredRtp.BitRate
import LayeredRtp.Packet

/-! The stream for repeated packets: the ways in which it may be used, its payloads, which
have the number of the repeated packet in front, and the bit rate that it is held to over a
sliding window of time. -/
namespace LayeredRtp

namespace Repair

def headerSize : Nat := 2

def repeatedNumber? : Octets → Option UInt16
  | a :: b :: _ => some (Octets.word16 a b)
  | _ => none

def overwriteNumber? (payload : Octets) (n : UInt16) : Option Octets :=
  match payload with
  | _ :: _ :: rest => some (Octets.ofWord16 n ++ rest)
  | _ => none

structure Mode where
  retransmitted : Bool := false
  redundantPayloads : Bool := false
deriving DecidableEq, Repr, Inhabited

namespace Mode

def off : Mode := {}

def isOff (m : Mode) : Bool := m == off

def union (a b : Mode) : Mode :=
  ⟨a.retransmitted || b.retransmitted, a.redundantPayloads || b.redundantPayloads⟩

/-- Whether `b` uses the stream at all, and for nothing that `a` does not. -/
def contains (a b : Mode) : Bool :=
  !b.isOff && (a.retransmitted || !b.retransmitted) &&
    (a.redundantPayloads || !b.redundantPayloads)

def bits (m : Mode) : Nat := m.retransmitted.toNat + 2 * m.redundantPayloads.toNat

def text (m : Mode) : String :=
  let uses := (if m.retransmitted then ["RETRANSMITTED"] else []) ++
    (if m.redundantPayloads then ["REDUNDANT_PAYLOADS"] else [])
  "RtxMode(" ++ (if m.isOff then "OFF" else " | ".intercalate uses) ++ ")"

end Mode

theorem repeatedNumber?_ofWord16_append (n : UInt16) (rest : Octets) :
    repeatedNumber? (Octets.ofWord16 n ++ rest) = some n :=
  congrArg some (Octets.word16_ofWord16 n)

end Repair

structure UsageWindow where
  length : Time
  samples : List (Time × ByteCount) := []
  total : ByteCount := .zero
deriving DecidableEq, Repr

namespace UsageWindow

def expire (w : UsageWindow) (now : Time) : UsageWindow :=
  let (gone, kept) := w.samples.span fun s => w.length ≤ now - s.1
  { w with samples := kept, total := gone.foldl (fun total s => total - s.2) w.total }

def add (w : UsageWindow) (now : Time) (size : ByteCount) : UsageWindow :=
  { w with samples := w.samples ++ [(now, size)], total := w.total + size }

end UsageWindow

structure RateCap where
  rate : BitRate
  usage : UsageWindow
deriving DecidableEq, Repr

namespace RateCap

def defaultWindow : Time := 1000000

def new (rate : BitRate) (window : Time := defaultWindow) : RateCap :=
  ⟨rate, { length := window }⟩

def setRate (l : RateCap) (rate : BitRate) : RateCap := { l with rate }

def allowance (l : RateCap) : ByteCount := l.rate.during l.usage.length

/-- Whether the bytes are allowed now; they count as used only if they are. -/
def spend (l : RateCap) (bytes : Nat) (now : Time) : Bool × RateCap :=
  let usage := l.usage.expire now
  let size : ByteCount := ⟨bytes⟩
  if l.allowance.bytes < (usage.total + size).bytes then (false, { l with usage })
  else (true, { l with usage := usage.add now size })

end RateCap

end LayeredRtp
