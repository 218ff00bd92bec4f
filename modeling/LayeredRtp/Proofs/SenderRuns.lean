import LayeredRtp.Sender.Fill

/-! Runs of a sender. Between any two requests the pacer may work on the queue, and others may work
on the archive that they share with the sender, so a run can put any queue and any archive in
place of those it finds. -/
namespace LayeredRtp

inductive Stream where
  | media
  | repair
deriving DecidableEq, Repr

structure Issue where
  stream : Stream
  packet : Packet
deriving DecidableEq, Repr

def SenderSettings.firstOn (settings : SenderSettings) : Stream → UInt16
  | .media => settings.firstNumber
  | .repair => settings.firstRepairNumber

namespace Sender

inductive Operation where
  | insertExtension (uri : String) (id : UInt8)
  | eraseExtension (uri : String)
  | setMixed (on : Bool)
  | setMid (mid : StreamId)
  | setSources (sources : List Ssrc)
  | ack
  | ackRepair
  | setState (t : StreamState)
  | setRepairState (t : StreamState)
  | setRepairMode (mode : Repair.Mode)
  | setRepairType (media repair : PayloadType)
  | setMaxPacketSize (size : Nat)
  | setRepairRate (rate : Option BitRate)
  | setSending (on : Bool)
  | assign (p : Packet)
  | resend (low : UInt16) (now : Time)
  | lost (lows : List UInt16) (rtt now : Time)
  | pad (target : Nat) (mediaSent onMedia : Bool) (now : Time)
  | enqueue (packets : List Packet) (now : Time)
  | sent (p : Packet) (now : Time)
  /-- Whatever the pacer does to the queue. -/
  | pace (queue : PacketQueue)
  /-- Whatever is done to the archive by those who share it. -/
  | share (archive : Archive)
deriving DecidableEq, Repr

def Operation.restores : Operation → Bool
  | .setState _ | .setRepairState _ => true
  | _ => false

variable (s : Sender)

def perform : Operation → Sender
  | .insertExtension uri id => (s.insertExtension uri id).2
  | .eraseExtension uri => s.eraseExtension uri
  | .setMixed on => s.setMixed on
  | .setMid mid => s.setMid mid
  | .setSources sources => s.setSources sources
  | .ack => s.ack
  | .ackRepair => s.ackRepair
  | .setState t => s.setState t
  | .setRepairState t => s.setRepairState t
  | .setRepairMode mode => (s.setRepairMode mode).2
  | .setRepairType media repair => s.setRepairType media repair
  | .setMaxPacketSize size => (s.setMaxPacketSize size).2
  | .setRepairRate rate => s.setRepairRate rate
  | .setSending on => s.setSending on
  | .assign p => ((s.assignNumber p).map (·.2)).getD s
  | .resend low now => (s.resend low now).2
  | .lost lows rtt now => s.onLoss lows rtt now
  | .pad target mediaSent onMedia now => (s.makePadding target mediaSent onMedia now).2
  | .enqueue packets now => s.enqueue packets now
  | .sent p now => s.onSent p now
  | .pace queue => { s with queue }
  | .share archive => { s with archive }

def performAll (ops : List Operation) : Sender := ops.foldl perform s

def issuePadding (p : Packet) : Issue := ⟨if p.ssrc = s.ssrc then .media else .repair, p⟩

/-- The repair copies among what a resend put at the end of the queue. Without a repair stream for
lost packets it put the stored packets there, under the numbers that they have. -/
def issueResent (t : Sender) : List Issue :=
  if s.repairMode.retransmitted then
    (t.queue.packets.drop s.queue.size).map (⟨.repair, ·⟩)
  else []

def issues : Operation → List Issue
  | .assign p => ((s.assignNumber p).map fun x => ⟨.media, x.1⟩).toList
  | .resend low now => s.issueResent (s.resend low now).2
  | .lost lows rtt now => s.issueResent (s.onLoss lows rtt now)
  | .pad target mediaSent onMedia now =>
    (s.makePadding target mediaSent onMedia now).1.map s.issuePadding
  | _ => []

def issuesOfAll (s : Sender) : List Operation → List Issue
  | [] => []
  | op :: ops => s.issues op ++ issuesOfAll (s.perform op) ops

def issuedOn (ops : List Operation) (stream : Stream) : List Packet :=
  ((s.issuesOfAll ops).filter (·.stream = stream)).map (·.packet)

def stateOn : Stream → StreamState
  | .media => s.state
  | .repair => s.repairState

end Sender
end LayeredRtp
