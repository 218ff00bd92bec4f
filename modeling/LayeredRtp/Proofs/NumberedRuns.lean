import LayeredRtp.Proofs.NumberedPackets

/-! Sequence numbers in runs of a sender. Each operation that restores no state lets the packets it
numbers take their numbers in turn, and so does every run of such operations. -/
namespace LayeredRtp

namespace Sender

variable {s : Sender}

/-- An operation that changes neither stream nor its next number numbers no packet. -/
theorem takes_of_eq {t : Sender} (h : t.counters = s.counters) : s.counters.Takes [] t.counters :=
  h ▸ .nil _

theorem takes_assign (s : Sender) (p : Packet) :
    s.counters.Takes (s.issues (.assign p)) (s.perform (.assign p)).counters := by
  cases hsending : s.sending with
  | false =>
    simpa [issues, perform, assignNumber, hsending] using Counters.Takes.nil s.counters
  | true =>
    have hnext : (s.perform (.assign p)).counters = s.counters.advance .media := by
      rw [← counters_advanceMedia]
      simp only [perform, assignNumber, hsending, if_true, Option.map_some, Option.getD_some]
      rfl
    rw [hnext]
    have hnumbered : s.issues (.assign p) = [⟨.media, { p with sequenceNumber := s.number }⟩] := by
      simp [issues, assignNumber, hsending]
    rw [hnumbered]
    exact .one rfl nofun

theorem takes_perform (apart : s.repairSsrc ≠ some s.ssrc) {op : Operation}
    (hop : op.restores = false) : s.counters.Takes (s.issues op) (s.perform op).counters := by
  cases op with
  | eraseExtension | setMixed | setMid | ack | ackRepair | setRepairRate | setSending | enqueue
    | pace | share => exact takes_of_eq rfl
  | insertExtension | setSources | setRepairMode | setRepairType | setMaxPacketSize | sent =>
    refine takes_of_eq ?_
    simp only [perform, insertExtension, setSources, setRepairMode, setRepairType,
      setMaxPacketSize, onSent]
    repeat' split
    all_goals rfl
  | setState | setRepairState => cases hop
  | assign p => exact s.takes_assign p
  | resend low now => exact (s.resends_resend low now).takes
  | lost lows rtt now => exact (s.resends_onLoss lows rtt now).takes
  | pad target mediaSent onMedia now => exact takes_makePadding apart target mediaSent onMedia now

theorem takes_performAll (apart : s.repairSsrc ≠ some s.ssrc) {ops : List Operation}
    (hops : ∀ op ∈ ops, op.restores = false) :
    s.counters.Takes (s.issuesOfAll ops) (s.performAll ops).counters := by
  induction ops generalizing s with
  | nil => exact .nil _
  | cons op ops ih =>
    have hfirst := takes_perform apart (hops op List.mem_cons_self)
    -- No operation changes the two streams, so they stay apart.
    have hapart : (s.perform op).repairSsrc ≠ some (s.perform op).ssrc := by
      rw [show (s.perform op).repairSsrc = s.repairSsrc from hfirst.repairSsrc,
        show (s.perform op).ssrc = s.ssrc from hfirst.ssrc]
      exact apart
    exact hfirst.append (ih hapart fun op hop => hops op (List.mem_cons_of_mem _ hop))

theorem sequenceNumber_stateOn (s : Sender) (stream : Stream) :
    (s.stateOn stream).sequenceNumber = s.nextOn stream := by
  cases stream <;> rfl

theorem counters_new (settings : SenderSettings) (archive : Archive) :
    (new settings archive).counters =
      ⟨settings.ssrc, settings.repairSsrc, settings.firstOn⟩ := by
  simp only [counters, Counters.mk.injEq]
  refine ⟨rfl, rfl, funext fun stream => ?_⟩
  cases stream <;> rfl

/-- As long as the repair stream is another one and no state is restored, the packets numbered on a
stream have its first number and those that follow, with none left out or used twice. The state
reports the number after them, and the packets for the repair stream are sent on it. -/
theorem numbers_successive (settings : SenderSettings) (archive : Archive)
    (apart : settings.repairSsrc ≠ some settings.ssrc) {ops : List Operation}
    (hops : ∀ op ∈ ops, op.restores = false) (stream : Stream) :
    let s := new settings archive
    let packets := s.issuedOn ops stream
    packets.map (·.sequenceNumber) =
        SequenceNumber.successive (settings.firstOn stream) packets.length ∧
      ((s.performAll ops).stateOn stream).sequenceNumber =
        settings.firstOn stream + UInt16.ofNat packets.length ∧
      (stream = .repair → ∀ p ∈ packets, settings.repairSsrc = some p.ssrc) := by
  intro s packets
  have htakes : s.counters.Takes (s.issuesOfAll ops) (s.performAll ops).counters :=
    takes_performAll apart hops
  have hstart := counters_new settings archive
  obtain ⟨hnumbers, hnext⟩ := htakes.successive stream
  rw [hstart] at hnumbers hnext
  refine ⟨hnumbers, (sequenceNumber_stateOn _ stream).trans hnext, fun hrepair p hp => ?_⟩
  obtain ⟨i, hi, rfl⟩ := List.mem_map.mp hp
  obtain ⟨hissue, hstream⟩ := List.mem_filter.mp hi
  exact htakes.source hissue ((of_decide_eq_true hstream).trans hrepair)

def wrappingSettings : SenderSettings :=
  { ssrc := 1
    repairSsrc := some 2
    firstNumber := 0xffff
    firstRepairNumber := 7
    timestampOffset := 0 }

def wholeFrame : Packet :=
  { extensions := {}
    capacity := wrappingSettings.maxPacketSize
    marker := true
    payloadType := 96
    sequenceNumber := wrappingSettings.firstNumber
    ssrc := wrappingSettings.ssrc
    payload := [1, 2, 3]
    kind := some .video }

def mixedUse : List Operation :=
  [.setRepairType 96 97, .assign wholeFrame, .sent wholeFrame 1, .pad 300 true true 2,
    .setRepairMode { retransmitted := true }, .resend 0xffff 3, .pad 300 true true 4]

theorem numbers_successive_mixed :
    wrappingSettings.repairSsrc ≠ some wrappingSettings.ssrc ∧
      (∀ op ∈ mixedUse, op.restores = false) ∧
      let s := new wrappingSettings (.new true 10)
      (s.issuedOn mixedUse .media).map (·.sequenceNumber) = [0xffff, 0, 1] ∧
        (s.issuedOn mixedUse .repair).map (·.sequenceNumber) = [7, 8, 9] ∧
        ∀ p ∈ s.issuedOn mixedUse .repair, wrappingSettings.repairSsrc = some p.ssrc := by
  have apart : wrappingSettings.repairSsrc ≠ some wrappingSettings.ssrc := by decide
  have hops : ∀ op ∈ mixedUse, op.restores = false := by decide
  have hmedia := numbers_successive wrappingSettings (.new true 10) apart hops .media
  have hrepair := numbers_successive wrappingSettings (.new true 10) apart hops .repair
  refine ⟨apart, hops, ?_, ?_, hrepair.2.2 rfl⟩
  · exact hmedia.1.trans (by decide)
  · exact hrepair.1.trans (by decide)

end Sender
end LayeredRtp
