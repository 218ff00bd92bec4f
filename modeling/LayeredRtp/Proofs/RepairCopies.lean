import LayeredRtp.Sender.Fill

/-! What the packets that a sender makes have in their headers. Setting an extension changes the
elements of a packet and nothing else, so a repair copy and a packet of padding keep the stream
and the number that they were begun with. -/
namespace LayeredRtp

namespace Packet

def SameButElements (p q : Packet) : Prop := q = { p with elements := q.elements }

variable {p q r : Packet} {e : HeaderExtension}

theorem SameButElements.refl (p : Packet) : p.SameButElements p := rfl

theorem SameButElements.trans (h : p.SameButElements q) (h' : q.SameButElements r) :
    p.SameButElements r := by
  unfold SameButElements at *
  rw [h', h]

theorem SameButElements.ssrc (h : p.SameButElements q) : q.ssrc = p.ssrc :=
  (congrArg Packet.ssrc h :)

theorem SameButElements.sequenceNumber (h : p.SameButElements q) :
    q.sequenceNumber = p.sequenceNumber :=
  (congrArg Packet.sequenceNumber h :)

theorem sameButElements_of_insert {value : Octets} (h : p.insert? e value = some q) :
    p.SameButElements q := by
  unfold insert? at h
  cases hid : p.extensions.id? e with
  | none => simp [hid] at h
  | some id =>
    simp only [hid] at h
    split at h
    · cases h
    · split at h
      · cases h
      · split at h
        · cases h
          rfl
        · cases h

theorem sameButElements_of_withName {id : StreamId} (h : p.withName? e id = some q) :
    p.SameButElements q := by
  unfold withName? at h
  split at h
  · cases h
  · exact sameButElements_of_insert h

/-- A change that was refused leaves the packet as it was. -/
theorem sameButElements_tryTo {change : Packet → Option Packet}
    (h : ∀ q, change p = some q → p.SameButElements q) : p.SameButElements (p.tryTo change) := by
  cases hchange : change p with
  | none => simpa [tryTo, hchange] using SameButElements.refl p
  | some q => simpa [tryTo, hchange] using h q hchange

theorem SameButElements.reserve (h : p.SameButElements q) (e : HeaderExtension) :
    p.SameButElements (q.tryTo (·.reserve? e)) :=
  h.trans (sameButElements_tryTo fun _ h => sameButElements_of_insert h)

theorem eq_of_withSources {sources : List Ssrc} (h : p.withSources? sources = some q) :
    q = { p with sources } := by
  unfold withSources? at h
  split at h
  · exact (Option.some.inj h).symm
  · cases h

theorem eq_of_withPayload {payload : Octets} (h : p.withPayload? payload = some q) :
    q = { p with payload } := by
  unfold withPayload? at h
  split at h
  · exact (Option.some.inj h).symm
  · cases h

theorem eq_of_withPadding {padding : Nat} (h : p.withPadding? padding = some q) :
    q = { p with padding } := by
  unfold withPadding? at h
  split at h
  · exact (Option.some.inj h).symm
  · cases h

@[simp] theorem ssrc_withPayloadType (p : Packet) (pt : PayloadType) :
    (p.withPayloadType pt).ssrc = p.ssrc := by
  unfold withPayloadType
  split <;> rfl

end Packet

namespace Sender

variable {s : Sender} {p copy : Packet}

theorem sameButElements_of_copyElements {elements : List Element} {q : Packet}
    (h : copyElements elements p = some q) : p.SameButElements q := by
  induction elements generalizing p with
  | nil => exact Option.some.inj h ▸ Packet.SameButElements.refl p
  | cons e rest ih =>
    unfold copyElements at h
    split at h
    · exact ih h
    · obtain ⟨next, hnext, hrest⟩ := Option.bind_eq_some_iff.mp h
      exact (Packet.sameButElements_of_insert hnext).trans (ih hrest)

theorem sameButElements_nameRepair (s : Sender) (p : Packet) :
    p.SameButElements (s.nameRepair p) := by
  unfold nameRepair
  split
  · have hmid : p.SameButElements (p.tryTo (·.withMid? s.mid)) :=
      Packet.sameButElements_tryTo fun _ h => Packet.sameButElements_of_withName h
    exact hmid.trans
      (Packet.sameButElements_tryTo fun _ h => Packet.sameButElements_of_withName h)
  · exact Packet.SameButElements.refl p

/-- Beside its payload type, a repair copy begins with what the packet and the sender have. -/
theorem repairHeader_eq (s : Sender) (p : Packet) (ssrc : Ssrc) (payloadType : PayloadType) :
    ∃ type, s.repairHeader p ssrc payloadType =
      { extensions := s.extensions, capacity := s.maxPacketSize, ssrc, payloadType := type
        marker := p.marker, timestamp := p.timestamp, sequenceNumber := s.repairNumber
        captureTime := p.captureTime } := by
  unfold repairHeader Packet.withPayloadType
  split <;> exact ⟨_, rfl⟩

/-- What a repair copy goes through, none of it refused. -/
theorem repairCopy_steps (h : s.repairCopy? p = some copy) :
    ∃ ssrc payloadType sourced copied, s.sending = true ∧ s.repairSsrc = some ssrc ∧
      s.repairTypes.lookup p.payloadType = some payloadType ∧
      (s.repairHeader p ssrc payloadType).withSources? p.sources = some sourced ∧
      copyElements p.elements sourced = some copied ∧
      (s.nameRepair copied).withPayload? (Octets.ofWord16 p.sequenceNumber ++ p.payload) =
        some copy := by
  unfold repairCopy? at h
  split at h
  case isFalse => cases h
  case isTrue hsending =>
    simp only [Option.bind_eq_bind, Option.bind_eq_some_iff] at h
    obtain ⟨ssrc, hssrc, payloadType, htype, sourced, hsourced, copied, hcopied, h⟩ := h
    exact ⟨ssrc, payloadType, sourced, copied, hsending, hssrc, htype, hsourced, hcopied, h⟩

/-- A repair copy is the header for it with the sources of the packet, some elements, and the
payload behind the number of the packet. -/
theorem repairCopy_eq (h : s.repairCopy? p = some copy) :
    ∃ ssrc payloadType, s.sending = true ∧ s.repairSsrc = some ssrc ∧
      s.repairTypes.lookup p.payloadType = some payloadType ∧
      copy = { s.repairHeader p ssrc payloadType with
        sources := p.sources
        elements := copy.elements
        payload := Octets.ofWord16 p.sequenceNumber ++ p.payload } := by
  obtain ⟨ssrc, payloadType, sourced, copied, hsending, hssrc, htype, hsourced, hcopied, h⟩ :=
    repairCopy_steps h
  refine ⟨ssrc, payloadType, hsending, hssrc, htype, ?_⟩
  have hnamed := (sameButElements_of_copyElements hcopied).trans
    (sameButElements_nameRepair s copied)
  rw [Packet.eq_of_withSources hsourced] at hnamed
  rw [Packet.eq_of_withPayload h, hnamed]

theorem repairSsrc_of_repairCopy (h : s.repairCopy? p = some copy) :
    s.repairSsrc = some copy.ssrc := by
  obtain ⟨ssrc, payloadType, -, hssrc, -, hcopy⟩ := repairCopy_eq h
  rw [hcopy, hssrc]
  simp [repairHeader]

theorem sequenceNumber_of_repairCopy (h : s.repairCopy? p = some copy) :
    copy.sequenceNumber = s.repairNumber := by
  obtain ⟨ssrc, payloadType, -, -, -, hcopy⟩ := repairCopy_eq h
  rw [hcopy]
  rfl

/-- A packet of padding is on the stream asked for, under the number that the mode points to. -/
theorem header_of_paddingPacket {ssrc : Ssrc} {payloadType : PayloadType} {size : Nat}
    {now : Time} (h : s.paddingPacket? ssrc payloadType size now = some p) :
    p.ssrc = ssrc ∧
      p.sequenceNumber = if s.repairMode.isOff then s.number else s.repairNumber := by
  unfold paddingPacket? at h
  rw [Packet.eq_of_withPadding h]
  constructor
  · refine (Packet.SameButElements.ssrc
      ((((Packet.SameButElements.refl _).reserve _).reserve _).reserve _)).trans ?_
    simp
  · exact Packet.SameButElements.sequenceNumber
      ((((Packet.SameButElements.refl _).reserve _).reserve _).reserve _)

end Sender
end LayeredRtp
