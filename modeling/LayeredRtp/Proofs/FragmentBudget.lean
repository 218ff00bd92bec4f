import LayeredRtp.Proofs.FrameFragments
import LayeredRtp.Proofs.MediaHeaders

/-! Layer frames cut for the packets of a sender. No fragment is longer than asked for, descriptor
included, so one that is cut to what the largest header leaves fits any packet that is allocated. -/
namespace LayeredRtp

namespace PayloadDescriptor

variable {d : PayloadDescriptor}

/-- Cutting always succeeds, and every fragment is as long as allowed at most. -/
theorem Tellable.payloads_ok (hd : d.Tellable) {mtu : Nat} (hmtu : mtu ≤ maxPayload)
    (payload : Octets) : ∃ cut, d.payloads mtu payload = .ok cut ∧
      ∀ f ∈ cut, 0 < mtu ∧ f.length ≤ mtu := by
  by_cases hnone : payload = [] ∨ mtu ≤ d.headerLength d.hasStructure
  · exact ⟨[], hd.payloads_none hnone, nofun⟩
  · obtain ⟨hsome, hroom⟩ := not_or.mp hnone
    obtain ⟨cut, parts, hcut, -, hparts⟩ := hd.payloads_cut hsome (Nat.not_le.mp hroom) hmtu
    refine ⟨cut, hcut, fun f hf => ?_⟩
    obtain ⟨hpos, hfits⟩ := hparts.length_le f hf
    exact ⟨Nat.lt_of_lt_of_le hpos hfits, hfits⟩

end PayloadDescriptor

namespace Sender

/-- Whatever was done to a sender, no packet that it allocates has a longer header than it remembers,
and every fragment cut to what that leaves goes into such a packet and is written in no more octets
than allowed. -/
theorem fragments_fit (settings : SenderSettings)
    (hsize : SenderSettings.allowsPacketSize settings.maxPacketSize = true) (archive : Archive)
    (ops : List Operation) (d : PayloadDescriptor) (hd : d.Tellable) (payload : Octets) :
    let s := (new settings archive).performAll ops
    s.allocate.headerSize ≤ s.mediaHeader ∧
      ∃ cut, d.payloads (s.maxPacketSize - s.mediaHeader) payload = .ok cut ∧
        ∀ f ∈ cut, ∃ p, s.allocate.withPayload? f = some p ∧ p.payload = f ∧
          p.toOctets.length ≤ s.maxPacketSize := by
  intro s
  have hheader : s.allocate.headerSize ≤ s.mediaHeader := by
    rw [((Current.new settings archive).performAll ops).media]
    exact s.headerSize_allocate_le
  refine ⟨hheader, ?_⟩
  have hrange : s.maxPacketSize ≤ PayloadDescriptor.maxPayload := by
    have hallowed : SenderSettings.allowsPacketSize s.maxPacketSize = true :=
      allowsPacketSize_performAll hsize ops
    have hle : s.maxPacketSize ≤ 1500 := of_decide_eq_true (Bool.and_eq_true_iff.mp hallowed).2
    exact Nat.le_trans hle (by decide)
  have hmtu : s.maxPacketSize - s.mediaHeader ≤ PayloadDescriptor.maxPayload :=
    Nat.le_trans (Nat.sub_le _ _) hrange
  obtain ⟨cut, hcut, hbounds⟩ := hd.payloads_ok hmtu payload
  refine ⟨cut, hcut, fun f hf => ?_⟩
  obtain ⟨hpos, hlength⟩ := hbounds f hf
  obtain ⟨sources, elements, -, hp⟩ := s.allocate_eq
  have hfits : s.allocate.headerSize + f.length ≤ s.maxPacketSize := by omega
  rw [hp] at hfits ⊢
  refine ⟨_, if_pos (by simpa using hfits), rfl, ?_⟩
  rw [Packet.length_toOctets]
  exact hfits

/-- The id above fourteen keeps the longer form in the budget also after mixing is off and the
extension is left out. -/
theorem fragments_fit_two :
    let settings : SenderSettings := {
      ssrc := 1, repairSsrc := some 2, maxPacketSize := 100, mid := .ofString "a"
      extensions := { bindings := [(4, .rtpMid), (20, .absoluteSendTime)], mixed := true }
      firstNumber := 0, firstRepairNumber := 0, timestampOffset := 0 }
    let s := (new settings (.new true 10)).performAll [.setMixed false, .ackRepair]
    let d : PayloadDescriptor := { flexible := true, fromEarlier := true, distances := [1] }
    s.mediaHeader = 42 ∧ s.allocate.headerSize = 20 ∧
      ∃ cut, d.payloads 58 (List.replicate 60 0) = .ok cut ∧ cut.map (·.length) = [58, 10] ∧
        ∀ f ∈ cut, ∃ p, s.allocate.withPayload? f = some p ∧ p.toOctets.length ≤ 100 := by
  intro settings s d
  obtain ⟨-, cut, hcut, hfits⟩ := fragments_fit settings (by decide) (.new true 10)
    [.setMixed false, .ackRepair] d ⟨by decide, by decide⟩ (List.replicate 60 0)
  have hmtu : s.maxPacketSize - s.mediaHeader = 58 := by decide +kernel
  rw [hmtu] at hcut
  have hlengths : (d.payloads 58 (List.replicate 60 0)).map (List.map List.length) = .ok [58, 10] := by
    decide +kernel
  rw [hcut] at hlengths
  refine ⟨by decide +kernel, by decide +kernel, cut, hcut, Except.ok.inj hlengths, fun f hf => ?_⟩
  obtain ⟨p, hp, -, hlength⟩ := hfits f hf
  exact ⟨p, hp, hlength⟩

end Sender
end LayeredRtp
