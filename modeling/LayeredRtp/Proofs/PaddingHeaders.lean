import LayeredRtp.Proofs.MediaHeaders

/-! The headers of packets of padding alone. They carry no sources and three extensions at most, all
of them among those that the remembered size makes room for. What a sender remembers is what its
settings ask for at present, so none of these packets has a longer header than it remembers. -/
namespace LayeredRtp.Sender

open HeaderExtension (absoluteSendTime transmissionTimeOffset transportSequenceNumber repairSizes)

variable {s t : Sender} {p : Packet} {ssrc : Ssrc} {payloadType : PayloadType}
  {size left : Nat} {mediaSent onMedia : Bool} {now : Time}

theorem SameBudget.worstPaddingHeader (h : s.SameBudget t) :
    t.worstPaddingHeader = s.worstPaddingHeader :=
  (congrArg Sender.worstPaddingHeader h :)

def paddingStart (s : Sender) (ssrc : Ssrc) (payloadType : PayloadType) (now : Time) : Packet :=
  let p : Packet := { extensions := s.extensions, capacity := s.maxPacketSize, ssrc }
  { p.withPayloadType payloadType with
    kind := some .padding
    timestamp := s.lastTimestamp
    captureTime := some now
    sequenceNumber := if s.repairMode.isOff then s.number else s.repairNumber }

theorem listed_paddingStart (s : Sender) (ssrc : Ssrc) (payloadType : PayloadType) (now : Time) :
    (s.paddingStart ssrc payloadType now).Listed s.extensions repairSizes ∧
      (s.paddingStart ssrc payloadType now).sources = [] := by
  let p : Packet := { extensions := s.extensions, capacity := s.maxPacketSize, ssrc }
  have hnew : p.Writable s.extensions :=
    { Packet.writable_new s.extensions s.maxPacketSize with }
  have htyped : (p.withPayloadType payloadType).Writable s.extensions :=
    hnew.change (.payloadType payloadType)
  have hbare : (p.withPayloadType payloadType).elements = [] ∧
      (p.withPayloadType payloadType).sources = [] := by
    unfold Packet.withPayloadType
    split <;> exact ⟨rfl, rfl⟩
  exact ⟨⟨{ htyped with }, by simp [paddingStart, p, hbare.1]⟩, hbare.2⟩

/-- Before its padding, a packet has room for the sending time and nothing else beside its start. -/
theorem paddingPacket_eq (s : Sender) (ssrc : Ssrc) (payloadType : PayloadType) (size : Nat)
    (now : Time) : ∃ q : Packet, q.Listed s.extensions repairSizes ∧
      (s.paddingStart ssrc payloadType now).SameButElements q ∧
      s.paddingPacket? ssrc payloadType size now = q.withPadding? size := by
  obtain ⟨hstart, -⟩ := s.listed_paddingStart ssrc payloadType now
  have hlisted := ((hstart.reserve (e := transportSequenceNumber) (n := 2) (by decide) (by decide)
    (by decide)).reserve (e := transmissionTimeOffset) (n := 3) (by decide) (by decide)
    (by decide)).reserve (e := absoluteSendTime) (n := 3) (by decide) (by decide) (by decide)
  have hsame := (((Packet.SameButElements.refl (s.paddingStart ssrc payloadType now)).reserve
    transportSequenceNumber).reserve transmissionTimeOffset).reserve absoluteSendTime
  exact ⟨_, hlisted, hsame, rfl⟩

/-- The padding goes into a packet that has room for the sending time and no sources. -/
theorem paddingPacket_cases (h : s.paddingPacket? ssrc payloadType size now = some p) :
    ∃ q : Packet, q.Listed s.extensions repairSizes ∧ q.sources = [] ∧
      p = { q with padding := size } := by
  obtain ⟨q, hlisted, hsame, heq⟩ := s.paddingPacket_eq ssrc payloadType size now
  have hsources : q.sources = [] :=
    (congrArg Packet.sources hsame).trans (s.listed_paddingStart ssrc payloadType now).2
  exact ⟨q, hlisted, hsources, Packet.eq_of_withPadding (heq ▸ h)⟩

theorem headerSize_le_of_listed {q : Packet} (hlisted : q.Listed s.extensions repairSizes)
    (hsources : q.sources = []) : q.headerSize ≤ s.worstPaddingHeader :=
  calc q.headerSize
      = Packet.fixedHeaderSize + q.blockSize := by simp [Packet.headerSize, hsources]
    _ ≤ s.baseHeader + s.extensions.worstBlockSize repairSizes :=
        Nat.add_le_add (Nat.le_add_right _ _) hlisted.blockSize_le

theorem headerSize_paddingPacket_le (h : s.paddingPacket? ssrc payloadType size now = some p) :
    p.headerSize ≤ s.worstPaddingHeader := by
  obtain ⟨q, hlisted, hsources, rfl⟩ := paddingPacket_cases h
  have hq : q.headerSize ≤ s.worstPaddingHeader := headerSize_le_of_listed hlisted hsources
  exact hq

theorem headerSize_padWith_le {count : Nat} :
    ∀ p ∈ (s.padWith ssrc payloadType size now count).1, p.headerSize ≤ s.worstPaddingHeader := by
  induction count generalizing s with
  | zero => simp [padWith]
  | succ count ih =>
    cases hp : s.paddingPacket? ssrc payloadType size now with
    | none => simp [padWith, hp]
    | some first =>
      have hrest := ih (s := s.advance ssrc)
      rw [(s.sameBudget_advance ssrc).worstPaddingHeader] at hrest
      simpa [padWith, hp] using And.intro (headerSize_paddingPacket_le hp) hrest

theorem headerSize_padRest_le :
    ∀ p ∈ (s.padRest left mediaSent onMedia now).1, p.headerSize ≤ s.worstPaddingHeader := by
  by_cases hsize : s.paddingSize left = 0
  · simp [padRest, hsize]
  · cases hstream : s.paddingStream? mediaSent onMedia with
    | none => simp [padRest, hsize, hstream]
    | some stream =>
      simp only [padRest, hsize, hstream, if_false]
      exact headerSize_padWith_le

/-- A repeated payload stands behind the number that it had. -/
theorem payload_repeatPayloads (s : Sender) (excess left : Nat) (now : Time) :
    ∀ p ∈ (s.repeatPayloads excess left now).1, p.payload ≠ [] := by
  fun_induction repeatPayloads s excess left now with
  | case1 | case2 | case3 | case4 => simp
  | case5 s left _ e _ _ copy hcopy t more left' u hmore ih =>
    rw [hmore] at ih
    have hpayload := payload_of_repairCopy hcopy
    refine List.forall_mem_cons.mpr ⟨?_, ih⟩
    simp [hpayload, Octets.ofWord16]

/-- A packet without a payload is one of those that fill up what the repeated payloads left. -/
theorem mem_makePadding {target : Nat} (hp : p ∈ (s.makePadding target mediaSent onMedia now).1)
    (hempty : p.payload = []) :
    ∃ t left, s.SameBudget t ∧ p ∈ (t.padRest left mediaSent onMedia now).1 := by
  cases hrepeats : s.canRepeatPayloads with
  | false =>
    cases hsending : s.sending with
    | false => simp [makePadding, hrepeats, hsending] at hp
    | true =>
      simp only [makePadding, hrepeats, hsending, Bool.false_eq_true, if_true, if_false,
        List.nil_append] at hp
      exact ⟨s, target, .refl s, hp⟩
  | true =>
    have hkept := (SameButNumbers.repeatPayloads s (overshoot target) target now).sameBudget
    have hpayloads := s.payload_repeatPayloads (overshoot target) target now
    rcases hrepeated : s.repeatPayloads (overshoot target) target now with ⟨repeated, left, t⟩
    rw [hrepeated] at hkept hpayloads
    cases hsending : t.sending with
    | false => simp [makePadding, hrepeats, hrepeated, hsending] at hp
    | true =>
      simp only [makePadding, hrepeats, hrepeated, hsending, if_true, List.mem_append] at hp
      exact ⟨t, left, hkept, hp.resolve_left fun hmem => hpayloads p hmem hempty⟩

/-- No packet of padding alone has a longer header than worked out for the worst one. -/
theorem headerSize_makePadding_le {target : Nat}
    (hp : p ∈ (s.makePadding target mediaSent onMedia now).1) (hempty : p.payload = []) :
    p.headerSize ≤ s.worstPaddingHeader := by
  obtain ⟨t, left, hsame, hmem⟩ := mem_makePadding hp hempty
  exact hsame.worstPaddingHeader ▸ headerSize_padRest_le p hmem

/-- After any run of operations, refused ones among them, the sizes kept in advance and whether
bandwidth is measured, and with it whether padding is of use, are what the present extensions,
names, sources, streams and acknowledgements give. Padding alone never needs a longer header than
was kept for it. -/
theorem kept_current (settings : SenderSettings) (archive : Archive) (ops : List Operation) :
    let s := (new settings archive).performAll ops
    s.mediaHeader = s.worstMediaHeader ∧ s.paddingHeader = s.worstPaddingHeader ∧
      s.measuresBandwidth = s.hasBandwidthExtension ∧
      s.canPad = (s.sending && s.hasBandwidthExtension) ∧
      ∀ target mediaSent onMedia now, ∀ p ∈ (s.makePadding target mediaSent onMedia now).1,
        p.payload = [] → p.headerSize ≤ s.paddingHeader := by
  intro s
  have hcurrent : s.Current := (Current.new settings archive).performAll ops
  refine ⟨hcurrent.media, hcurrent.padding, hcurrent.bandwidth, ?_,
    fun target mediaSent onMedia now p hp hempty => ?_⟩
  · rw [canPad, hcurrent.bandwidth]
  · rw [hcurrent.padding]
    exact headerSize_makePadding_le hp hempty

theorem kept_current_erased :
    let settings : SenderSettings := {
      ssrc := 1, mid := .ofString "a"
      extensions := {
        bindings := [(4, .rtpMid), (5, .absoluteSendTime), (6, .transmissionTimeOffset)] }
      firstNumber := 0, firstRepairNumber := 0, timestampOffset := 0 }
    let sent : Packet := { extensions := {}, capacity := 1200, marker := true }
    let s := (new settings (.new true 10)).performAll
      [.assign sent, .setSources [7], .eraseExtension HeaderExtension.rtpMid.uri]
    s.paddingHeader = 28 ∧ s.canPad = true ∧
      ∃ p ∈ (s.makePadding 300 true false 0).1, p.payload = [] ∧ p.headerSize = 24 ∧
        p.headerSize ≤ s.paddingHeader := by
  intro settings sent s
  obtain ⟨-, -, -, -, hfits⟩ := kept_current settings (.new true 10)
    [.assign sent, .setSources [7], .eraseExtension HeaderExtension.rtpMid.uri]
  have hmade : ∃ p ∈ (s.makePadding 300 true false 0).1, p.payload = [] ∧ p.headerSize = 24 := by
    decide +kernel
  obtain ⟨p, hp, hempty, hsize⟩ := hmade
  exact ⟨by decide +kernel, by decide +kernel, p, hp, hempty, hsize,
    hfits 300 true false 0 p hp hempty⟩

end LayeredRtp.Sender
