import LayeredRtp.Proofs.RebuiltPackets

/-! Room for repair copies. A copy has a header of its own: two octets more of payload, another name
in place of the one of the stream, and names for as long as its own stream has not been
acknowledged. What is kept free in media packets is enough for it all the same, so that a packet
that was filled up to the limit can be sent again. -/
namespace LayeredRtp

theorem ExtensionIds.toNat_le_of_id? {m : ExtensionIds} {e : HeaderExtension} {id : UInt8}
    {most : Nat} (hids : ∀ b ∈ m.bindings, b.1.toNat ≤ most) (h : m.id? e = some id) :
    id.toNat ≤ most := by
  obtain ⟨b, hb, rfl⟩ := Option.map_eq_some_iff.mp h
  exact hids b (List.mem_of_find?_eq_some hb)

namespace Packet

variable {q : Packet}

/-- With room for it, a new element is put at the end. -/
theorem insert_of_room {x : Element} (hid : q.extensions.id? x.ext = some x.id)
    (absent : x.ext ∉ q.elements.map (·.ext))
    (hform : BlockShape.needsTwoByte x.id x.value.length = false)
    (hroom : { q with elements := q.elements ++ [x] }.size ≤ q.capacity) :
    q.insert? x.ext x.value = some { q with elements := q.elements ++ [x] } := by
  have hput : putElement ⟨x.id, x.ext, x.value⟩ q.elements = q.elements ++ [x] :=
    putElement_of_absent absent
  have hlength : ¬255 < x.value.length := by
    simp only [BlockShape.needsTwoByte, Bool.or_eq_false_iff, decide_eq_false_iff_not] at hform
    omega
  have hgrown : q.blockSize ≤ (Element.shape (q.elements ++ [x])).size :=
    (BlockShape.Within.of_sublist ((List.sublist_append_left q.elements [x]).map _)).size_le
  have hsize := q.size_withElements (q.elements ++ [x])
  have hfits : q.fits ((Element.shape (q.elements ++ [x])).size - q.blockSize) = true :=
    decide_eq_true (by omega)
  simp [insert?, hid, hlength, hform, hput, hfits]

end Packet

namespace Sender

open Packet

variable {s t : Sender} {p q : Packet} {ssrc : Ssrc} {payloadType : PayloadType}

/-- None of the elements is refused if there is room for all that there are. -/
theorem copyElements_of_room {all : List Element} (elements : List Element)
    (hids : ∀ x ∈ all, q.extensions.id? x.ext = some x.id) (distinct : (all.map (·.ext)).Nodup)
    (hform : ∀ x ∈ all, BlockShape.needsTwoByte x.id x.value.length = false)
    (hroom : { q with elements := all }.size ≤ q.capacity)
    (hall : (q.elements ++ elements).Sublist all) :
    copyElements elements q = some { q with
      elements := q.elements ++ elements.filter (·.isCopied q.extensions) } := by
  induction elements generalizing q with
  | nil => simp [copyElements]
  | cons x rest ih =>
    rw [copyElements_cons, List.filter_cons]
    cases x.isCopied q.extensions with
    | false =>
      have hrest : (q.elements ++ rest).Sublist all :=
        ((List.sublist_cons_self x rest).append_left q.elements).trans hall
      exact ih hids hroom hrest
    | true =>
      have hx : x ∈ all := hall.subset (List.mem_append_right _ List.mem_cons_self)
      have hfirst : (q.elements ++ [x]).Sublist all :=
        ((List.singleton_sublist.mpr List.mem_cons_self).append_left q.elements).trans hall
      have habsent : x.ext ∉ q.elements.map (·.ext) := by
        have hnodup := distinct.sublist (hfirst.map (·.ext))
        rw [List.map_append, List.nodup_append] at hnodup
        exact fun hmem => hnodup.2.2 _ hmem _ (by simp) rfl
      -- With the element the copy still has no more than all that there is room for.
      have hblock : (Element.shape (q.elements ++ [x])).size ≤ (Element.shape all).size :=
        (BlockShape.Within.of_sublist (hfirst.map _)).size_le
      have hnext : { q with elements := q.elements ++ [x] }.size ≤ q.capacity := by
        simp only [size, headerSize, blockSize] at hroom ⊢
        omega
      have hinsert := insert_of_room (hids x hx) habsent (hform x hx) hnext
      have hmore := ih (q := { q with elements := q.elements ++ [x] }) hids hroom
        (by simpa using hall)
      simpa [hinsert] using hmore

def unnamedCopy (s : Sender) (p : Packet) (ssrc : Ssrc) (payloadType : PayloadType) : Packet :=
  { s.repairHeader p ssrc payloadType with
    sources := p.sources
    elements := p.elements.filter (·.isCopied s.extensions) }

/-- The packet is copied if its own header fits, and with its names the copy. -/
theorem repairCopy_of_room (hsending : s.sending = true) (hssrc : s.repairSsrc = some ssrc)
    (htype : s.repairTypes.lookup p.payloadType = some payloadType) (hp : p.Writable s.extensions)
    (hform : ∀ x ∈ p.elements, BlockShape.needsTwoByte x.id x.value.length = false)
    (hheader : p.headerSize ≤ s.maxPacketSize)
    (hnamed : (s.nameRepair (s.unnamedCopy p ssrc payloadType)).headerSize + Repair.headerSize +
      p.payload.length ≤ s.maxPacketSize) :
    ∃ copy, s.repairCopy? p = some copy := by
  obtain ⟨type, hbegun⟩ := s.repairHeader_eq p ssrc payloadType
  have hsources : (s.repairHeader p ssrc payloadType).withSources? p.sources =
      some { s.repairHeader p ssrc payloadType with sources := p.sources } := by
    unfold withSources?
    refine if_pos ⟨hp.sources, decide_eq_true ?_⟩
    simp only [headerSize, blockSize] at hheader
    simp only [hbegun, size, headerSize, blockSize, Element.shape, BlockShape.size, List.map_nil,
      List.isEmpty_nil, if_true, List.length_nil]
    omega
  have hcopied : copyElements p.elements
      { s.repairHeader p ssrc payloadType with sources := p.sources } =
        some (s.unnamedCopy p ssrc payloadType) := by
    have hall := copyElements_of_room p.elements
      (q := { s.repairHeader p ssrc payloadType with sources := p.sources })
      (by simpa [hbegun] using hp.ids) hp.distinct hform
      (by simpa [hbegun, size, headerSize, blockSize] using hheader) (by simp [hbegun])
    simpa [unnamedCopy, hbegun] using hall
  have hpayload : ∃ copy, (s.nameRepair (s.unnamedCopy p ssrc payloadType)).withPayload?
      (Octets.ofWord16 p.sequenceNumber ++ p.payload) = some copy := by
    have hsame := s.sameButElements_nameRepair (s.unnamedCopy p ssrc payloadType)
    have hbare : (s.nameRepair (s.unnamedCopy p ssrc payloadType)).capacity = s.maxPacketSize ∧
        (s.nameRepair (s.unnamedCopy p ssrc payloadType)).padding = 0 := by
      rw [hsame]
      simp [unnamedCopy, hbegun]
    refine ⟨_, if_pos ?_⟩
    rw [hbare.1, hbare.2, List.length_append, Octets.length_ofWord16]
    simp only [Repair.headerSize] at hnamed
    omega
  simpa [repairCopy?, hsending, hssrc, htype, hsources, hcopied] using hpayload

def repairRoom (s : Sender) : HeaderExtension.Sizes :=
  s.mediaSizes.filter fun x => x.1.isNonVolatile && match x.1 with
    | .rtpMid => s.namesOnRepair && !s.mid.isEmpty
    | .rtpStreamId => false
    | .repairedRtpStreamId => s.namesOnRepair && !s.rid.isEmpty
    | _ => true

def placeOnMedia (s : Sender) (e : HeaderExtension) : HeaderExtension :=
  if e = .repairedRtpStreamId ∧ s.namesOnMedia = true then .rtpStreamId else e

/-- The sender has room for media packets and their copies, under ids that need one octet in front
of a value. Where the name of a stream that is repeated is registered, the name of a stream is. -/
structure Repairable (s : Sender) : Prop where
  sending : s.sending = true
  stream : s.repairSsrc.isSome = true
  ids : ∀ b ∈ s.extensions.bindings, b.1.toNat ≤ 14
  names : s.extensions.contains .repairedRtpStreamId = true →
    s.extensions.contains .rtpStreamId = true
  room : s.mediaHeader ≤ s.maxPacketSize

/-- Room is made for values at their full size, none of which needs two octets in front. -/
theorem size_of_mem_mediaSizes {e : HeaderExtension} {n : Nat} (h : (e, n) ∈ s.mediaSizes) :
    n = e.valueSize ∧ n ≤ 16 := by
  have hall : ∀ x ∈ s.mediaSizes, x.2 = x.1.valueSize ∧ x.2 ≤ 16 := by
    unfold mediaSizes
    cases s.kind <;> decide
  exact hall _ h

theorem mem_mediaSizes_of_isName {e : HeaderExtension} (he : e.isName = true) :
    (e, 16) ∈ s.mediaSizes := by
  unfold mediaSizes
  cases e
  case rtpMid | rtpStreamId | repairedRtpStreamId => cases s.kind <;> decide
  all_goals cases he

theorem Repairable.oneByte (hs : s.Repairable) {e : HeaderExtension} {id : UInt8} {k n : Nat}
    (hid : s.extensions.id? e = some id) (hmem : (e, n) ∈ s.mediaSizes) (hpos : 1 ≤ k)
    (hle : k ≤ n) : BlockShape.needsTwoByte id k = false := by
  have hmost := ExtensionIds.toNat_le_of_id? hs.ids hid
  have hlength := (size_of_mem_mediaSizes hmem).2
  simp only [BlockShape.needsTwoByte, Bool.or_eq_false_iff, decide_eq_false_iff_not,
    beq_eq_false_iff_ne]
  omega

/-- Of what media packets have, a copy may have all but the names. -/
theorem mem_repairRoom {e : HeaderExtension} {n : Nat} (h : (e, n) ∈ s.roomFor)
    (hmid : e ≠ .rtpMid) (hrid : e ≠ .rtpStreamId) : (e, n) ∈ s.repairRoom := by
  obtain ⟨hmem, hneeds⟩ := List.mem_filter.mp h
  refine List.mem_filter.mpr ⟨hmem, ?_⟩
  cases e
  case rtpMid => exact absurd rfl hmid
  case rtpStreamId => exact absurd rfl hrid
  case repairedRtpStreamId =>
    simp only [needsRoomFor, Bool.and_eq_true] at hneeds ⊢
    exact ⟨rfl, hneeds.2.1.1.2, hneeds.2.2⟩
  all_goals simpa [needsRoomFor] using hneeds

/-- Each extension of a copy has its place in media packets. -/
theorem Repairable.place_mem_roomFor (hs : s.Repairable) {e : HeaderExtension} {n : Nat}
    (h : (e, n) ∈ s.repairRoom) : (s.placeOnMedia e, n) ∈ s.roomFor := by
  obtain ⟨hmem, hallowed⟩ := List.mem_filter.mp h
  obtain ⟨hnonVolatile, hneeds⟩ := Bool.and_eq_true_iff.mp hallowed
  unfold placeOnMedia
  split
  · rename_i hplace
    obtain ⟨rfl, hnames⟩ := hplace
    obtain rfl : n = 16 := (size_of_mem_mediaSizes hmem).1
    have hrid : s.rid.isEmpty = false := by simpa using (Bool.and_eq_true_iff.mp hneeds).2
    refine s.mem_roomFor (mem_mediaSizes_of_isName rfl) ?_
    simp [needsRoomFor, HeaderExtension.isNonVolatile, hnames, hrid]
  · rename_i hplace
    refine s.mem_roomFor hmem ?_
    cases e
    case rtpStreamId => cases hneeds
    case rtpMid =>
      obtain ⟨hnames, hmid⟩ := Bool.and_eq_true_iff.mp hneeds
      simp [needsRoomFor, HeaderExtension.isNonVolatile, hs.stream, hnames, hmid]
    case repairedRtpStreamId =>
      obtain ⟨hnames, hrid⟩ := Bool.and_eq_true_iff.mp hneeds
      have hmedia : s.namesOnMedia = false := by simpa using hplace
      simp [needsRoomFor, HeaderExtension.isNonVolatile, hs.stream, hnames, hmedia, hrid]
    all_goals simpa [needsRoomFor] using hnonVolatile

theorem rtpStreamId_not_mem_repairRoom {n : Nat} : (.rtpStreamId, n) ∉ s.repairRoom := by
  simp [repairRoom]

/-- Different extensions of a copy have different places. -/
theorem placeOnMedia_inj {e e' : HeaderExtension} (he : e ≠ .rtpStreamId) (he' : e' ≠ .rtpStreamId)
    (h : s.placeOnMedia e = s.placeOnMedia e') : e = e' := by
  unfold placeOnMedia at h
  split at h <;> split at h
  · rename_i h₁ h₂
    exact h₁.1.trans h₂.1.symm
  · exact absurd h.symm he'
  · exact absurd h he
  · exact h

/-- No block of a copy is larger than what is kept free for the blocks of media packets. -/
theorem Repairable.blockSize_le (hs : s.Repairable) (hq : q.Listed s.extensions s.repairRoom) :
    q.blockSize ≤ s.extensions.worstBlockSize s.roomFor := by
  have hnamed : ∀ x ∈ q.elements, x.ext ≠ .rtpStreamId := by
    intro x hx heq
    obtain ⟨n, hmem, -, -⟩ := hq.sized x hx
    exact rtpStreamId_not_mem_repairRoom (heq ▸ hmem)
  -- No copy has the name of a stream itself, so the place of that name is free.
  refine size_le_worstBlockSize s.placeOnMedia ?_ fun x hx => ?_
  · have hplaces : (q.elements.map (s.placeOnMedia ·.ext)) =
        (q.elements.map (·.ext)).map s.placeOnMedia := by simp
    rw [hplaces]
    refine hq.distinct.map_on fun e he e' he' heq => ?_
    obtain ⟨x, hx, rfl⟩ := List.mem_map.mp he
    obtain ⟨y, hy, rfl⟩ := List.mem_map.mp he'
    exact placeOnMedia_inj (hnamed x hx) (hnamed y hy) heq
  · obtain ⟨n, hmem, hpos, hle⟩ := hq.sized x hx
    have hone := hs.oneByte (hq.ids x hx) (List.mem_filter.mp hmem).1 hpos hle
    obtain ⟨id, hid⟩ : ∃ id, s.extensions.id? (s.placeOnMedia x.ext) = some id := by
      unfold placeOnMedia
      split
      · rename_i hrepaired
        refine Option.isSome_iff_exists.mp (hs.names ?_)
        rw [← hrepaired.1, ExtensionIds.contains, hq.ids x hx]
        rfl
      · exact ⟨x.id, hq.ids x hx⟩
    exact ⟨id, n, hid, hs.place_mem_roomFor hmem, hpos, hle, by simp [hone]⟩

theorem listed_unnamedCopy (hp : p.Listed s.extensions s.roomFor) (ssrc : Ssrc)
    (payloadType : PayloadType) :
    (s.unnamedCopy p ssrc payloadType).Listed s.extensions s.repairRoom := by
  have hheader := (s.writable_repairHeader p ssrc payloadType).1
  refine ⟨{ hheader with
    sources := hp.sources
    ids := fun x hx => hp.ids x (List.mem_of_mem_filter hx)
    values := fun x hx => hp.values x (List.mem_of_mem_filter hx)
    distinct := hp.distinct.sublist (List.filter_sublist.map _) }, fun x hx => ?_⟩
  obtain ⟨hmem, hcopied⟩ := List.mem_filter.mp hx
  obtain ⟨n, hroom, hbounds⟩ := hp.sized x hmem
  simp only [Element.isCopied, Bool.and_eq_true, bne_iff_ne] at hcopied
  exact ⟨n, mem_repairRoom hroom hcopied.1.1 hcopied.1.2, hbounds⟩

structure Acknowledged (s t : Sender) : Prop where
  same : t = { s with
    acked := t.acked
    repairAcked := t.repairAcked
    paddingHeader := t.paddingHeader
    mediaHeader := t.mediaHeader }
  repair : s.repairAcked = true → t.repairAcked = true

namespace Acknowledged

theorem performAll {acks : List Operation} (h : ∀ op ∈ acks, op = .ack ∨ op = .ackRepair) :
    s.Acknowledged (s.performAll acks) := by
  induction acks generalizing s with
  | nil => exact ⟨rfl, id⟩
  | cons op rest ih =>
    obtain ⟨hop, hrest⟩ := List.forall_mem_cons.mp h
    obtain ⟨hsame, hkept⟩ := ih (s := s.perform op) hrest
    refine ⟨?_, fun hs => hkept ?_⟩
    · rcases hop with rfl | rfl <;> exact hsame
    · rcases hop with rfl | rfl
      · exact hs
      · rfl

theorem namesOnRepair (h : s.Acknowledged t) (ht : t.namesOnRepair = true) :
    s.namesOnRepair = true := by
  have halways : t.alwaysNames = s.alwaysNames := (congrArg Sender.alwaysNames h.same :)
  simp only [Sender.namesOnRepair, halways, Bool.or_eq_true, Bool.not_eq_true'] at ht ⊢
  refine ht.imp_right fun hnone => Bool.eq_false_iff.mpr fun hs => ?_
  exact absurd (h.repair hs) (by simp [hnone])

/-- The names that are written later are among those that there was room for before. -/
theorem listed_nameRepair (h : s.Acknowledged t) {m : ExtensionIds}
    (hq : q.Listed m s.repairRoom) : (t.nameRepair q).Listed m s.repairRoom := by
  have hmid : t.mid = s.mid := (congrArg Sender.mid h.same :)
  have hrid : t.rid = s.rid := (congrArg Sender.rid h.same :)
  unfold nameRepair
  split
  · rename_i ht
    have hnames := h.namesOnRepair ht
    have hnamed : (q.tryTo (·.withMid? t.mid)).Listed m s.repairRoom := by
      refine hq.withName fun hname => List.mem_filter.mpr ⟨mem_mediaSizes_of_isName rfl, ?_⟩
      simp [HeaderExtension.isNonVolatile, hnames, ← hmid, hname]
    refine hnamed.withName fun hname => List.mem_filter.mpr ⟨mem_mediaSizes_of_isName rfl, ?_⟩
    simp [HeaderExtension.isNonVolatile, hnames, ← hrid, hname]
  · exact hq

end Acknowledged

/-- A media packet is copied if its payload leaves room for the largest header, whatever was
acknowledged since. -/
theorem Repairable.exists_repairCopy (hs : s.Repairable)
    (hcurrent : s.mediaHeader = s.worstMediaHeader) (hp : p.Listed s.extensions s.roomFor)
    (hsources : p.sources.length ≤ s.sources.length)
    (hpayload : p.payload.length ≤ s.maxPacketSize - s.mediaHeader)
    (htype : (s.repairTypes.lookup p.payloadType).isSome = true) (h : s.Acknowledged t) :
    ∃ copy, t.repairCopy? p = some copy := by
  obtain ⟨ssrc, hssrc⟩ := Option.isSome_iff_exists.mp hs.stream
  obtain ⟨payloadType, htype⟩ := Option.isSome_iff_exists.mp htype
  have hextensions : t.extensions = s.extensions := (congrArg Sender.extensions h.same :)
  have hsize : t.maxPacketSize = s.maxPacketSize := (congrArg Sender.maxPacketSize h.same :)
  have hunnamed : t.unnamedCopy p ssrc payloadType = s.unnamedCopy p ssrc payloadType :=
    (congrArg (·.unnamedCopy p ssrc payloadType) h.same :)
  have hroom := hs.room
  rw [hcurrent] at hpayload hroom
  simp only [worstMediaHeader, hs.stream, if_true, baseHeader] at hpayload hroom
  refine repairCopy_of_room ((congrArg Sender.sending h.same :).trans hs.sending)
    ((congrArg Sender.repairSsrc h.same :).trans hssrc)
    ((congrArg (·.repairTypes.lookup p.payloadType) h.same :).trans htype)
    (hextensions ▸ hp.toWritable) (fun x hx => ?_) ?_ ?_
  · obtain ⟨n, hmem, hpos, hle⟩ := hp.sized x hx
    exact hs.oneByte (hp.ids x hx) (List.mem_filter.mp hmem).1 hpos hle
  · have hblock := hp.blockSize_le
    simp only [headerSize, roomFor] at hblock ⊢
    omega
  · have hlisted := h.listed_nameRepair (listed_unnamedCopy hp ssrc payloadType)
    have hblock := hs.blockSize_le hlisted
    have hsame : (t.nameRepair (s.unnamedCopy p ssrc payloadType)).sources = p.sources :=
      (congrArg Packet.sources (t.sameButElements_nameRepair _) :)
    rw [hunnamed, hsize]
    simp only [headerSize, roomFor, hsame] at hblock ⊢
    omega

/-- What is left of the room in an allocated packet. -/
theorem packet_of_allocate (s : Sender) (payloadType : PayloadType) (payload : Octets) :
    let p := s.allocate.withPayloadType payloadType
    Packet.Listed s.extensions s.roomFor { p with payload } ∧
      p.sources.length ≤ s.sources.length ∧ p.headerSize ≤ s.worstMediaHeader ∧
      p.padding = 0 ∧ p.capacity = s.maxPacketSize := by
  intro p
  obtain ⟨sources, elements, hsources, hallocate⟩ := s.allocate_eq
  obtain ⟨type, hp⟩ : ∃ type, p = { s.allocate with payloadType := type } := by
    simp only [p, withPayloadType]
    split <;> exact ⟨_, rfl⟩
  have hwritable : p.Writable s.extensions :=
    s.listed_allocate.toWritable.change (.payloadType payloadType)
  have hlisted : Packet.Listed s.extensions s.roomFor { p with payload } :=
    ⟨{ hwritable with }, by simpa [hp] using s.listed_allocate.sized⟩
  have hheader : p.headerSize = s.allocate.headerSize := by rw [hp]; rfl
  refine ⟨hlisted, ?_, hheader ▸ s.headerSize_allocate_le, ?_, ?_⟩
  · rw [hp, hallocate]
    exact hsources
  · rw [hp, hallocate]
  · rw [hp, hallocate]

/-- A media packet within the budget can always be sent again. Its payload may be as long as the
largest header that the sender remembers leaves room for, and the copy of the packet is made in the
room that packets have, by the sender as it is and after any acknowledgements. -/
theorem repairCopy_within_budget (settings : SenderSettings) (archive : Archive)
    (ops : List Operation) (hs : ((new settings archive).performAll ops).Repairable)
    (payloadType : PayloadType) (payload : Octets) :
    let s := (new settings archive).performAll ops
    let p := s.allocate.withPayloadType payloadType
    (s.repairTypes.lookup p.payloadType).isSome = true →
      payload.length ≤ s.maxPacketSize - s.mediaHeader →
      ∃ q, p.withPayload? payload = some q ∧
        ∀ acks : List Operation, (∀ op ∈ acks, op = .ack ∨ op = .ackRepair) →
          ∃ copy, (s.performAll acks).repairCopy? q = some copy ∧ copy.size ≤ s.maxPacketSize := by
  intro s p htype hpayload
  have hcurrent : s.mediaHeader = s.worstMediaHeader :=
    ((Current.new settings archive).performAll ops).media
  obtain ⟨hlisted, hsources, hheader, hpadding, hcapacity⟩ :=
    s.packet_of_allocate payloadType payload
  have hroom : p.headerSize + payload.length + p.padding ≤ p.capacity := by
    have hbudget : s.mediaHeader ≤ s.maxPacketSize := hs.room
    have hworst : p.headerSize ≤ s.mediaHeader := hcurrent ▸ hheader
    rw [hpadding, hcapacity]
    omega
  have hfits : p.withPayload? payload = some { p with payload } := if_pos hroom
  refine ⟨_, hfits, fun acks hacks => ?_⟩
  have hacked : s.Acknowledged (s.performAll acks) := .performAll hacks
  obtain ⟨copy, hcopy⟩ := hs.exists_repairCopy hcurrent hlisted hsources hpayload htype hacked
  have hsize : (s.performAll acks).maxPacketSize = s.maxPacketSize :=
    (congrArg Sender.maxPacketSize hacked.same :)
  exact ⟨copy, hcopy, hsize ▸ (room_repairCopy hcopy).1⟩

/-- The media stream was acknowledged before the copy is made, which fills the packet to the last
octet with the names of its own stream. -/
theorem repairCopy_within_budget_full :
    let settings : SenderSettings := {
      ssrc := 1, repairSsrc := some 2, maxPacketSize := 100
      mid := .ofString "sixteen-letters-", rid := .ofString "sixteen-letters."
      extensions := { bindings := [(1, .absoluteSendTime), (4, .rtpMid), (10, .rtpStreamId),
        (11, .repairedRtpStreamId)] }
      firstNumber := 0, firstRepairNumber := 0, timestampOffset := 0 }
    let s := (new settings (.new true 10)).performAll [.setRepairType 96 97]
    let p := s.allocate.withPayloadType 96
    s.Repairable ∧ s.mediaHeader = 58 ∧
      ∃ q copy, p.withPayload? (List.replicate 42 7) = some q ∧
        (s.performAll [.ack]).repairCopy? q = some copy ∧ copy.size = 100 ∧
        copy.elements.map (·.ext) = [.absoluteSendTime, .rtpMid, .repairedRtpStreamId] := by
  intro settings s p
  have hs : s.Repairable := {
    sending := by decide
    stream := by decide
    ids := by decide
    names := by decide
    room := by decide +kernel }
  obtain ⟨q, hq, hcopies⟩ := repairCopy_within_budget settings (.new true 10)
    [.setRepairType 96 97] hs 96 (List.replicate 42 7) (by decide +kernel) (by decide +kernel)
  obtain ⟨copy, hcopy, -⟩ := hcopies [.ack] (by simp)
  have hread : ((s.performAll [.ack]).repairCopy? { p with payload := List.replicate 42 7 }).map
      (fun copy => (copy.size, copy.elements.map (·.ext))) =
        some (100, [.absoluteSendTime, .rtpMid, .repairedRtpStreamId]) := by
    decide +kernel
  rw [← eq_of_withPayload hq, hcopy] at hread
  obtain ⟨hsize, hnames⟩ := Prod.mk.inj (Option.some.inj hread)
  exact ⟨hs, by decide +kernel, q, copy, hq, hcopy, hsize, hnames⟩

end Sender
end LayeredRtp
