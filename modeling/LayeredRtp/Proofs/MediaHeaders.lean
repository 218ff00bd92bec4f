import LayeredRtp.Proofs.CachedHeaders
import LayeredRtp.Proofs.PacketCapacity

/-! The headers of media packets. The extensions that a sender writes are among those that it
makes room for, with values no longer than expected, so that no packet has a longer header than the
sender remembers. -/
namespace LayeredRtp

namespace BlockShape

/-- A longer value needs no shorter head, but a value without octets needs the longer one. -/
theorem needsTwoByte_mono {id : UInt8} {n most : Nat} (hn : 1 ≤ n) (hle : n ≤ most)
    (h : needsTwoByte id n = true) : needsTwoByte id most = true := by
  simp only [needsTwoByte, Bool.or_eq_true, decide_eq_true_eq, beq_iff_eq] at h ⊢
  omega

end BlockShape

theorem StreamId.octets_ne_nil (id : StreamId) (h : id.isEmpty = false) : id.octets ≠ [] := by
  intro hnil
  simp [StreamId.isEmpty, StreamId.text, hnil, Utf8.text?, Utf8.decode] at h

namespace Packet

variable {m : ExtensionIds} {sizes : HeaderExtension.Sizes} {p q : Packet}
  {e : HeaderExtension} {value : Octets}

structure Listed (m : ExtensionIds) (sizes : HeaderExtension.Sizes) (p : Packet) : Prop extends
    p.Writable m where
  sized : ∀ x ∈ p.elements, ∃ n, (x.ext, n) ∈ sizes ∧ 1 ≤ x.value.length ∧ x.value.length ≤ n

def HasPlace (m : ExtensionIds) (sizes : HeaderExtension.Sizes) (e : HeaderExtension)
    (x : Element) : Prop :=
  ∃ id n, m.id? e = some id ∧ (e, n) ∈ sizes ∧ 1 ≤ x.value.length ∧ x.value.length ≤ n ∧
    (BlockShape.needsTwoByte x.id x.value.length = true → BlockShape.needsTwoByte id n = true)

/-- The places may be those of other extensions, as long as no two elements share one. -/
theorem within_fullShape (place : HeaderExtension → HeaderExtension) {elements : List Element}
    (distinct : (elements.map (place ·.ext)).Nodup)
    (placed : ∀ x ∈ elements, HasPlace m sizes (place x.ext) x) :
    BlockShape.Within (Element.shape elements) (m.fullShape sizes) := by
  induction elements generalizing sizes with
  | nil => exact .nil _
  | cons x rest ih =>
    obtain ⟨id, n, hid, hmem, hpos, hle, hform⟩ := placed x List.mem_cons_self
    obtain ⟨before, after, rfl⟩ := List.append_of_mem hmem
    obtain ⟨hnew, hdistinct⟩ := List.nodup_cons.mp distinct
    -- The other elements have other places, all of them among the rest.
    have hrest : BlockShape.Within (Element.shape rest) (m.fullShape (before ++ after)) := by
      refine ih hdistinct fun y hy => ?_
      obtain ⟨id', k, hid', hk, hbounds⟩ := placed y (List.mem_cons_of_mem x hy)
      have hne : place y.ext ≠ place x.ext := fun heq => hnew (List.mem_map.mpr ⟨y, hy, heq⟩)
      refine ⟨id', k, hid', ?_, hbounds⟩
      simpa [hne] using hk
    have hfirst : BlockShape.Within (Element.shape (x :: rest))
        ((id, n) :: m.fullShape (before ++ after)) := .cons hle hform hrest
    refine hfirst.perm ?_
    simp only [ExtensionIds.fullShape, List.filterMap_append, List.filterMap_cons, hid,
      Option.map_some]
    exact List.perm_middle.symm

theorem size_le_worstBlockSize (place : HeaderExtension → HeaderExtension)
    {elements : List Element} (distinct : (elements.map (place ·.ext)).Nodup)
    (placed : ∀ x ∈ elements, HasPlace m sizes (place x.ext) x) :
    (Element.shape elements).size ≤ m.worstBlockSize sizes := by
  have hwithin := within_fullShape place distinct placed
  unfold ExtensionIds.worstBlockSize
  simp only
  split
  · rename_i hzero
    have hnone : elements = [] := by
      refine List.eq_nil_iff_forall_not_mem.mpr fun x hx => ?_
      obtain ⟨id, n, hid, hmem, hpos, hle, -⟩ := placed x hx
      have hshape : (id, n) ∈ m.fullShape sizes :=
        List.mem_filterMap.mpr ⟨_, hmem, by simp [hid]⟩
      have hn : n = 0 := by simpa using List.all_eq_true.mp hzero _ hshape
      omega
    simp [hnone, Element.shape, BlockShape.size]
  · exact hwithin.size_le

/-- The block is no larger than the worst one for the table. -/
theorem Listed.blockSize_le (h : p.Listed m sizes) : p.blockSize ≤ m.worstBlockSize sizes := by
  refine size_le_worstBlockSize id h.distinct fun x hx => ?_
  obtain ⟨n, hmem, hpos, hle⟩ := h.sized x hx
  exact ⟨x.id, n, h.ids x hx, hmem, hpos, hle, BlockShape.needsTwoByte_mono hpos hle⟩

theorem Listed.insert (h : p.Listed m sizes) {n : Nat} (hmem : (e, n) ∈ sizes)
    (hpos : 1 ≤ value.length) (hle : value.length ≤ n) (hq : p.insert? e value = some q) :
    q.Listed m sizes := by
  refine ⟨h.toWritable.insert hq, ?_⟩
  obtain ⟨id, -, -, -, -, rfl⟩ := insert_cases hq
  intro x hx
  rcases mem_putElement hx with hold | rfl | ⟨y, hy, hext, rfl⟩
  · exact h.sized x hold
  · exact ⟨n, hmem, hpos, hle⟩
  · exact ⟨n, hext ▸ hmem, hpos, hle⟩

theorem Listed.tryTo (h : p.Listed m sizes) {change : Packet → Option Packet}
    (hchange : ∀ q, change p = some q → q.Listed m sizes) : (p.tryTo change).Listed m sizes := by
  unfold Packet.tryTo
  cases hq : change p with
  | none => exact h
  | some q => exact hchange q hq

theorem Listed.reserve (h : p.Listed m sizes) {n : Nat} (hmem : (e, n) ∈ sizes)
    (hpos : 1 ≤ e.valueSize) (hle : e.valueSize ≤ n) :
    (p.tryTo (·.reserve? e)).Listed m sizes :=
  h.tryTo fun _ hq => h.insert hmem (by simpa using hpos) (by simpa using hle) hq

theorem Listed.withName (h : p.Listed m sizes) {id : StreamId}
    (hmem : id.isEmpty = false → (e, 16) ∈ sizes) :
    (p.tryTo (·.withName? e id)).Listed m sizes := by
  refine h.tryTo fun q hq => ?_
  unfold withName? at hq
  split at hq
  · cases hq
  · rename_i hname
    have hname : id.isEmpty = false := by simpa using hname
    have hpos : 1 ≤ id.octets.length := List.length_pos_iff.mpr (id.octets_ne_nil hname)
    have hle : id.octets.length ≤ 16 := Nat.le.intro id.sixteen
    exact h.insert (hmem hname) hpos hle hq

end Packet

namespace Sender

open HeaderExtension (absoluteSendTime transmissionTimeOffset transportSequenceNumber)

variable (s : Sender)

def roomFor : HeaderExtension.Sizes := s.mediaSizes.filter fun x => s.needsRoomFor x.1

theorem mem_roomFor {e : HeaderExtension} {n : Nat} (hmem : (e, n) ∈ s.mediaSizes)
    (hneeds : s.needsRoomFor e = true) : (e, n) ∈ s.roomFor :=
  List.mem_filter.mpr ⟨hmem, hneeds⟩

def blank : Packet :=
  let p : Packet := { extensions := s.extensions, capacity := s.maxPacketSize, ssrc := s.ssrc }
  p.tryTo (·.withSources? s.sources)

theorem listed_blank : s.blank.Listed s.extensions s.roomFor := by
  have hnew := Packet.writable_new s.extensions s.maxPacketSize
  have hblank : Packet.Listed s.extensions s.roomFor
      { extensions := s.extensions, capacity := s.maxPacketSize, ssrc := s.ssrc } :=
    ⟨{ hnew with }, by simp⟩
  unfold blank
  refine hblank.tryTo fun q hq => ?_
  unfold Packet.withSources? at hq
  split at hq
  · rename_i hroom
    cases hq
    exact ⟨{ hblank.toWritable with sources := hroom.1 }, hblank.sized⟩
  · cases hq

theorem listed_allocate : s.allocate.Listed s.extensions s.roomFor := by
  have hsizes : (absoluteSendTime, 3) ∈ s.mediaSizes ∧ (transmissionTimeOffset, 3) ∈ s.mediaSizes ∧
      (transportSequenceNumber, 2) ∈ s.mediaSizes ∧ (.rtpMid, 16) ∈ s.mediaSizes ∧
      (.rtpStreamId, 16) ∈ s.mediaSizes := by
    unfold mediaSizes
    cases s.kind <;> decide
  obtain ⟨hsend, hoffset, hnumber, hmid, hrid⟩ := hsizes
  have hreserved := ((s.listed_blank.reserve (s.mem_roomFor hsend rfl) (by decide) (by decide)).reserve
    (s.mem_roomFor hoffset rfl) (by decide) (by decide)).reserve
    (s.mem_roomFor hnumber rfl) (by decide) (by decide)
  unfold allocate
  split
  · rename_i hnames
    have hmid : (s.mid.isEmpty = false → (.rtpMid, 16) ∈ s.roomFor) := fun hname =>
      s.mem_roomFor hmid (by simp [needsRoomFor, HeaderExtension.isNonVolatile, hnames, hname])
    have hrid : (s.rid.isEmpty = false → (.rtpStreamId, 16) ∈ s.roomFor) := fun hname =>
      s.mem_roomFor hrid (by simp [needsRoomFor, HeaderExtension.isNonVolatile, hnames, hname])
    exact (hreserved.withName hmid).withName hrid
  · exact hreserved

/-- Beside extensions, an allocated packet has no more than the sources of the sender. -/
theorem allocate_eq : ∃ sources elements, sources.length ≤ s.sources.length ∧ s.allocate =
    { extensions := s.extensions, capacity := s.maxPacketSize, ssrc := s.ssrc, sources, elements } := by
  have hblank : ∃ sources, sources.length ≤ s.sources.length ∧ s.blank =
      { extensions := s.extensions, capacity := s.maxPacketSize, ssrc := s.ssrc, sources } := by
    let p : Packet := { extensions := s.extensions, capacity := s.maxPacketSize, ssrc := s.ssrc }
    have htry : s.blank = (p.withSources? s.sources).getD p := rfl
    cases hq : p.withSources? s.sources with
    | none => exact ⟨[], Nat.zero_le _, by rw [htry, hq]; rfl⟩
    | some q => exact ⟨s.sources, Nat.le_refl _, by rw [htry, hq]; exact Packet.eq_of_withSources hq⟩
  have hname (p : Packet) (e : HeaderExtension) (id : StreamId) :
      p.SameButElements (p.tryTo (·.withName? e id)) :=
    Packet.sameButElements_tryTo fun _ h => Packet.sameButElements_of_withName h
  have hreserved := (((Packet.SameButElements.refl s.blank).reserve absoluteSendTime).reserve
    transmissionTimeOffset).reserve transportSequenceNumber
  have hsame : s.blank.SameButElements s.allocate := by
    unfold allocate
    split
    · exact (hreserved.trans (hname _ .rtpMid s.mid)).trans (hname _ .rtpStreamId s.rid)
    · exact hreserved
  obtain ⟨sources, hsources, hblank⟩ := hblank
  rw [hblank] at hsame
  exact ⟨sources, s.allocate.elements, hsources, hsame⟩

/-- No allocated packet has a longer header than worked out for the worst one. -/
theorem headerSize_allocate_le : s.allocate.headerSize ≤ s.worstMediaHeader := by
  have hblock := s.listed_allocate.blockSize_le
  obtain ⟨sources, elements, hsources, hp⟩ := s.allocate_eq
  rw [hp] at hblock ⊢
  simp only [Packet.headerSize, worstMediaHeader, baseHeader, roomFor] at hblock ⊢
  omega

end Sender
end LayeredRtp
