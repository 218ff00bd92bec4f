import LayeredRtp.Packet.Text
import LayeredRtp.Proofs.ExtensionBlocks
import LayeredRtp.Proofs.RegisteredIds
import Mathlib.Data.List.Perm.Subperm

/-! Packets read back as they were written. Every change of a packet, accepted or refused, keeps
it in the shape that the wire has room for, whatever changes came before. -/
namespace LayeredRtp

inductive PacketChange where
  | marker (on : Bool)
  | payloadType (pt : PayloadType)
  | sequenceNumber (n : UInt16)
  | timestamp (t : UInt32)
  | ssrc (s : Ssrc)
  | sources (s : List Ssrc)
  | insert (e : HeaderExtension) (value : Octets)
  | reserve (e : HeaderExtension)
  | erase (e : HeaderExtension)
  | mid (id : StreamId)
  | rid (id : StreamId)
  | repairedRid (id : StreamId)
  | payload (s : Octets)
  | padding (n : Nat)
  | kind (k : PacketKind)
  | captureTime (t : Time)
  | repeats (n : UInt16)

namespace Packet

def change (p : Packet) : PacketChange → Packet
  | .marker on => { p with marker := on }
  | .payloadType pt => p.withPayloadType pt
  | .sequenceNumber n => { p with sequenceNumber := n }
  | .timestamp t => { p with timestamp := t }
  | .ssrc s => { p with ssrc := s }
  | .sources s => p.tryTo (·.withSources? s)
  | .insert e value => p.tryTo (·.insert? e value)
  | .reserve e => p.tryTo (·.reserve? e)
  | .erase e => p.tryTo (·.erase? e)
  | .mid id => p.tryTo (·.withMid? id)
  | .rid id => p.tryTo (·.withRid? id)
  | .repairedRid id => p.tryTo (·.withRepairedRid? id)
  | .payload s => p.tryTo (·.withPayload? s)
  | .padding n => p.tryTo (·.withPadding? n)
  | .kind k => { p with kind := some k }
  | .captureTime t => { p with captureTime := some t }
  | .repeats n => { p with repeats := some n }

/-- A packet that the wire has room for. Its elements have the ids of their extensions, and no
extension has two of them. -/
structure Writable (m : ExtensionIds) (p : Packet) : Prop where
  extensions : p.extensions = m
  payloadType : p.payloadType.toNat < 128
  sources : p.sources.length ≤ 15
  padding : p.padding ≤ 255
  ids : ∀ e ∈ p.elements, m.id? e.ext = some e.id
  values : ∀ e ∈ p.elements, e.value.length ≤ 255
  distinct : (p.elements.map (·.ext)).Nodup

theorem Writable.tryTo {m : ExtensionIds} {p : Packet} (hp : p.Writable m)
    (change : Packet → Option Packet) (h : ∀ q, change p = some q → q.Writable m) :
    (p.tryTo change).Writable m := by
  unfold Packet.tryTo
  cases hq : change p with
  | none => exact hp
  | some q => exact h q hq

/-- An element is changed in place, or it is a new one at the end. -/
theorem mem_putElement {new x : Element} {elements : List Element}
    (h : x ∈ putElement new elements) :
    x ∈ elements ∨ x = new ∨
      ∃ y ∈ elements, y.ext = new.ext ∧ x = { y with value := new.value } := by
  induction elements with
  | nil => exact .inr (.inl (by simpa [putElement] using h))
  | cons y rest ih =>
    by_cases hy : y.ext = new.ext
    · simp only [putElement, hy, if_true, List.mem_cons] at h
      rcases h with rfl | h
      · exact .inr (.inr ⟨y, by simp, hy, by simp [hy]⟩)
      · exact .inl (by simp [h])
    · simp only [putElement, hy, if_false, List.mem_cons] at h
      rcases h with rfl | h
      · exact .inl (by simp)
      · rcases ih h with h | h | ⟨z, hz, hrest⟩
        · exact .inl (by simp [h])
        · exact .inr (.inl h)
        · exact .inr (.inr ⟨z, by simp [hz], hrest⟩)

theorem map_ext_putElement (new : Element) (elements : List Element) :
    (putElement new elements).map (·.ext) =
      if new.ext ∈ elements.map (·.ext) then elements.map (·.ext)
      else elements.map (·.ext) ++ [new.ext] := by
  induction elements with
  | nil => simp [putElement]
  | cons y rest ih =>
    by_cases hy : y.ext = new.ext
    · simp [putElement, hy]
    · simp only [putElement, hy, if_false, List.map_cons, ih, List.mem_cons, Ne.symm hy, false_or]
      split <;> simp

theorem Writable.insert {m : ExtensionIds} {p q : Packet} (hp : p.Writable m)
    {e : HeaderExtension} {value : Octets} (h : p.insert? e value = some q) : q.Writable m := by
  unfold insert? at h
  cases hid : p.extensions.id? e with
  | none => simp [hid] at h
  | some id =>
    simp only [hid, Option.ite_none_left_eq_some, Option.ite_none_right_eq_some, Nat.not_lt,
      Option.some.injEq] at h
    obtain ⟨hlen, -, -, rfl⟩ := h
    rw [hp.extensions] at hid
    refine { hp with ids := fun x hx => ?_, values := fun x hx => ?_, distinct := ?_ }
    · rcases mem_putElement hx with hx | rfl | ⟨y, hy, -, rfl⟩
      · exact hp.ids x hx
      · exact hid
      · exact hp.ids y hy
    · rcases mem_putElement hx with hx | rfl | ⟨y, hy, -, rfl⟩
      · exact hp.values x hx
      · exact hlen
      · exact hlen
    · rw [map_ext_putElement]
      split
      · exact hp.distinct
      · rename_i hnew
        exact List.nodup_append.mpr ⟨hp.distinct, by simp, by simpa using hnew⟩

theorem Writable.withName {m : ExtensionIds} {p q : Packet} (hp : p.Writable m)
    {e : HeaderExtension} {id : StreamId} (h : p.withName? e id = some q) : q.Writable m := by
  simp only [withName?, Option.ite_none_left_eq_some] at h
  exact hp.insert h.2

/-- No change, accepted or refused, leaves the shape that the wire has room for. -/
theorem Writable.change {m : ExtensionIds} {p : Packet} (hp : p.Writable m) (c : PacketChange) :
    (p.change c).Writable m := by
  cases c with
  | marker on => exact { hp with }
  | payloadType pt =>
    simp only [Packet.change, withPayloadType]
    by_cases hpt : pt.isValid = true
    · rw [if_pos hpt]
      exact { hp with payloadType := of_decide_eq_true hpt }
    · rw [if_neg hpt]
      exact hp
  | sequenceNumber n => exact { hp with }
  | timestamp t => exact { hp with }
  | ssrc s => exact { hp with }
  | sources s =>
    refine hp.tryTo (·.withSources? s) fun q hq => ?_
    simp only [withSources?, Option.ite_none_right_eq_some, Option.some.injEq] at hq
    obtain ⟨⟨hlen, -⟩, rfl⟩ := hq
    exact { hp with sources := hlen }
  | insert e value => exact hp.tryTo (·.insert? e value) fun q hq => hp.insert hq
  | reserve e => exact hp.tryTo (·.reserve? e) fun q hq => hp.insert hq
  | erase e =>
    refine hp.tryTo (·.erase? e) fun q hq => ?_
    simp only [erase?, Option.ite_none_right_eq_some, Option.some.injEq] at hq
    obtain ⟨-, rfl⟩ := hq
    exact { hp with
      ids := fun x hx => hp.ids x (List.mem_filter.mp hx).1
      values := fun x hx => hp.values x (List.mem_filter.mp hx).1
      distinct := hp.distinct.sublist (List.filter_sublist.map _) }
  | mid id => exact hp.tryTo (·.withMid? id) fun q hq => hp.withName hq
  | rid id => exact hp.tryTo (·.withRid? id) fun q hq => hp.withName hq
  | repairedRid id => exact hp.tryTo (·.withRepairedRid? id) fun q hq => hp.withName hq
  | payload s =>
    refine hp.tryTo (·.withPayload? s) fun q hq => ?_
    simp only [withPayload?, Option.ite_none_right_eq_some, Option.some.injEq] at hq
    obtain ⟨-, rfl⟩ := hq
    exact { hp with }
  | padding n =>
    refine hp.tryTo (·.withPadding? n) fun q hq => ?_
    simp only [withPadding?, Option.ite_none_right_eq_some, Option.some.injEq] at hq
    obtain ⟨⟨hle, -⟩, rfl⟩ := hq
    exact { hp with padding := hle }
  | kind k => exact { hp with }
  | captureTime t => exact { hp with }
  | repeats n => exact { hp with }

theorem Writable.foldl_change {m : ExtensionIds} {p : Packet} (hp : p.Writable m)
    (changes : List PacketChange) : (changes.foldl Packet.change p).Writable m := by
  induction changes generalizing p with
  | nil => exact hp
  | cons c rest ih => exact ih (hp.change c)

theorem writable_new (m : ExtensionIds) (capacity : Nat) :
    Writable m { extensions := m, capacity } := by
  constructor <;> simp

def after (m : ExtensionIds) (capacity : Nat) (changes : List PacketChange) : Packet :=
  changes.foldl change { extensions := m, capacity }

theorem writable_after (m : ExtensionIds) (capacity : Nat) (changes : List PacketChange) :
    Writable m (after m capacity changes) :=
  (writable_new m capacity).foldl_change changes

/-- There are fourteen extensions, so a block stays far below the most that its length tells. -/
theorem Writable.content_small {m : ExtensionIds} {p : Packet} (hp : p.Writable m) :
    (Element.shape p.elements).contentSize ≤ 4 * 0xFFFF := by
  have hcount : p.elements.length ≤ HeaderExtension.all.length := by
    rw [← List.length_map (·.ext)]
    exact (hp.distinct.subperm fun e _ => e.mem_all).length_le
  have hsum : ∀ elements : List Element, (∀ e ∈ elements, e.value.length ≤ 255) →
      ∀ form : ElementForm,
        (Element.shape elements).foldr (fun x size => form.headLength + x.2 + size) 0 ≤
          257 * elements.length := by
    intro elements h form
    induction elements with
    | nil => simp [Element.shape]
    | cons e rest ih =>
      have ih := ih fun x hx => h x (by simp [hx])
      have hvalue := h e (by simp)
      have hhead : form.headLength ≤ 2 := by cases form <;> decide
      simp only [Element.shape, List.map_cons, List.foldr_cons, List.length_cons] at ih ⊢
      omega
  have hall : HeaderExtension.all.length = 14 := rfl
  exact Nat.le_trans (hsum p.elements hp.values _) (by omega)

structure Legible (p : Packet) : Prop where
  payloadType : p.payloadType.toNat < 128
  sources : p.sources.length ≤ 15
  padding : p.padding ≤ 255
  elements : ∀ e ∈ p.elements, 1 ≤ e.id.toNat ∧ e.value.length ≤ 255
  content : (Element.shape p.elements).contentSize ≤ 4 * 0xFFFF

theorem Writable.legible {m : ExtensionIds} {p : Packet} (hm : m.Registered) (hp : p.Writable m) :
    p.Legible where
  payloadType := hp.payloadType
  sources := hp.sources
  padding := hp.padding
  elements e he := ⟨(hm.extension?_of_id? (hp.ids e he)).2, hp.values e he⟩
  content := hp.content_small

theorem length_writePadding {n : Nat} : (writePadding n).length = n := by
  by_cases h : n = 0
  · simp [writePadding, h]
  · simp [writePadding, h]
    omega

/-- A packet takes as many octets as its size says. -/
theorem length_toOctets (p : Packet) : p.toOctets.length = p.size := by
  have hsources : (p.sources.flatMap Octets.ofWord32).length = p.sources.length * 4 := by
    induction p.sources with
    | nil => rfl
    | cons s rest ih =>
      rw [List.flatMap_cons, List.length_append, ih, Octets.length_ofWord32, List.length_cons]
      omega
  simp only [toOctets, List.length_append, List.length_cons, List.length_nil,
    Octets.length_ofWord16, Octets.length_ofWord32, hsources, length_writeBlock,
    length_writePadding, size, headerSize, fixedHeaderSize, blockSize]

theorem readPadding_write (payload : Octets) {n : Nat} (h0 : 0 < n) (h : n ≤ 255) :
    readPadding (payload ++ writePadding n) = some (payload, n) := by
  have hn : (UInt8.ofNat n).toNat = n := by
    rw [UInt8.toNat_ofNat']
    omega
  have hne : UInt8.ofNat n ≠ 0 := by
    intro he
    rw [he] at hn
    simp only [UInt8.toNat_zero] at hn
    omega
  have hlast : (payload ++ writePadding n).getLast? = some (UInt8.ofNat n) := by
    simp [writePadding, Nat.ne_of_gt h0]
  have hlen : (payload ++ writePadding n).length = payload.length + n := by
    rw [List.length_append, length_writePadding]
  simp only [readPadding, hlast, hne, hn, hlen, false_or]
  rw [if_neg (by omega), Nat.add_sub_cancel, List.take_left]

/-- The first octet tells the version, the number of sources, and whether there are elements and
padding. -/
theorem Legible.firstOctet_read {p : Packet} (hp : p.Legible) :
    p.firstOctet.toNat / 64 = 2 ∧ p.firstOctet.toNat % 16 = p.sources.length ∧
      (p.firstOctet.toNat / 16 % 2 = 1 ↔ p.elements ≠ []) ∧
      (p.firstOctet.toNat / 32 % 2 = 1 ↔ 0 < p.padding) := by
  have hs := hp.sources
  have hoctet : p.firstOctet.toNat = 128 + (if 0 < p.padding then 32 else 0) +
      (if p.elements = [] then 0 else 16) + p.sources.length := by
    have h32 : flag (0 < p.padding) 32 = if 0 < p.padding then 32 else 0 := by simp [flag]
    have h16 : flag (!p.elements.isEmpty) 16 = if p.elements = [] then 0 else 16 := by
      by_cases h : p.elements = [] <;> simp [flag, h]
    rw [firstOctet, UInt8.toNat_ofNat', h32, h16]
    split <;> split <;> omega
  rw [hoctet]
  by_cases h0 : 0 < p.padding <;> by_cases hnil : p.elements = [] <;>
    simp only [h0, hnil, ne_eq, not_true_eq_false, not_false_eq_true, iff_true, iff_false, if_true,
      if_false] <;> omega

/-- The second octet tells the marker and the payload type. -/
theorem Legible.secondOctet_read {p : Packet} (hp : p.Legible) :
    decide (p.secondOctet.toNat / 128 = 1) = p.marker ∧
      UInt8.ofNat (p.secondOctet.toNat % 128) = p.payloadType := by
  have hpt := hp.payloadType
  have hoctet : p.secondOctet.toNat = flag p.marker 128 + p.payloadType.toNat := by
    rw [secondOctet, UInt8.toNat_ofNat', Nat.mod_eq_of_lt hpt]
    unfold flag
    split <;> omega
  have hmod : p.secondOctet.toNat % 128 = p.payloadType.toNat := by
    rw [hoctet]
    unfold flag
    split <;> omega
  refine ⟨?_, by rw [hmod, UInt8.ofNat_toNat]⟩
  rw [hoctet]
  cases p.marker with
  | true =>
    rw [flag, if_pos rfl, decide_eq_true_eq]
    omega
  | false =>
    rw [flag, if_neg (by decide), decide_eq_false_iff_not]
    omega

/-- Under any ids, the part after the fixed header is read back as it was written. -/
theorem Legible.readBody_write {p : Packet} (hp : p.Legible) (other : ExtensionIds) :
    readBody other p.firstOctet (p.sources.flatMap Octets.ofWord32 ++
        (writeBlock p.elements ++ (p.payload ++ writePadding p.padding))) =
      some (p.sources, p.elements.filterMap (Element.readAs? other), p.payload, p.padding) := by
  obtain ⟨-, hcount, helements, hpadding⟩ := hp.firstOctet_read
  have hend : (if p.firstOctet.toNat / 32 % 2 = 1 then
        readPadding (p.payload ++ writePadding p.padding)
      else some (p.payload ++ writePadding p.padding, 0)) = some (p.payload, p.padding) := by
    by_cases h0 : 0 < p.padding
    · rw [if_pos (hpadding.mpr h0), readPadding_write _ h0 hp.padding]
    · rw [if_neg (fun h => h0 (hpadding.mp h)), Nat.eq_zero_of_not_pos h0]
      simp [writePadding]
  simp only [readBody, hcount, Octets.takeWords32_flatMap, bind, Option.bind, pure]
  by_cases hnil : p.elements = []
  · rw [if_neg (fun h => helements.mp h hnil)]
    split at hend <;> simp_all [writeBlock]
  · rw [if_pos (helements.mpr hnil), readBlock_writeBlock hnil hp.elements hp.content]
    split at hend <;> simp_all

/-- Reading a written packet gives all of it back, except for elements that the reader has no
ids for. -/
theorem Legible.ofOctets?_toOctets {p : Packet} (hp : p.Legible) (other : ExtensionIds) :
    ofOctets? other p.toOctets = some {
      extensions := other
      capacity := p.size
      marker := p.marker
      payloadType := p.payloadType
      sequenceNumber := p.sequenceNumber
      timestamp := p.timestamp
      ssrc := p.ssrc
      sources := p.sources
      elements := p.elements.filterMap (Element.readAs? other)
      payload := p.payload
      padding := p.padding } := by
  have hversion := hp.firstOctet_read.1
  obtain ⟨hmarker, htype⟩ := hp.secondOctet_read
  have hlength := length_toOctets p
  have hbody := hp.readBody_write other
  have hwrite : p.toOctets = p.firstOctet :: p.secondOctet ::
      (Octets.ofWord16 p.sequenceNumber ++ (Octets.ofWord32 p.timestamp ++
        (Octets.ofWord32 p.ssrc ++ (p.sources.flatMap Octets.ofWord32 ++
          (writeBlock p.elements ++ (p.payload ++ writePadding p.padding)))))) := by
    simp [toOctets]
  rw [hwrite] at hlength ⊢
  simp only [Octets.ofWord16, Octets.ofWord32, List.cons_append, List.nil_append] at hlength ⊢
  simp only [ofOctets?, hversion, if_true, hbody, bind, Option.bind, pure, hmarker, htype,
    Octets.word16_ofWord16, Octets.word32_ofWord32, hlength]

/-- Under ids that name the elements as they are named, none of them is lost. -/
theorem readAs_eq_self {m : ExtensionIds} {elements : List Element}
    (h : ∀ e ∈ elements, m.extension? e.id = some e.ext) :
    elements.filterMap (Element.readAs? m) = elements := by
  induction elements with
  | nil => rfl
  | cons e rest ih =>
    have he : Element.readAs? m e = some e := by simp [Element.readAs?, h e (by simp)]
    rw [List.filterMap_cons_some he, ih fun x hx => h x (by simp [hx])]

theorem Writable.readAs_self {m : ExtensionIds} {p : Packet} (hm : m.Registered)
    (hp : p.Writable m) : p.elements.filterMap (Element.readAs? m) = p.elements :=
  readAs_eq_self fun e he => (hm.extension?_of_id? (hp.ids e he)).1

/-- Whatever was done to a packet, it is written in as many octets as its size says, and reading
them under any ids gives the packet back, with the elements that have an id there. -/
theorem round_trip {m : ExtensionIds} (hm : m.Registered) (capacity : Nat)
    (changes : List PacketChange) (other : ExtensionIds) :
    (after m capacity changes).toOctets.length = (after m capacity changes).size ∧
    ∃ q, ofOctets? other (after m capacity changes).toOctets = some q ∧
      q.marker = (after m capacity changes).marker ∧
      q.payloadType = (after m capacity changes).payloadType ∧
      q.sequenceNumber = (after m capacity changes).sequenceNumber ∧
      q.timestamp = (after m capacity changes).timestamp ∧
      q.ssrc = (after m capacity changes).ssrc ∧
      q.sources = (after m capacity changes).sources ∧
      q.payload = (after m capacity changes).payload ∧
      q.padding = (after m capacity changes).padding ∧
      q.elements = (after m capacity changes).elements.filterMap (Element.readAs? other) ∧
      (other = m → q.elements = (after m capacity changes).elements) := by
  have hp := writable_after m capacity changes
  refine ⟨length_toOctets _, _, (hp.legible hm).ofOctets?_toOctets other, rfl, rfl, rfl, rfl, rfl,
    rfl, rfl, rfl, rfl, ?_⟩
  rintro rfl
  exact hp.readAs_self hm

/-- A value without octets takes the form with two octets in front, beside a name that would do
with one; the payload and the padding follow. -/
theorem round_trip_mixed : ∃ (m : ExtensionIds) (changes : List PacketChange), m.Registered ∧
    (after m 100 changes).toOctets = [0xB0, 96, 0, 7, 0, 0, 0, 0, 0, 0, 0, 0, 0x10, 0, 0, 2,
      2, 0, 4, 1, 97, 0, 0, 0, 1, 2, 0, 0, 3] ∧
    ∃ q, ofOctets? m (after m 100 changes).toOctets = some q ∧
      q.elements = (after m 100 changes).elements := by
  let m : ExtensionIds :=
    { bindings := [(2, .absoluteSendTime), (4, .rtpMid)], mixed := true }
  have hm : m.Registered :=
    .insert 4 .rtpMid (.insert 2 .absoluteSendTime (.mixed true .empty) rfl) rfl
  let changes : List PacketChange := [.payloadType 96, .sequenceNumber 7, .padding 300,
    .insert .absoluteSendTime [], .insert .audioLevel [9], .insert .rtpMid [97], .payload [1, 2],
    .padding 3]
  obtain ⟨-, q, hq, -, -, -, -, -, -, -, -, -, hself⟩ := round_trip hm 100 changes m
  exact ⟨m, changes, hm, by decide +kernel, q, hq, hself rfl⟩

end Packet
end LayeredRtp
