import LayeredRtp.Proofs.BlockSizes
import LayeredRtp.Proofs.PacketRoundTrip
import LayeredRtp.Proofs.RepairCopies

/-! No change makes a packet larger than its capacity. A change that is refused leaves the packet
alone, and one that is accepted does what it says and nothing else, also to packets that were read
and have several elements of one extension. -/
namespace LayeredRtp

inductive Element.PutIn (new : Element) : List Element → List Element → Prop
  | replaced (before after : List Element) (x : Element) (ext : x.ext = new.ext)
      (first : ∀ y ∈ before, y.ext ≠ new.ext) :
      PutIn new (before ++ x :: after) (before ++ { x with value := new.value } :: after)
  | added {elements : List Element} (absent : ∀ y ∈ elements, y.ext ≠ new.ext) :
      PutIn new elements (elements ++ [new])

namespace Packet

variable {m : ExtensionIds} {p q : Packet} {e : HeaderExtension} {value : Octets}

theorem putIn_putElement (new : Element) (elements : List Element) :
    new.PutIn elements (putElement new elements) := by
  induction elements with
  | nil => exact .added (by simp)
  | cons x rest ih =>
    simp only [putElement]
    by_cases hx : x.ext = new.ext
    · rw [if_pos hx]
      exact .replaced [] rest x hx (by simp)
    · rw [if_neg hx]
      generalize putElement new rest = put at ih
      cases ih with
      | replaced before after y ext first =>
        exact .replaced (x :: before) after y ext (List.forall_mem_cons.mpr ⟨hx, first⟩)
      | added absent => exact .added (List.forall_mem_cons.mpr ⟨hx, absent⟩)

theorem find?_putElement (new : Element) (elements : List Element) :
    (putElement new elements).find? (·.ext == new.ext) =
      some (match elements.find? (·.ext == new.ext) with
        | some x => { x with value := new.value }
        | none => new) := by
  induction elements with
  | nil => simp [putElement]
  | cons x rest ih =>
    by_cases hx : x.ext = new.ext
    · simp [putElement, hx]
    · simpa [putElement, hx] using ih

theorem find?_putElement_of_ne (new : Element) (he : e ≠ new.ext) (elements : List Element) :
    (putElement new elements).find? (·.ext == e) = elements.find? (·.ext == e) := by
  induction elements with
  | nil => simp [putElement, Ne.symm he]
  | cons x rest ih =>
    by_cases hx : x.ext = new.ext
    · have hne : x.ext ≠ e := hx ▸ Ne.symm he
      simp [putElement, hx, Ne.symm he]
    · simp only [putElement, hx, if_false, List.find?_cons, ih]

structure Sets (p : Packet) (e : HeaderExtension) (value : Octets) (q : Packet) : Prop where
  others : p.SameButElements q
  put : ∃ id, p.extensions.id? e = some id ∧ Element.PutIn ⟨id, e, value⟩ p.elements q.elements
  value : q.value? e = some value
  rest : ∀ x, x ≠ e → q.value? x = p.value? x

structure Erases (p : Packet) (e : HeaderExtension) (q : Packet) : Prop where
  others : p.SameButElements q
  elements : q.elements = p.elements.filter fun x => x.ext != e
  value : q.value? e = none
  rest : ∀ x, x ≠ e → q.value? x = p.value? x

/-- What is checked before an extension gets a value. -/
theorem insert_cases (h : p.insert? e value = some q) :
    ∃ id, p.extensions.id? e = some id ∧ value.length ≤ 255 ∧
      (BlockShape.needsTwoByte id value.length = true → p.extensions.mixed = true) ∧
      p.fits ((Element.shape (putElement ⟨id, e, value⟩ p.elements)).size - p.blockSize) = true ∧
      q = { p with elements := putElement ⟨id, e, value⟩ p.elements } := by
  unfold insert? at h
  cases hid : p.extensions.id? e with
  | none => simp [hid] at h
  | some id =>
    simp only [hid, Option.ite_none_left_eq_some, Option.ite_none_right_eq_some,
      Option.some.injEq, Nat.not_lt] at h
    obtain ⟨hlen, hform, hfits, rfl⟩ := h
    exact ⟨id, rfl, hlen, by simpa using hform, hfits, rfl⟩

theorem sets_of_insert (h : p.insert? e value = some q) : p.Sets e value q := by
  obtain ⟨id, hid, -, -, -, rfl⟩ := insert_cases h
  refine ⟨rfl, ⟨id, hid, putIn_putElement _ _⟩, ?_, fun x hx => ?_⟩
  · have hfind := find?_putElement ⟨id, e, value⟩ p.elements
    rw [value?, hfind]
    cases p.elements.find? fun x => x.ext == e <;> rfl
  · have hfind := find?_putElement_of_ne ⟨id, e, value⟩ hx p.elements
    rw [value?, hfind]
    rfl

theorem sets_of_withName {id : StreamId} (h : p.withName? e id = some q) :
    p.Sets e id.octets q := by
  unfold withName? at h
  split at h
  · cases h
  · exact sets_of_insert h

theorem eq_of_erase (h : p.erase? e = some q) :
    q = { p with elements := p.elements.filter fun x => x.ext != e } := by
  unfold erase? at h
  split at h
  · exact (Option.some.inj h).symm
  · cases h

theorem erases_of_erase (h : p.erase? e = some q) : p.Erases e q := by
  have hq := eq_of_erase h
  have helements : q.elements = p.elements.filter fun x => x.ext != e := by rw [hq]
  refine ⟨by rw [hq]; rfl, helements, ?_, fun x hx => ?_⟩
  · simp [value?, helements]
  · have hfind : (p.elements.filter fun y => y.ext != e).find? (·.ext == x) =
        p.elements.find? (·.ext == x) := by
      rw [List.find?_filter]
      congr 1
      funext y
      by_cases hy : y.ext = x
      · simp [hy, hx]
      · simp [hy]
    rw [value?, helements, hfind]
    rfl

def changed? (p : Packet) : PacketChange → Option Packet
  | .marker on => some { p with marker := on }
  | .payloadType pt => some (p.withPayloadType pt)
  | .sequenceNumber n => some { p with sequenceNumber := n }
  | .timestamp t => some { p with timestamp := t }
  | .ssrc s => some { p with ssrc := s }
  | .sources s => p.withSources? s
  | .insert e value => p.insert? e value
  | .reserve e => p.reserve? e
  | .erase e => p.erase? e
  | .mid id => p.withMid? id
  | .rid id => p.withRid? id
  | .repairedRid id => p.withRepairedRid? id
  | .payload s => p.withPayload? s
  | .padding n => p.withPadding? n
  | .kind k => some { p with kind := some k }
  | .captureTime t => some { p with captureTime := some t }
  | .repeats n => some { p with repeats := some n }

theorem change_eq (p : Packet) (c : PacketChange) : p.change c = (p.changed? c).getD p := by
  cases c <;> rfl

def Effect (p : Packet) (q : Packet) : PacketChange → Prop
  | .marker on => q = { p with marker := on }
  | .payloadType pt => q = if pt.toNat < 128 then { p with payloadType := pt } else p
  | .sequenceNumber n => q = { p with sequenceNumber := n }
  | .timestamp t => q = { p with timestamp := t }
  | .ssrc s => q = { p with ssrc := s }
  | .sources s => q = { p with sources := s }
  | .insert e value => p.Sets e value q
  | .reserve e => p.Sets e (List.replicate e.valueSize 0) q
  | .erase e => p.Erases e q
  | .mid id => p.Sets .rtpMid id.octets q
  | .rid id => p.Sets .rtpStreamId id.octets q
  | .repairedRid id => p.Sets .repairedRtpStreamId id.octets q
  | .payload s => q = { p with payload := s }
  | .padding n => q = { p with padding := n }
  | .kind k => q = { p with kind := some k }
  | .captureTime t => q = { p with captureTime := some t }
  | .repeats n => q = { p with repeats := some n }

theorem effect_of_changed {c : PacketChange} (h : p.changed? c = some q) : p.Effect q c := by
  cases c with
  | marker on => exact (Option.some.inj h).symm
  | payloadType pt =>
    have hq := (Option.some.inj h).symm
    simpa [Effect, withPayloadType, PayloadType.isValid] using hq
  | sequenceNumber n => exact (Option.some.inj h).symm
  | timestamp t => exact (Option.some.inj h).symm
  | ssrc s => exact (Option.some.inj h).symm
  | sources s => exact eq_of_withSources h
  | insert e value => exact sets_of_insert h
  | reserve e => exact sets_of_insert h
  | erase e => exact erases_of_erase h
  | mid id => exact sets_of_withName h
  | rid id => exact sets_of_withName h
  | repairedRid id => exact sets_of_withName h
  | payload s => exact eq_of_withPayload h
  | padding n => exact eq_of_withPadding h
  | kind k => exact (Option.some.inj h).symm
  | captureTime t => exact (Option.some.inj h).symm
  | repeats n => exact (Option.some.inj h).symm

structure Bounded (limit : Nat) (p : Packet) : Prop where
  capacity : p.capacity = limit
  size : p.size ≤ limit

theorem size_withElements (p : Packet) (elements : List Element) :
    { p with elements }.size + p.blockSize = p.size + (Element.shape elements).size := by
  simp only [size, headerSize, blockSize]
  omega

namespace Bounded

variable {limit : Nat}

theorem insert (hp : p.Bounded limit) (h : p.insert? e value = some q) :
    q.Bounded limit := by
  obtain ⟨id, -, -, -, hfits, rfl⟩ := insert_cases h
  refine ⟨hp.capacity, ?_⟩
  have hcapacity := hp.capacity
  have hroom := of_decide_eq_true hfits
  have hsize := p.size_withElements (putElement ⟨id, e, value⟩ p.elements)
  omega

theorem withName {id : StreamId} (hp : p.Bounded limit) (h : p.withName? e id = some q) :
    q.Bounded limit := by
  unfold withName? at h
  split at h
  · cases h
  · exact hp.insert h

theorem erase (hp : p.Bounded limit) (h : p.erase? e = some q) : q.Bounded limit := by
  have hq := eq_of_erase h
  have hblock : q.blockSize ≤ p.blockSize := by
    apply BlockShape.Within.size_le
    rw [hq]
    exact .of_sublist (List.filter_sublist.map _)
  have hsize := p.size_withElements (p.elements.filter fun x => x.ext != e)
  have hbound := hp.size
  refine ⟨by rw [hq]; exact hp.capacity, ?_⟩
  rw [hq] at hblock ⊢
  simp only [blockSize] at hblock hsize
  omega

/-- One change, whatever it is, leaves the packet within its capacity. -/
theorem changed (hp : p.Bounded limit) {c : PacketChange} (h : p.changed? c = some q) :
    q.Bounded limit := by
  obtain ⟨hcapacity, hsize⟩ := hp
  cases c with
  | marker on => exact Option.some.inj h ▸ ⟨hcapacity, hsize⟩
  | payloadType pt =>
    rw [← Option.some.inj h, withPayloadType]
    split <;> exact ⟨hcapacity, hsize⟩
  | sequenceNumber n => exact Option.some.inj h ▸ ⟨hcapacity, hsize⟩
  | timestamp t => exact Option.some.inj h ▸ ⟨hcapacity, hsize⟩
  | ssrc s => exact Option.some.inj h ▸ ⟨hcapacity, hsize⟩
  | sources s =>
    simp only [changed?, withSources?, Option.ite_none_right_eq_some, Option.some.injEq] at h
    obtain ⟨⟨-, hfits⟩, rfl⟩ := h
    have hroom := of_decide_eq_true hfits
    refine ⟨hcapacity, ?_⟩
    simp only [Packet.size, headerSize, blockSize] at hroom ⊢
    omega
  | insert e value => exact insert ⟨hcapacity, hsize⟩ h
  | reserve e => exact insert ⟨hcapacity, hsize⟩ h
  | erase e => exact erase ⟨hcapacity, hsize⟩ h
  | mid id => exact withName ⟨hcapacity, hsize⟩ h
  | rid id => exact withName ⟨hcapacity, hsize⟩ h
  | repairedRid id => exact withName ⟨hcapacity, hsize⟩ h
  | payload s =>
    simp only [changed?, withPayload?, Option.ite_none_right_eq_some, Option.some.injEq] at h
    obtain ⟨hroom, rfl⟩ := h
    exact ⟨hcapacity, hcapacity ▸ hroom⟩
  | padding n =>
    simp only [changed?, withPadding?, Option.ite_none_right_eq_some, Option.some.injEq] at h
    obtain ⟨⟨-, hroom⟩, rfl⟩ := h
    exact ⟨hcapacity, hcapacity ▸ hroom⟩
  | kind k => exact Option.some.inj h ▸ ⟨hcapacity, hsize⟩
  | captureTime t => exact Option.some.inj h ▸ ⟨hcapacity, hsize⟩
  | repeats n => exact Option.some.inj h ▸ ⟨hcapacity, hsize⟩

theorem change (hp : p.Bounded limit) (c : PacketChange) : (p.change c).Bounded limit := by
  rw [change_eq]
  cases h : p.changed? c with
  | none => exact hp
  | some q => exact hp.changed h

theorem foldl_change (hp : p.Bounded limit) (changes : List PacketChange) :
    (changes.foldl Packet.change p).Bounded limit := by
  induction changes generalizing p with
  | nil => exact hp
  | cons c rest ih => exact ih (hp.change c)

end Bounded

/-- A packet before any changes: a new one with room for the fixed header, or one that was read. -/
inductive Begun (m : ExtensionIds) : Packet → Prop
  | new {capacity : Nat} (room : 12 ≤ capacity) : Begun m { extensions := m, capacity }
  | read {s : Octets} {p : Packet} (read : ofOctets? m s = some p) : Begun m p

theorem length_of_takeWords32 {n : Nat} {s rest : Octets} {words : List UInt32}
    (h : Octets.takeWords32 n s = some (words, rest)) :
    words.length * 4 + rest.length = s.length := by
  fun_induction Octets.takeWords32 n s generalizing words rest with
  | case1 => cases h; simp
  | case2 n a b c d tail ih =>
    obtain ⟨⟨more, after⟩, hmore, h⟩ := Option.bind_eq_some_iff.mp h
    cases h
    have hlen := ih hmore
    simp only [List.length_cons]
    omega
  | case3 => cases h

theorem length_of_readPadding {s payload : Octets} {n : Nat}
    (h : readPadding s = some (payload, n)) : payload.length + n = s.length := by
  unfold readPadding at h
  split at h
  · cases h
  · split at h
    · cases h
    · cases h
      rw [List.length_take]
      omega

theorem readBody_eq (m : ExtensionIds) (flags : UInt8) (s : Octets) :
    readBody m flags s = (Octets.takeWords32 (flags.toNat % 16) s).bind fun (sources, s) =>
      (if flags.toNat / 16 % 2 = 1 then readBlock m s else some ([], s)).bind
        fun (elements, s) =>
          (if flags.toNat / 32 % 2 = 1 then readPadding s else some (s, 0)).bind
            fun (payload, padding) => some (sources, elements, payload, padding) := by
  unfold readBody
  split <;> split <;> rfl

theorem size_of_readBody {flags : UInt8} {s payload : Octets} {sources : List Ssrc}
    {elements : List Element} {padding : Nat}
    (h : readBody m flags s = some (sources, elements, payload, padding)) :
    sources.length * 4 + (Element.shape elements).size + payload.length + padding ≤ s.length := by
  simp only [readBody_eq, Option.bind_eq_some_iff, Prod.exists, Option.some.injEq,
    Prod.mk.injEq] at h
  obtain ⟨words, tail, hsources, read, body, helements, content, count, hpayload, rfl, rfl, rfl,
    rfl⟩ := h
  have hwords := length_of_takeWords32 hsources
  have hblock : (Element.shape read).size + body.length ≤ tail.length := by
    split at helements
    · exact size_of_readBlock helements
    · cases helements
      exact Nat.le_of_eq (Nat.zero_add _)
  have hend : content.length + count = body.length := by
    split at hpayload
    · exact length_of_readPadding hpayload
    · cases hpayload
      exact Nat.add_zero _
  omega

/-- What was read takes no more room than it was read from. -/
theorem bounded_of_ofOctets {s : Octets} (h : ofOctets? m s = some p) : p.Bounded s.length := by
  unfold ofOctets? at h
  split at h
  · split at h
    · obtain ⟨⟨sources, elements, payload, padding⟩, hbody, h⟩ := Option.bind_eq_some_iff.mp h
      have hsize := size_of_readBody hbody
      refine Option.some.inj h ▸ ⟨rfl, ?_⟩
      simp only [size, headerSize, blockSize, fixedHeaderSize, List.length_cons]
      omega
    · cases h
  · cases h

theorem Begun.bounded (h : Begun m p) : p.Bounded p.capacity := by
  cases h with
  | new room => exact ⟨rfl, room⟩
  | read read =>
    have hp := bounded_of_ofOctets read
    exact hp.capacity.symm ▸ hp

/-- After any changes a packet is no larger than its capacity and is written in as many octets as
its size says. Of the next change, a refused one leaves the packet as it is, and an accepted one
does no more than it says. -/
theorem Begun.changes_exact (h : Begun m p) (changes : List PacketChange) (c : PacketChange) :
    let q := changes.foldl change p
    (q.capacity = p.capacity ∧ q.size ≤ q.capacity ∧ q.toOctets.length = q.size) ∧
      (q.changed? c = none → q.change c = q) ∧
      ∀ r, q.changed? c = some r → q.change c = r ∧ q.Effect r c := by
  intro q
  have hq : q.Bounded p.capacity := h.bounded.foldl_change changes
  refine ⟨⟨hq.capacity, hq.capacity.symm ▸ hq.size, length_toOctets q⟩, fun hnone => ?_,
    fun r hr => ⟨?_, effect_of_changed hr⟩⟩
  · rw [change_eq, hnone]
    rfl
  · rw [change_eq, hr]
    rfl

/-- Of two elements that were read, the first gets the new value, and both are erased at once. -/
theorem changes_exact_repeated :
    let m : ExtensionIds := { bindings := [(1, .audioLevel), (4, .rtpMid)] }
    let s : Octets := [0x90, 96, 0, 7, 0, 0, 0, 0, 0, 0, 0, 1, 0xBE, 0xDE, 0, 2,
      0x10, 7, 0x40, 97, 0x10, 8, 0, 0]
    ∃ p q r, ofOctets? m s = some p ∧ p.change (.insert .audioLevel [9]) = q ∧
      q.elements = [⟨1, .audioLevel, [9]⟩, ⟨4, .rtpMid, [97]⟩, ⟨1, .audioLevel, [8]⟩] ∧
      q.size ≤ q.capacity ∧ q.change (.erase .audioLevel) = r ∧ q.Erases .audioLevel r ∧
      r.elements = [⟨4, .rtpMid, [97]⟩] := by
  intro m s
  let p : Packet := {
    extensions := m, capacity := 24, payloadType := 96, sequenceNumber := 7, ssrc := 1
    elements := [⟨1, .audioLevel, [7]⟩, ⟨4, .rtpMid, [97]⟩, ⟨1, .audioLevel, [8]⟩] }
  have hread : ofOctets? m s = some p := by decide +kernel
  obtain ⟨⟨-, hsize, -⟩, -, haccepted⟩ :=
    (Begun.read hread).changes_exact [.insert .audioLevel [9]] (.erase .audioLevel)
  obtain ⟨hchange, herases⟩ :=
    haccepted { p with elements := [⟨4, .rtpMid, [97]⟩] } (by decide +kernel)
  exact ⟨p, _, _, hread, rfl, by decide +kernel, hsize, hchange, herases, rfl⟩

end Packet
end LayeredRtp
