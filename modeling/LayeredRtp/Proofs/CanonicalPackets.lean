import LayeredRtp.Proofs.PacketCapacity
import LayeredRtp.Proofs.PacketGrammar

/-! Packets that were read, written again. The writer chooses the form of the elements anew and
leaves out what was not kept, so the octets may differ from those that were read; but reading them
gives the same packet, and they are written the same way from then on. -/
namespace LayeredRtp

variable {m : ExtensionIds} {s : Octets}

theorem ElementForm.Spells.bounds {form : ElementForm} {raw : List RawElement}
    (h : form.Spells s raw) : ∀ r ∈ raw, 1 ≤ r.id.toNat ∧ r.value.length ≤ 255 := by
  induction h with
  | nil => simp
  | zero _ ih => exact ih
  | @short head value s elements named free length _ ih =>
    have hid : (UInt8.ofNat (head.toNat / 16)).toNat = head.toNat / 16 := by
      have := head.toNat_lt
      rw [UInt8.toNat_ofNat']
      omega
    refine List.forall_mem_cons.mpr ⟨⟨?_, ?_⟩, ih⟩
    · rw [hid]
      exact Nat.pos_of_ne_zero named
    · simp only
      omega
  | unnamed _ _ _ _ _ ih => exact ih
  | last => simp
  | @long id length value s elements nonzero exact _ ih =>
    have hlength := length.toNat_lt
    refine List.forall_mem_cons.mpr ⟨⟨?_, ?_⟩, ih⟩
    · exact Nat.pos_of_ne_zero fun h => nonzero (UInt8.toNat_inj.mp h)
    · simp only
      omega

theorem SpellsPadding.le {n : Nat} (h : SpellsPadding s n) : n ≤ 255 := by
  cases h with
  | padding filler count all => exact Nat.le_of_lt_succ count.toNat_lt

theorem RawElement.mem_named {raw : List RawElement} {e : Element}
    (h : e ∈ raw.filterMap (named? m)) :
    ⟨e.id, e.value⟩ ∈ raw ∧ m.extension? e.id = some e.ext := by
  obtain ⟨r, hr, hnamed⟩ := List.mem_filterMap.mp h
  obtain ⟨ext, hext, rfl⟩ := Option.map_eq_some_iff.mp hnamed
  exact ⟨hr, hext⟩

namespace Packet

variable {p : Packet}

/-- The elements that are kept of a block are written in the room of the block or less, so its
length fits the field for it again. -/
theorem content_of_spellsBlock (hm : m.extension? 0 = none) {raw : List RawElement}
    (h : SpellsBlock s raw) :
    (∀ r ∈ raw, 1 ≤ r.id.toNat ∧ r.value.length ≤ 255) ∧
      (Element.shape (raw.filterMap (RawElement.named? m))).contentSize ≤ 4 * 0xFFFF := by
  cases h with
  | @block form a b words content _ mark length spelled =>
    refine ⟨spelled.bounds, ?_⟩
    have hroom := roomFor_of_readElements (readElements_of_spells hm spelled)
    have hcontent := hroom.contentSize_le
    have hwords := words.toNat_lt
    omega

/-- A packet that was read can be read back when it is written. -/
theorem legible_of_ofOctets (hm : m.Registered) (h : ofOctets? m s = some p) : p.Legible := by
  obtain ⟨parts, hspelled, rfl⟩ := (ofOctets?_eq_some_iff hm.extension?_zero).mp h
  cases hspelled with
  | @spelled flags kind block padding version sources elements ending marker payloadType =>
    have hblock : (∀ r ∈ parts.elements, 1 ≤ r.id.toNat ∧ r.value.length ≤ 255) ∧
        (Element.shape (parts.elements.filterMap (RawElement.named? m))).contentSize ≤
          4 * 0xFFFF := by
      split at elements
      · exact content_of_spellsBlock hm.extension?_zero elements
      · obtain ⟨-, hnone⟩ := elements
        simp [hnone, Element.shape, BlockShape.contentSize]
    have htype : parts.payloadType.toNat < 128 := by omega
    have hsources : parts.sources.length ≤ 15 := by omega
    have hpadding : parts.padding ≤ 255 := by
      split at ending
      · exact ending.le
      · exact ending.2 ▸ Nat.zero_le _
    exact ⟨htype, hsources, hpadding, fun e he => hblock.1 _ (RawElement.mem_named he).1, hblock.2⟩

theorem named_of_ofOctets (hm : m.Registered) (h : ofOctets? m s = some p) :
    ∀ e ∈ p.elements, m.extension? e.id = some e.ext := by
  obtain ⟨parts, -, rfl⟩ := (ofOctets?_eq_some_iff hm.extension?_zero).mp h
  exact fun e he => (RawElement.mem_named he).2

/-- A packet that was read is written in no more octets than it was read from, as many as its size
says, and reading those gives the same packet, with duplicate elements and all. Only its capacity is
that of the new octets, and from then on it is written as it was read. -/
theorem rewrites_canonical (hm : m.Registered) (h : ofOctets? m s = some p) :
    p.capacity = s.length ∧ p.size ≤ s.length ∧ p.toOctets.length = p.size ∧
      ∃ q, ofOctets? m p.toOctets = some q ∧ q = { p with capacity := p.size } ∧
        q.toOctets = p.toOctets := by
  obtain ⟨hcapacity, hsize⟩ := bounded_of_ofOctets h
  have hread := (legible_of_ofOctets hm h).ofOctets?_toOctets m
  rw [readAs_eq_self (named_of_ofOctets hm h)] at hread
  refine ⟨hcapacity, hsize, length_toOctets p, _, hread, ?_, rfl⟩
  obtain ⟨parts, -, rfl⟩ := (ofOctets?_eq_some_iff hm.extension?_zero).mp h
  rfl

/-- The longer form where the shorter one would do, zeros in front of elements, an id that is not
registered, two elements of one extension, and octets other than zero in the padding. -/
theorem rewrites_canonical_shorter :
    let m : ExtensionIds := { bindings := [(4, .rtpMid)] }
    let s : Octets := [0xB0, 0xE0, 0, 7, 0, 0, 0, 1, 0, 0, 0, 2, 0x10, 0x05, 0, 3,
      0, 4, 1, 97, 9, 2, 8, 8, 0, 4, 1, 98, 5, 6, 9, 9, 3]
    m.Registered ∧ ∃ p, ofOctets? m s = some p ∧
      p.toOctets = [0xB0, 0xE0, 0, 7, 0, 0, 0, 1, 0, 0, 0, 2, 0xBE, 0xDE, 0, 1,
        0x40, 97, 0x40, 98, 5, 6, 0, 0, 3] ∧
      p.size ≤ 33 ∧ ∃ q, ofOctets? m p.toOctets = some q ∧ q = { p with capacity := p.size } ∧
        q.toOctets = p.toOctets := by
  intro m s
  have hm : m.Registered := .insert 4 .rtpMid .empty rfl
  let p : Packet := {
    extensions := m, capacity := 33, marker := true, payloadType := 96, sequenceNumber := 7
    timestamp := 1, ssrc := 2, elements := [⟨4, .rtpMid, [97]⟩, ⟨4, .rtpMid, [98]⟩]
    payload := [5, 6], padding := 3 }
  have hread : ofOctets? m s = some p := by decide +kernel
  obtain ⟨-, hsize, -, hagain⟩ := rewrites_canonical hm hread
  exact ⟨hm, p, hread, by decide +kernel, hsize, hagain⟩

end Packet
end LayeredRtp
