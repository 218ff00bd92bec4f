import LayeredRtp.Proofs.PacketCapacity

/-! Names are read back as they were set. A packet keeps octets and makes a name from them when it is
asked for one, but what was made from text once is not changed by making it again. So a packet tells
the name that it was given, and the packet read from its octets does too, whichever form its other
extensions make it written in. -/
namespace LayeredRtp

namespace StreamId

/-- What may stand in a name for a character: a letter or digit for itself, an underscore for any
other. -/
inductive Stands : Char → UInt8 → Prop
  | kept {c : Char} {b : UInt8} (plain : c.isAlphanum = true) (same : b.toNat = c.toNat) :
      Stands c b
  | replaced {c : Char} {b : UInt8} (other : c.isAlphanum = false)
      (underscore : b.toNat = '_'.toNat) : Stands c b

theorem toNat_lt_of_isAlphanum {c : Char} (h : c.isAlphanum = true) : c.toNat < 0x80 := by
  cases Bool.or_eq_true_iff.mp h with
  | inl hletter =>
    cases Bool.or_eq_true_iff.mp hletter with
    | inl hupper =>
      have hle : c.toNat ≤ 'Z'.toNat := UInt32.le_iff_toNat_le.mp (of_decide_eq_true hupper).2
      exact Nat.lt_of_le_of_lt hle (by decide)
    | inr hlower =>
      have hz := (Bool.and_eq_true_iff.mp hlower).2
      have hle : c.toNat ≤ 'z'.toNat := UInt32.le_iff_toNat_le.mp (of_decide_eq_true hz)
      exact Nat.lt_of_le_of_lt hle (by decide)
  | inr hdigit =>
    have hle : c.toNat ≤ '9'.toNat := (Char.isDigit_iff_toNat.mp hdigit).2
    exact Nat.lt_of_le_of_lt hle (by decide)

theorem stands_octetOf (c : Char) : Stands c (octetOf c) := by
  unfold octetOf
  split
  · rename_i h
    refine .kept h ?_
    have := toNat_lt_of_isAlphanum h
    rw [UInt8.toNat_ofNat']
    omega
  · rename_i h
    exact .replaced (Bool.eq_false_iff.mpr h) rfl

theorem Stands.lt {c : Char} {b : UInt8} (h : Stands c b) : b.toNat < 0x80 := by
  cases h with
  | kept plain same => exact same ▸ toNat_lt_of_isAlphanum plain
  | replaced _ underscore => exact underscore ▸ by decide

/-- Read as a character, what stands in a name is left as it is. -/
theorem Stands.octetOf_eq {c : Char} {b : UInt8} (h : Stands c b) :
    octetOf (Char.ofNat b.toNat) = b := by
  cases h with
  | kept plain same =>
    rw [same, Char.ofNat_toNat, octetOf, if_pos plain, ← same, UInt8.ofNat_toNat]
  | replaced _ underscore =>
    rw [underscore]
    exact (UInt8.toNat_inj.mp underscore).symm

theorem octets_ofChars (cs : List Char) : (ofChars cs).octets = (cs.take 16).map octetOf := by
  have hlen : ((cs.take 16).map octetOf).length ≤ 16 := by
    rw [List.length_map]
    exact List.length_take_le _ _
  exact List.take_of_length_le hlen

theorem stands_ofChars (cs : List Char) :
    List.Forall₂ Stands (cs.take 16) (ofChars cs).octets := by
  rw [octets_ofChars, List.forall₂_map_right_iff]
  exact List.forall₂_same.mpr fun c _ => stands_octetOf c

def characters (id : StreamId) : List Char := id.octets.map fun b => Char.ofNat b.toNat

theorem decode_octets (cs : List Char) :
    Utf8.decode (ofChars cs).octets = some (ofChars cs).characters := by
  refine Utf8.decode_ascii _ fun b hb => ?_
  rw [octets_ofChars] at hb
  obtain ⟨c, -, rfl⟩ := List.mem_map.mp hb
  exact (stands_octetOf c).lt

/-- A name made from the characters of a name is that name. -/
theorem ofChars_characters (cs : List Char) : ofChars (ofChars cs).characters = ofChars cs := by
  have hchars : (ofChars cs).characters =
      (cs.take 16).map fun c => Char.ofNat (octetOf c).toNat := by
    rw [characters, octets_ofChars, List.map_map, Function.comp_def]
  have hlen : (ofChars cs).characters.length ≤ 16 := by
    rw [characters, List.length_map]
    exact Nat.le_of_add_right_le (Nat.le_of_eq (ofChars cs).sixteen)
  have hagain : (ofChars cs).characters.map octetOf = (cs.take 16).map octetOf := by
    rw [hchars, List.map_map]
    exact List.map_congr_left fun c _ => (stands_octetOf c).octetOf_eq
  rw [ofChars, List.take_of_length_le hlen, hagain, ofChars]

theorem ofString_text (s : String) : ofString (ofString s).text = ofString s := by
  unfold ofString
  rw [text, Utf8.text?, decode_octets, Option.map_some, Option.getD_some, String.toList_ofList,
    ofChars_characters]

end StreamId

def PacketChange.extension? : PacketChange → Option HeaderExtension
  | .insert e _ | .reserve e | .erase e => some e
  | .mid _ => some .rtpMid
  | .rid _ => some .rtpStreamId
  | .repairedRid _ => some .repairedRtpStreamId
  | .marker _ | .payloadType _ | .sequenceNumber _ | .timestamp _ | .ssrc _ | .sources _
  | .payload _ | .padding _ | .kind _ | .captureTime _ | .repeats _ => none

namespace Packet

variable {m : ExtensionIds} {p q : Packet} {e : HeaderExtension}

theorem Effect.value? {c : PacketChange} (h : p.Effect q c) (hc : c.extension? ≠ some e) :
    q.value? e = p.value? e := by
  have hne {x : HeaderExtension} (hx : some x ≠ some e) : e ≠ x := fun he => hx (he ▸ rfl)
  cases c with
  | insert | reserve | erase | mid | rid | repairedRid => exact h.rest e (hne hc)
  | payloadType pt =>
    rw [show q = _ from h]
    split <;> rfl
  | marker | sequenceNumber | timestamp | ssrc | sources | payload | padding | kind | captureTime
  | repeats => rw [show q = _ from h]; rfl

/-- Changes that are not about an extension leave its value, whether they are accepted or not. -/
theorem value?_foldl_change (changes : List PacketChange)
    (h : ∀ c ∈ changes, c.extension? ≠ some e) :
    (changes.foldl change p).value? e = p.value? e := by
  induction changes generalizing p with
  | nil => rfl
  | cons c rest ih =>
    have hfirst : (p.change c).value? e = p.value? e := by
      rw [change_eq]
      cases hc : p.changed? c with
      | none => rfl
      | some q => exact (effect_of_changed hc).value? (h c (by simp))
    rw [List.foldl_cons, ih fun x hx => h x (by simp [hx]), hfirst]

inductive NamePlace where
  | mid
  | rid
  | repairedRid

namespace NamePlace

def extension : NamePlace → HeaderExtension
  | mid => .rtpMid
  | rid => .rtpStreamId
  | repairedRid => .repairedRtpStreamId

def set? (p : Packet) (id : StreamId) : NamePlace → Option Packet
  | mid => p.withMid? id
  | rid => p.withRid? id
  | repairedRid => p.withRepairedRid? id

def get? (p : Packet) : NamePlace → Option StreamId
  | mid => p.mid
  | rid => p.rid
  | repairedRid => p.repairedRid

theorem set?_eq (place : NamePlace) (p : Packet) (id : StreamId) :
    place.set? p id = p.withName? place.extension id := by cases place <;> rfl

theorem get?_eq (place : NamePlace) (p : Packet) :
    place.get? p = p.name place.extension := by cases place <;> rfl

end NamePlace

theorem name_of_value {s : String} (h : p.value? e = some (StreamId.ofString s).octets) :
    p.name e = some (StreamId.ofString s) := by
  rw [name, h, StreamId.ofString]
  simp only [Option.bind_eq_bind, Option.bind_some, StreamId.decode_octets,
    StreamId.ofChars_characters, Option.pure_def]

/-- What is read from the octets of a packet has the values of its extensions. -/
theorem Writable.exists_read (hm : m.Registered) (hp : p.Writable m) :
    ∃ r, ofOctets? m p.toOctets = some r ∧ ∀ e, r.value? e = p.value? e := by
  refine ⟨_, (hp.legible hm).ofOctets?_toOctets m, fun e => ?_⟩
  simp only [value?, hp.readAs_self hm]

/-- A name has an octet for each of the first sixteen characters of the text that it is made from,
and its own text makes the same name. A packet that takes it tells it, after any changes of other
things, and so does the packet read from its octets. -/
theorem names_kept (s : String) :
    ((StreamId.ofString s).octets.length = min 16 s.length ∧
      List.Forall₂ StreamId.Stands (s.toList.take 16) (StreamId.ofString s).octets ∧
      StreamId.ofString (StreamId.ofString s).text = StreamId.ofString s) ∧
    ∀ (m : ExtensionIds) (capacity : Nat) (before later : List PacketChange) (place : NamePlace)
      (p : Packet), m.Registered →
      place.set? (after m capacity before) (.ofString s) = some p →
      (∀ c ∈ later, c.extension? ≠ some place.extension) →
      place.get? (later.foldl change p) = some (.ofString s) ∧
        ∃ r, ofOctets? m (later.foldl change p).toOctets = some r ∧
          place.get? r = some (.ofString s) := by
  refine ⟨⟨?_, StreamId.stands_ofChars _, StreamId.ofString_text s⟩, ?_⟩
  · rw [StreamId.ofString, StreamId.octets_ofChars, List.length_map, List.length_take,
      String.length_toList]
  intro m capacity before later place p hm hset hlater
  rw [NamePlace.set?_eq] at hset
  have hvalue : (later.foldl change p).value? place.extension =
      some (StreamId.ofString s).octets :=
    (value?_foldl_change later hlater).trans (sets_of_withName hset).value
  have hwritable : (later.foldl change p).Writable m :=
    ((writable_after m capacity before).withName hset).foldl_change later
  obtain ⟨r, hread, hsame⟩ := hwritable.exists_read hm
  simp only [NamePlace.get?_eq]
  exact ⟨name_of_value hvalue, r, hread, name_of_value ((hsame _).trans hvalue)⟩

/-- A name with other characters than letters and digits, and with more than sixteen, in a packet
whose second name has a high id and so makes all elements take the longer form. -/
theorem names_kept_mixed :
    let m : ExtensionIds := { bindings := [(4, .rtpMid), (20, .rtpStreamId)], mixed := true }
    let mid : StreamId := .ofString "Cam é–1/left.front"
    let later : List PacketChange := [.rid (.ofString "r"), .erase .audioLevel, .payload [7]]
    m.Registered ∧ mid.text = "Cam___1_left_fro" ∧ StreamId.ofString mid.text = mid ∧
      ∃ p r, (after m 100 [.payloadType 96]).withMid? mid = some p ∧
        (later.foldl change p).mid = some mid ∧
        (later.foldl change p).toOctets = [0x90, 96, 0, 0, 0, 0, 0, 0, 0, 0, 0, 0,
          0x10, 0x00, 0, 6, 4, 16, 67, 97, 109, 95, 95, 95, 49, 95, 108, 101, 102, 116, 95,
          102, 114, 111, 20, 1, 114, 0, 0, 0, 7] ∧
        ofOctets? m (later.foldl change p).toOctets = some r ∧ r.mid = some mid := by
  intro m mid later
  have hm : m.Registered :=
    .insert 20 .rtpStreamId (.insert 4 .rtpMid (.mixed true .empty) rfl) rfl
  let p : Packet := {
    extensions := m, capacity := 100, payloadType := 96
    elements := [⟨4, .rtpMid,
      [67, 97, 109, 95, 95, 95, 49, 95, 108, 101, 102, 116, 95, 102, 114, 111]⟩] }
  have hset : (after m 100 [.payloadType 96]).withMid? mid = some p := by decide +kernel
  obtain ⟨⟨-, -, htext⟩, hkept⟩ := names_kept "Cam é–1/left.front"
  have hlater : ∀ c ∈ later, c.extension? ≠ some NamePlace.mid.extension := by
    simp [later, PacketChange.extension?, NamePlace.extension]
  obtain ⟨hmid, r, hread, hagain⟩ := hkept m 100 [.payloadType 96] later .mid p hm hset hlater
  exact ⟨hm, by decide +kernel, htext, p, r, hset, hmid, by decide +kernel, hread, hagain⟩

end Packet
end LayeredRtp
