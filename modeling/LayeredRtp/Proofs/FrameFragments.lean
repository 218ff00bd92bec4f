import LayeredRtp.Proofs.DescriptorReading
import Mathlib.Data.List.TakeDrop

/-! Layer frames cut into fragments. What is behind the descriptors is the frame, no fragment is
longer than asked for and all but the last are as long as that, and each descriptor takes as many
octets as its length says and tells where in the frame its fragment is. A limit beyond what fits in
memory is refused, though no fragment would come near it. -/
namespace LayeredRtp.PayloadDescriptor

variable {d : PayloadDescriptor} {mtu room : Nat} {first last : Bool} {payload rest part f : Octets}
  {parts cut : List Octets}

theorem length_writeDistances (distances : List Nat) :
    (writeDistances distances).length = distances.length := by
  fun_induction writeDistances distances with
  | case1 => rfl
  | case2 => rfl
  | case3 _ _ _ ih => simp [ih]

theorem length_structureOctets (d : PayloadDescriptor) :
    d.structureOctets.length = d.structureLength := by
  unfold structureOctets structureLength
  split
  · have hsizes (n : Nat) : ((List.range n).flatMap fun sid =>
        Octets.ofWord16 (UInt16.ofNat (d.widths.get sid)) ++
          Octets.ofWord16 (UInt16.ofNat (d.heights.get sid))).length = 4 * n := by
      induction n with
      | zero => rfl
      | succ n ih =>
        rw [List.range_succ, List.flatMap_append, List.length_append, ih]
        rfl
    rw [List.length_cons, hsizes]
    exact Nat.add_comm _ _
  · rfl

/-- The descriptor takes as many octets as its length says. -/
theorem length_header (d : PayloadDescriptor) (first last : Bool) :
    (d.header first last).length = d.headerLength (d.hasStructure && first) := by
  have hlayers : d.layerOctets.length =
      if d.hasLayerInfo then if d.flexible then 1 else 2 else 0 := by
    unfold layerOctets
    split
    · split <;> rfl
    · rfl
  have hdistances : d.distanceOctets.length =
      if d.hasDistances then d.distances.length else 0 := by
    unfold distanceOctets
    split
    · exact length_writeDistances d.distances
    · rfl
  have hstructure : (if d.hasStructure && first then d.structureOctets else []).length =
      if d.hasStructure && first then d.structureLength else 0 := by
    split
    · exact d.length_structureOctets
    · rfl
  simp only [header, headerLength, pictureIdOctets, List.length_append, List.length_cons,
    List.length_nil, hlayers, hdistances, hstructure]

/-- A structure makes a descriptor longer. -/
theorem headerLength_mono (d : PayloadDescriptor) (withStructure : Bool) :
    d.headerLength false ≤ d.headerLength withStructure := by
  cases withStructure <;> simp [headerLength]

def marked (weight : Nat) (f : Octets) : Bool := f.head?.any (hasFlag · weight)

structure Fragment (d : PayloadDescriptor) (mtu : Nat) (first last : Bool) (part f : Octets) :
    Prop where
  octets : f = d.header first last ++ part
  header : (d.header first last).length = d.headerLength (d.hasStructure && first)
  part : part ≠ []
  fits : f.length ≤ mtu
  full : last = false → f.length = mtu
  tellsFirst : marked 8 f = first
  tellsLast : marked 4 f = last
  tellsStructure : marked 2 f = (d.hasStructure && first)

/-- The fragments of a frame and the parts that they carry, the last fragment alone told to be the
last one, and none but the one at the beginning told to be the first. -/
inductive Cut (d : PayloadDescriptor) (mtu : Nat) : Bool → List Octets → List Octets → Prop
  | last {first : Bool} {part f : Octets} (fragment : d.Fragment mtu first true part f) :
      Cut d mtu first [part] [f]
  | more {first : Bool} {part f : Octets} {parts cut : List Octets}
      (fragment : d.Fragment mtu first false part f) (rest : Cut d mtu false parts cut) :
      Cut d mtu first (part :: parts) (f :: cut)

theorem Fragment.of_part (hpart : part ≠ [])
    (hfits : d.headerLength (d.hasStructure && first) + part.length ≤ mtu)
    (hfull : last = false → d.headerLength (d.hasStructure && first) + part.length = mtu) :
    d.Fragment mtu first last part (d.header first last ++ part) := by
  have hheader := d.length_header first last
  have hlength : (d.header first last ++ part).length =
      d.headerLength (d.hasStructure && first) + part.length := by
    rw [List.length_append, hheader]
  obtain ⟨-, -, -, hfirst, hlast, hstructure, -⟩ :=
    hasFlag_sum d.fromEarlier d.hasLayerInfo d.flexible first last (d.hasStructure && first)
      d.notForAbove
  exact ⟨rfl, hheader, hpart, hlength ▸ hfits, hlength ▸ hfull, hfirst, hlast, hstructure⟩

/-- What has room is one fragment, and else as much as has room is in front of the fragments of
what is left. -/
theorem Cut.of_room (hpart : rest ≠ []) (hroom : 0 < room)
    (hmtu : d.headerLength (d.hasStructure && first) + room = mtu)
    (hlast : rest.length ≤ room → cut = [])
    (hmore : room < rest.length → ∃ parts, parts.flatten = rest.drop room ∧
      d.Cut mtu false parts cut) :
    ∃ parts, parts.flatten = rest ∧ d.Cut mtu first parts
      ((d.header first (rest.length ≤ room) ++ rest.take room) :: cut) := by
  by_cases hall : rest.length ≤ room
  · rw [hlast hall, List.take_of_length_le hall]
    simp only [hall, decide_true]
    exact ⟨[rest], List.flatten_singleton, .last (.of_part hpart (by omega) nofun)⟩
  · have hless : room < rest.length := Nat.not_le.mp hall
    obtain ⟨parts, hparts, hcut⟩ := hmore hless
    have htaken : (rest.take room).length = room := List.length_take_of_le (Nat.le_of_lt hless)
    have htake : rest.take room ≠ [] := List.length_pos_iff.mp (htaken.symm ▸ hroom)
    simp only [hall, decide_false]
    refine ⟨rest.take room :: parts, ?_, .more (.of_part htake (by omega) (by omega)) hcut⟩
    rw [List.flatten_cons, hparts, List.take_append_drop]

theorem fragments_nil (d : PayloadDescriptor) (room : Nat) : d.fragments room [] = [] := by
  simp [fragments]

theorem Cut.fragments (hpart : rest ≠ []) (hroom : 0 < room)
    (hmtu : d.headerLength false + room = mtu) :
    ∃ parts, parts.flatten = rest ∧ d.Cut mtu false parts (d.fragments room rest) := by
  fun_induction PayloadDescriptor.fragments d room rest with
  | case1 rest hnone => exact absurd (hnone.resolve_left (Nat.ne_of_gt hroom)) hpart
  | case2 rest hsome ih =>
    refine Cut.of_room hpart hroom (by simpa using hmtu) (fun hall => ?_) fun hless => ?_
    · rw [List.drop_of_length_le hall, fragments_nil]
    · exact ih (by simpa using hless)

theorem Fragment.length_pos (h : d.Fragment mtu first last part f) : 0 < f.length := by
  rw [h.octets, List.length_append]
  exact Nat.add_pos_right _ (List.length_pos_iff.mpr h.part)

theorem Cut.length_le (h : d.Cut mtu first parts cut) :
    ∀ f ∈ cut, 0 < f.length ∧ f.length ≤ mtu := by
  induction h with
  | last fragment => simpa using And.intro fragment.length_pos fragment.fits
  | more fragment _ ih =>
    exact List.forall_mem_cons.mpr ⟨⟨fragment.length_pos, fragment.fits⟩, ih⟩

structure Tellable (d : PayloadDescriptor) : Prop where
  distances : d.distances.length ≤ maxDistances
  layers : d.spatialLayers ≤ PerLayer.count

namespace Tellable

variable (hd : d.Tellable)
include hd

theorem headerLength_le (withStructure : Bool) : d.headerLength withStructure ≤ 21 := by
  obtain ⟨hdistances, hlayers⟩ := hd
  simp only [maxDistances, PerLayer.count] at hdistances hlayers
  simp only [headerLength, structureLength]
  repeat' split
  all_goals omega

theorem payloads_none (h : payload = [] ∨ mtu ≤ d.headerLength d.hasStructure) :
    d.payloads mtu payload = .ok [] := by
  unfold payloads
  simp only [Nat.not_lt.mpr hd.distances, if_false]
  by_cases hnone : (payload.isEmpty || decide (mtu = 0)) = true
  · rw [if_pos hnone]
  · have hroom : mtu - d.headerLength d.hasStructure = 0 := by
      refine Nat.sub_eq_zero_of_le (h.resolve_left fun hempty => hnone ?_)
      simp [hempty]
    rw [if_neg hnone, if_pos hroom]

theorem payloads_some (hsome : payload ≠ []) (hroom : d.headerLength d.hasStructure < mtu) :
    d.payloads mtu payload =
      if maxPayload < mtu then .error (.payloadLimit mtu)
      else .ok ((d.header true (payload.length ≤ mtu - d.headerLength d.hasStructure) ++
          payload.take (mtu - d.headerLength d.hasStructure)) ::
        d.fragments (mtu - d.headerLength false)
          (payload.drop (mtu - d.headerLength d.hasStructure))) := by
  have hpos : mtu ≠ 0 := Nat.ne_of_gt (Nat.zero_lt_of_lt hroom)
  simp [payloads, hsome, hpos, Nat.not_lt.mpr hd.distances, Nat.not_lt.mpr hd.layers,
    Nat.sub_eq_zero_iff_le, Nat.not_le.mpr hroom]

/-- Where there is room for some of it, a frame is cut. -/
theorem payloads_cut (hsome : payload ≠ []) (hroom : d.headerLength d.hasStructure < mtu)
    (hmtu : mtu ≤ maxPayload) :
    ∃ cut parts, d.payloads mtu payload = .ok cut ∧ parts.flatten = payload ∧
      d.Cut mtu true parts cut := by
  have hlater := d.headerLength_mono d.hasStructure
  have hcut := hd.payloads_some hsome hroom
  rw [if_neg (Nat.not_lt.mpr hmtu)] at hcut
  generalize hlimit : mtu - d.headerLength d.hasStructure = room at hcut
  have hfull : d.headerLength (d.hasStructure && true) + room = mtu := by
    rw [Bool.and_true]
    omega
  have hlast (hall : payload.length ≤ room) :
      d.fragments (mtu - d.headerLength false) (payload.drop room) = [] := by
    rw [List.drop_of_length_le hall, fragments_nil]
  have hmore (hless : room < payload.length) : ∃ parts, parts.flatten = payload.drop room ∧
      d.Cut mtu false parts (d.fragments (mtu - d.headerLength false) (payload.drop room)) :=
    Cut.fragments (by simpa using hless) (by omega) (by omega)
  obtain ⟨parts, hparts, hall⟩ := Cut.of_room hsome (by omega) hfull hlast hmore
  exact ⟨_, parts, hcut, hparts, hall⟩

/-- Cutting fails only for a limit beyond what fits in memory, and then for every frame that has
octets at all. -/
theorem payloads_ok_iff :
    (∃ cut, d.payloads mtu payload = .ok cut) ↔ payload = [] ∨ mtu ≤ maxPayload := by
  by_cases hnone : payload = [] ∨ mtu ≤ d.headerLength d.hasStructure
  · have hsmall := hd.headerLength_le d.hasStructure
    have hmtu : payload = [] ∨ mtu ≤ maxPayload :=
      hnone.imp_right fun hle => Nat.le_trans (Nat.le_trans hle hsmall) (by decide)
    simp [hd.payloads_none hnone, hmtu]
  · obtain ⟨hsome, hroom⟩ := not_or.mp hnone
    by_cases hmtu : maxPayload < mtu
    · simp [hd.payloads_some hsome (Nat.not_le.mp hroom), hmtu, hsome, Nat.not_le.mpr hmtu]
    · simp [hd.payloads_some hsome (Nat.not_le.mp hroom), hmtu, Nat.not_lt.mp hmtu]

omit hd

/-- Which frames are cut and into what. A limit that fits in memory is never refused, and one beyond
it always is, unless the frame has no octets. There is no fragment exactly if there is nothing to send
or no room for it behind the first descriptor, and else the parts behind the descriptors are the
frame. -/
theorem payloads_exact (hd : d.Tellable) (mtu : Nat) (payload : Octets) :
    ((∃ cut, d.payloads mtu payload = .ok cut) ↔ payload = [] ∨ mtu ≤ maxPayload) ∧
      ∀ cut, d.payloads mtu payload = .ok cut →
        (cut = [] ↔ payload = [] ∨ mtu ≤ d.headerLength d.hasStructure) ∧
          (cut ≠ [] → ∃ parts, parts.flatten = payload ∧ d.Cut mtu true parts cut) := by
  refine ⟨hd.payloads_ok_iff, fun cut hcut => ?_⟩
  by_cases hnone : payload = [] ∨ mtu ≤ d.headerLength d.hasStructure
  · cases (hd.payloads_none hnone).symm.trans hcut
    exact ⟨iff_of_true rfl hnone, fun hne => absurd rfl hne⟩
  · obtain ⟨hsome, hroom⟩ := not_or.mp hnone
    have hmtu : mtu ≤ maxPayload := (hd.payloads_ok_iff.mp ⟨cut, hcut⟩).resolve_left hsome
    obtain ⟨_, parts, hfound, hparts, hall⟩ := hd.payloads_cut hsome (Nat.not_le.mp hroom) hmtu
    cases hfound.symm.trans hcut
    have hne : cut ≠ [] := by
      rintro rfl
      cases hall
    exact ⟨iff_of_false hne hnone, fun _ => ⟨parts, hparts, hall⟩⟩

/-- The structure leaves less room in the first fragment than in the second. -/
theorem payloads_exact_structured :
    let d : PayloadDescriptor := {
      flexible := true, spatial := some 0, hasStructure := true, hasResolutions := true
      spatialLayers := 2, widths := ⟨640, 1280, 0⟩, heights := ⟨360, 720, 0⟩ }
    d.Tellable ∧ d.payloads 14 [1, 2, 3, 4] =
        .ok [[186, 128, 0, 0, 48, 2, 128, 1, 104, 5, 0, 2, 208, 1], [180, 128, 0, 0, 2, 3, 4]] ∧
      ∃ parts, parts.flatten = [1, 2, 3, 4] ∧ d.Cut 14 true parts
        [[186, 128, 0, 0, 48, 2, 128, 1, 104, 5, 0, 2, 208, 1], [180, 128, 0, 0, 2, 3, 4]] := by
  intro d
  have hd : d.Tellable := ⟨by decide, by decide⟩
  have hcut : d.payloads 14 [1, 2, 3, 4] =
      .ok [[186, 128, 0, 0, 48, 2, 128, 1, 104, 5, 0, 2, 208, 1], [180, 128, 0, 0, 2, 3, 4]] := by
    decide +kernel
  obtain ⟨-, hall⟩ := payloads_exact hd 14 [1, 2, 3, 4]
  exact ⟨hd, hcut, (hall _ hcut).2 (by decide)⟩

end Tellable

/-- One octet is refused under a limit that is far more than it takes. -/
theorem unlimited_refused :
    let d : PayloadDescriptor := {
      pictureId := 4660, flexible := true, firstInPicture := true, endOfPicture := true }
    d.Tellable ∧ d.payloads maxPayload [1] = .ok [[156, 146, 52, 1]] ∧
      d.payloads (maxPayload + 1) [1] = .error (.payloadLimit (maxPayload + 1)) :=
  ⟨⟨by decide, by decide⟩, by decide +kernel, by decide +kernel⟩

end LayeredRtp.PayloadDescriptor
