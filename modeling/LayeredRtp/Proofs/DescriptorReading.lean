import LayeredRtp.PayloadDescriptor

/-! What a receiver reads off a payload descriptor. Each part of it tells by itself where it ends,
and the first octet tells which parts there are, so that whatever follows a descriptor is not taken
for a part of it, and two descriptors that tell different things are never the same octets. -/
namespace LayeredRtp

def hasFlag (o : UInt8) (weight : Nat) : Bool := o.toNat / weight % 2 == 1

namespace PayloadDescriptor

structure ToldLayer where
  temporal : Nat
  spatial : Nat
  upSwitch : Bool
  fromBelow : Bool
  baseIndex : Option Nat
deriving DecidableEq, Repr

structure ToldStructure where
  layers : Nat
  sizes : Option (List (Nat × Nat))
deriving DecidableEq, Repr

structure Told where
  first : Bool
  last : Bool
  pictureId : Nat
  flexible : Bool
  fromEarlier : Bool
  notForAbove : Bool
  layer : Option ToldLayer
  distances : Option (List Nat)
  structured : Option ToldStructure
deriving DecidableEq, Repr

def toldLayer (d : PayloadDescriptor) : ToldLayer where
  temporal := d.temporal.getD 0
  spatial := d.spatial.getD 0
  upSwitch := d.upSwitch
  fromBelow := d.fromBelow
  baseIndex := if d.flexible then none else some d.baseIndex

def toldStructure (d : PayloadDescriptor) : ToldStructure where
  layers := d.spatialLayers
  sizes :=
    if d.hasResolutions then
      some ((List.range d.spatialLayers).map fun sid => (d.widths.get sid, d.heights.get sid))
    else none

def told (d : PayloadDescriptor) (first last : Bool) : Told where
  first := first
  last := last
  pictureId := d.pictureId
  flexible := d.flexible
  fromEarlier := d.fromEarlier
  notForAbove := d.notForAbove
  layer := if d.hasLayerInfo then some d.toldLayer else none
  distances := if d.hasDistances then some d.distances else none
  structured := if d.hasStructure && first then some d.toldStructure else none

structure Encodable (d : PayloadDescriptor) : Prop where
  pictureId : d.pictureId < 0x8000
  temporal : d.temporal.getD 0 ≤ 7
  spatial : d.spatial.getD 0 ≤ 7
  baseIndex : d.baseIndex < 0x100
  distances : d.hasDistances = true →
    1 ≤ d.distances.length ∧ d.distances.length ≤ 3 ∧ ∀ n ∈ d.distances, 1 ≤ n ∧ n ≤ 127
  layers : 1 ≤ d.spatialLayers ∧ d.spatialLayers ≤ 3
  sizes : ∀ sid, d.widths.get sid < 0x10000 ∧ d.heights.get sid < 0x10000

def readLayer : Bool → Octets → Option (ToldLayer × Octets)
  | true, o :: rest =>
    some (⟨o.toNat / 32, o.toNat / 2 % 8, hasFlag o 16, hasFlag o 1, none⟩, rest)
  | false, o :: index :: rest =>
    some (⟨o.toNat / 32, o.toNat / 2 % 8, hasFlag o 16, hasFlag o 1, some index.toNat⟩, rest)
  | _, _ => none

def readDistances : Octets → Option (List Nat × Octets)
  | [] => none
  | o :: rest =>
    if hasFlag o 1 then (readDistances rest).map fun (more, rest) => (o.toNat / 2 :: more, rest)
    else some ([o.toNat / 2], rest)

def readSizes : Nat → Octets → Option (List (Nat × Nat) × Octets)
  | 0, rest => some ([], rest)
  | n + 1, w :: w' :: h :: h' :: rest =>
    (readSizes n rest).map fun (sizes, rest) =>
      (((Octets.word16 w w').toNat, (Octets.word16 h h').toNat) :: sizes, rest)
  | _ + 1, _ => none

def readStructure : Octets → Option (ToldStructure × Octets)
  | [] => none
  | o :: rest =>
    let layers := o.toNat / 32 + 1
    if hasFlag o 16 then
      (readSizes layers rest).map fun (sizes, rest) => (⟨layers, some sizes⟩, rest)
    else some (⟨layers, none⟩, rest)

def readIf {α : Type} (present : Bool) (read : Octets → Option (α × Octets)) (s : Octets) :
    Option (Option α × Octets) :=
  if present then (read s).map fun (a, rest) => (some a, rest) else some (none, s)

def read? : Octets → Option (Told × Octets)
  | flags :: high :: low :: rest => do
    let (layer, rest) ← readIf (hasFlag flags 32) (readLayer (hasFlag flags 16)) rest
    let (distances, rest) ← readIf (hasFlag flags 16 && hasFlag flags 64) readDistances rest
    let (structured, rest) ← readIf (hasFlag flags 2) readStructure rest
    let told : Told := {
      first := hasFlag flags 8
      last := hasFlag flags 4
      pictureId := high.toNat % 128 * 256 + low.toNat
      flexible := hasFlag flags 16
      fromEarlier := hasFlag flags 64
      notForAbove := hasFlag flags 1
      layer, distances, structured }
    return (told, rest)
  | _ => none

/-- Seven flags below the highest are read as they were put together. -/
theorem hasFlag_sum (a b c d e f g : Bool) :
    let o := UInt8.ofNat
      (128 + bit a 64 + bit b 32 + bit c 16 + bit d 8 + bit e 4 + bit f 2 + bit g 1)
    hasFlag o 64 = a ∧ hasFlag o 32 = b ∧ hasFlag o 16 = c ∧ hasFlag o 8 = d ∧ hasFlag o 4 = e ∧
      hasFlag o 2 = f ∧ hasFlag o 1 = g := by
  revert a b c d e f g
  decide

variable {d d₁ d₂ : PayloadDescriptor}

theorem readPictureId (h : d.pictureId < 0x8000) :
    (UInt8.ofNat (128 + d.pictureId / 256 % 128)).toNat % 128 * 256 +
      (UInt8.ofNat d.pictureId).toNat = d.pictureId := by
  simp only [UInt8.toNat_ofNat']
  omega

/-- A part that is left out takes no octets. -/
theorem readIf_write {α : Type} {present : Bool} {read : Octets → Option (α × Octets)}
    {octets rest : Octets} {a : α} (hthere : present = true → read (octets ++ rest) = some (a, rest))
    (habsent : present = false → octets = []) :
    readIf present read (octets ++ rest) = some (if present then some a else none, rest) := by
  cases present with
  | false => simp [readIf, habsent rfl]
  | true => simp [readIf, hthere rfl]

/-- The two ids stand apart in an octet, with a flag behind each. -/
theorem readIds {temporal spatial : Nat} (htemporal : temporal ≤ 7) (hspatial : spatial ≤ 7)
    (up below : Bool) :
    let o := UInt8.ofNat (temporal % 8 * 32 + bit up 16 + spatial % 8 * 2 + bit below 1)
    o.toNat / 32 = temporal ∧ o.toNat / 2 % 8 = spatial ∧ hasFlag o 16 = up ∧
      hasFlag o 1 = below := by
  cases up <;> cases below <;>
    simp only [hasFlag, bit, UInt8.toNat_ofNat', beq_eq_false_iff_ne, beq_iff_eq, if_true,
      Bool.false_eq_true, if_false] <;> omega

theorem readLayer_write (hd : d.Encodable) (hinfo : d.hasLayerInfo = true) (rest : Octets) :
    readLayer d.flexible (d.layerOctets ++ rest) = some (d.toldLayer, rest) := by
  obtain ⟨htemporal, hspatial, hup, hbelow⟩ :=
    readIds hd.temporal hd.spatial d.upSwitch d.fromBelow
  unfold layerOctets toldLayer
  generalize UInt8.ofNat (_ + _ : Nat) = o at *
  cases hflexible : d.flexible with
  | true => simp [hinfo, readLayer, htemporal, hspatial, hup, hbelow]
  | false =>
    have hindex : d.baseIndex % 256 = d.baseIndex := Nat.mod_eq_of_lt hd.baseIndex
    simp [hinfo, readLayer, htemporal, hspatial, hup, hbelow, hindex]

theorem readDistances_write {distances : List Nat} (hsome : distances ≠ [])
    (h : ∀ n ∈ distances, n ≤ 127) (rest : Octets) :
    readDistances (writeDistances distances ++ rest) = some (distances, rest) := by
  fun_induction writeDistances distances with
  | case1 => exact absurd rfl hsome
  | case2 n =>
    have hn : n ≤ 127 := h n List.mem_cons_self
    have hread : hasFlag (UInt8.ofNat (2 * n)) 1 = false ∧
        (UInt8.ofNat (2 * n)).toNat / 2 = n := by
      simp only [hasFlag, UInt8.toNat_ofNat', beq_eq_false_iff_ne]
      omega
    simp only [List.cons_append, List.nil_append, readDistances, hread, Bool.false_eq_true, if_false]
  | case3 n more hmore ih =>
    have hn : n ≤ 127 := h n List.mem_cons_self
    have hread : hasFlag (UInt8.ofNat (2 * n + 1)) 1 = true ∧
        (UInt8.ofNat (2 * n + 1)).toNat / 2 = n := by
      simp only [hasFlag, UInt8.toNat_ofNat', beq_iff_eq]
      omega
    have hrest := ih hmore fun m hm => h m (List.mem_cons_of_mem n hm)
    simp only [List.cons_append, readDistances, hread, hrest, if_true, Option.map_some]

theorem readSizes_write (hsizes : ∀ sid, d.widths.get sid < 0x10000 ∧ d.heights.get sid < 0x10000)
    (layers : List Nat) (rest : Octets) :
    readSizes layers.length ((layers.flatMap fun sid =>
        Octets.ofWord16 (UInt16.ofNat (d.widths.get sid)) ++
          Octets.ofWord16 (UInt16.ofNat (d.heights.get sid))) ++ rest) =
      some (layers.map fun sid => (d.widths.get sid, d.heights.get sid), rest) := by
  have hread {n : Nat} (hn : n < 0x10000) : (UInt16.ofNat n).toNat = n := by
    rw [UInt16.toNat_ofNat']
    exact Nat.mod_eq_of_lt hn
  induction layers with
  | nil => rfl
  | cons sid layers ih =>
    obtain ⟨hwidth, hheight⟩ := hsizes sid
    simp only [Octets.ofWord16, List.cons_append, List.nil_append] at ih
    simp only [Octets.ofWord16, List.flatMap_cons, List.length_cons, List.cons_append,
      List.nil_append, readSizes, Octets.word16_ofWord16, ih, Option.map_some, List.map_cons]
    rw [hread hwidth, hread hheight]

/-- The number of layers stands in front of the flag for their sizes. -/
theorem readCount {layers : Nat} (hsome : 1 ≤ layers) (hfew : layers ≤ 3) (sizes : Bool) :
    let o := UInt8.ofNat ((layers - 1) % 8 * 32 + bit sizes 16)
    o.toNat / 32 + 1 = layers ∧ hasFlag o 16 = sizes := by
  cases sizes <;>
    simp only [hasFlag, bit, UInt8.toNat_ofNat', beq_eq_false_iff_ne, beq_iff_eq, if_true,
      Bool.false_eq_true, if_false] <;> omega

theorem readStructure_write (hd : d.Encodable) (rest : Octets) :
    readStructure (d.structureOctets ++ rest) = some (d.toldStructure, rest) := by
  obtain ⟨hlayers, hflag⟩ := readCount hd.layers.1 hd.layers.2 d.hasResolutions
  unfold structureOctets toldStructure
  generalize UInt8.ofNat (_ + _ : Nat) = o at *
  cases hresolutions : d.hasResolutions with
  | false => simp [readStructure, hlayers, hflag, hresolutions]
  | true =>
    have hsizes := readSizes_write hd.sizes (List.range d.spatialLayers) rest
    rw [List.length_range] at hsizes
    simp [readStructure, hlayers, hflag, hresolutions, hsizes]

theorem readDistances_distanceOctets (hd : d.Encodable) (h : d.hasDistances = true)
    (rest : Octets) : readDistances (d.distanceOctets ++ rest) = some (d.distances, rest) := by
  obtain ⟨hsome, -, hsmall⟩ := hd.distances h
  rw [distanceOctets, if_pos h]
  exact readDistances_write (List.length_pos_iff.mp hsome) (fun n hn => (hsmall n hn).2) rest

/-- A descriptor is read as what it tells, whatever follows it. -/
theorem read?_header (hd : d.Encodable) (first last : Bool) (rest : Octets) :
    read? (d.header first last ++ rest) = some (d.told first last, rest) := by
  obtain ⟨hearlier, hinfo, hflexible, hfirst, hlast, hstructure, habove⟩ :=
    hasFlag_sum d.fromEarlier d.hasLayerInfo d.flexible first last (d.hasStructure && first)
      d.notForAbove
  have hlayer (rest : Octets) : readIf d.hasLayerInfo (readLayer d.flexible)
      (d.layerOctets ++ rest) = some (if d.hasLayerInfo then some d.toldLayer else none, rest) :=
    readIf_write (fun h => readLayer_write hd h rest) fun h => by simp [layerOctets, h]
  have hdistances (rest : Octets) : readIf d.hasDistances readDistances
      (d.distanceOctets ++ rest) = some (if d.hasDistances then some d.distances else none, rest) :=
    readIf_write (fun h => readDistances_distanceOctets hd h rest)
      fun h => by simp [distanceOctets, h]
  have hstructured : readIf (d.hasStructure && first) readStructure
      ((if d.hasStructure && first then d.structureOctets else []) ++ rest) =
        some (if d.hasStructure && first then some d.toldStructure else none, rest) :=
    readIf_write (fun h => by simpa [h] using readStructure_write hd rest) fun h => by simp [h]
  unfold hasDistances at hdistances
  simp only [header, flags, pictureIdOctets, List.cons_append, List.nil_append, List.append_assoc,
    read?, hearlier, hinfo, hflexible, hfirst, hlast, hstructure, habove, hlayer, hdistances,
    hstructured, readPictureId hd.pictureId, Option.bind_eq_bind, Option.bind_some]
  rfl

/-- Descriptors are told apart from each other and from what follows them: where two of them and
what follows are the same octets, so are the two descriptors as far as they are told, and what
follows. -/
theorem header_unique (h₁ : d₁.Encodable) (h₂ : d₂.Encodable) {first₁ last₁ first₂ last₂ : Bool}
    {rest₁ rest₂ : Octets}
    (h : d₁.header first₁ last₁ ++ rest₁ = d₂.header first₂ last₂ ++ rest₂) :
    rest₁ = rest₂ ∧ first₁ = first₂ ∧ last₁ = last₂ ∧
      d₁.told first₁ last₁ = d₂.told first₂ last₂ := by
  have hread := congrArg read? h
  rw [read?_header h₁, read?_header h₂] at hread
  obtain ⟨htold, hrest⟩ := Prod.mk.inj (Option.some.inj hread)
  exact ⟨hrest, congrArg Told.first htold, congrArg Told.last htold, htold⟩

/-- What differs here is not told: an id that is left out, the count of base pictures in flexible mode
and the structure on a later fragment. -/
theorem header_unique_later :
    let d₁ : PayloadDescriptor := {
      pictureId := 300, flexible := true, temporal := some 0, spatial := some 1, fromEarlier := true
      distances := [1, 4], baseIndex := 7, hasStructure := true, spatialLayers := 2 }
    let d₂ : PayloadDescriptor := {
      pictureId := 300, flexible := true, spatial := some 1, fromEarlier := true
      distances := [1, 4], baseIndex := 9, spatialLayers := 1 }
    d₁.Encodable ∧ d₂.Encodable ∧
      d₁.header false true ++ [5, 6] = d₂.header false true ++ [5, 6] ∧
      d₁.told false true = d₂.told false true := by
  intro d₁ d₂
  have h₁ : d₁.Encodable := ⟨by decide, by decide, by decide, by decide, fun _ => by decide,
    by decide, fun sid => by simp [d₁]⟩
  have h₂ : d₂.Encodable := ⟨by decide, by decide, by decide, by decide, fun _ => by decide,
    by decide, fun sid => by simp [d₂]⟩
  have hsame : d₁.header false true ++ [5, 6] = d₂.header false true ++ [5, 6] := by decide
  exact ⟨h₁, h₂, hsame, (header_unique h₁ h₂ hsame).2.2.2⟩

end PayloadDescriptor
end LayeredRtp
