import LayeredRtp.Packet

/-! Packets as octets. Reading takes the fixed header, the contributing sources, the
extension block and the padding in turn; elements whose id is not registered are left out. -/
namespace LayeredRtp.Packet

def flag (on : Bool) (weight : Nat) : Nat := if on then weight else 0

def firstOctet (p : Packet) : UInt8 :=
  UInt8.ofNat (128 + flag (0 < p.padding) 32 + flag (!p.elements.isEmpty) 16 + p.sources.length)

def secondOctet (p : Packet) : UInt8 :=
  UInt8.ofNat (flag p.marker 128 + p.payloadType.toNat % 128)

def writeElement (form : ElementForm) (e : Element) : Octets :=
  form.head e.id e.value.length ++ e.value

def writeBlock (elements : List Element) : Octets :=
  if elements.isEmpty then [] else
    let shape := Element.shape elements
    let content := elements.flatMap (writeElement shape.form)
    shape.form.mark ++ Octets.ofWord16 (UInt16.ofNat ((shape.size - 4) / 4)) ++ content ++
      List.replicate (shape.size - 4 - content.length) 0

def writePadding (n : Nat) : Octets :=
  if n = 0 then [] else List.replicate (n - 1) 0 ++ [UInt8.ofNat n]

def toOctets (p : Packet) : Octets :=
  [p.firstOctet, p.secondOctet] ++ Octets.ofWord16 p.sequenceNumber ++
    Octets.ofWord32 p.timestamp ++ Octets.ofWord32 p.ssrc ++
    p.sources.flatMap Octets.ofWord32 ++ writeBlock p.elements ++ p.payload ++
    writePadding p.padding

inductive Head where
  /-- The reserved id 15 of the one-byte form ends the block early. -/
  | last
  | cut
  | element (id : UInt8) (length : Nat) (rest : Octets)

def readHead (form : ElementForm) (b : UInt8) (rest : Octets) : Head :=
  match form with
  | .oneByte =>
    if b.toNat / 16 = 15 then .last
    else .element (UInt8.ofNat (b.toNat / 16)) (b.toNat % 16 + 1) rest
  | .twoByte =>
    match rest with
    | [] => .cut
    | n :: rest => .element b n.toNat rest

theorem length_of_readHead {form : ElementForm} {b : UInt8} {s rest : Octets} {id : UInt8}
    {n : Nat} (h : readHead form b s = .element id n rest) : rest.length ≤ s.length := by
  unfold readHead at h
  split at h
  · split at h <;> simp_all
  · split at h <;> simp_all

/-- Reads elements to the end of the block. Zeros between elements are skipped, and an
element that passes the end is an error. -/
def readElements (form : ElementForm) (m : ExtensionIds) (s : Octets) :
    Option (List Element) :=
  match s with
  | [] => some []
  | b :: rest =>
    if b = 0 then readElements form m rest
    else match _ : readHead form b rest with
      | .last => some []
      | .cut => none
      | .element id length body =>
        if body.length < length then none
        else do
          let more ← readElements form m (body.drop length)
          match m.extension? id with
          | some ext => return ⟨id, ext, body.take length⟩ :: more
          | none => return more
termination_by s.length
decreasing_by
  · simp
  · rename_i h _
    have := length_of_readHead h
    simp only [List.length_drop, List.length_cons]
    omega

def readBlock (m : ExtensionIds) : Octets → Option (List Element × Octets)
  | a :: b :: c :: d :: rest => do
    let form ← ElementForm.ofMark? a b
    let (block, rest) ← Octets.splitAt? ((Octets.word16 c d).toNat * 4) rest
    return (← readElements form m block, rest)
  | _ => none

def readPadding (body : Octets) : Option (Octets × Nat) :=
  match body.getLast? with
  | none => none
  | some count =>
    if count = 0 ∨ body.length < count.toNat then none
    else some (body.take (body.length - count.toNat), count.toNat)

def readBody (m : ExtensionIds) (flags : UInt8) (s : Octets) :
    Option (List Ssrc × List Element × Octets × Nat) := do
  let (sources, s) ← Octets.takeWords32 (flags.toNat % 16) s
  let (elements, s) ← if flags.toNat / 16 % 2 = 1 then readBlock m s else some ([], s)
  let (payload, padding) ← if flags.toNat / 32 % 2 = 1 then readPadding s else some (s, 0)
  return (sources, elements, payload, padding)

def ofOctets? (m : ExtensionIds) (s : Octets) : Option Packet :=
  match s with
  | flags :: kind :: s0 :: s1 :: t0 :: t1 :: t2 :: t3 :: r0 :: r1 :: r2 :: r3 :: body =>
    if flags.toNat / 64 = 2 then do
      let (sources, elements, payload, padding) ← readBody m flags body
      return {
        extensions := m
        capacity := s.length
        marker := kind.toNat / 128 = 1
        payloadType := UInt8.ofNat (kind.toNat % 128)
        sequenceNumber := Octets.word16 s0 s1
        timestamp := Octets.word32 t0 t1 t2 t3
        ssrc := Octets.word32 r0 r1 r2 r3
        sources, elements, payload, padding }
    else none
  | _ => none

end LayeredRtp.Packet
