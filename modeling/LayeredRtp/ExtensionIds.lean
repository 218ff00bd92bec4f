import LayeredRtp.HeaderExtension
import LayeredRtp.Octets

/-! The extension block of a packet header and the negotiated ids in it. A block has one of
two forms, which all its elements share. No id stands for two extensions and no extension
has two ids. -/
namespace LayeredRtp

inductive ElementForm where
  | oneByte
  | twoByte
deriving DecidableEq, Repr

namespace ElementForm

def mark : ElementForm → Octets
  | oneByte => [0xBE, 0xDE]
  | twoByte => [0x10, 0x00]

def ofMark? (a b : UInt8) : Option ElementForm :=
  if a = 0xBE ∧ b = 0xDE then some oneByte
  else if a = 0x10 ∧ b.toNat < 16 then some twoByte
  else none

def headLength : ElementForm → Nat
  | oneByte => 1
  | twoByte => 2

def head (form : ElementForm) (id : UInt8) (length : Nat) : Octets :=
  match form with
  | oneByte => [UInt8.ofNat (id.toNat * 16 + (length - 1))]
  | twoByte => [id, UInt8.ofNat length]

theorem length_head (form : ElementForm) (id : UInt8) (length : Nat) :
    (form.head id length).length = form.headLength := by cases form <;> rfl

end ElementForm

abbrev BlockShape := List (UInt8 × Nat)

namespace BlockShape

/-- One octet holds ids up to 14 and lengths from 1 to 16. -/
def needsTwoByte (id : UInt8) (length : Nat) : Bool :=
  id.toNat > 14 || length == 0 || length > 16

def form (shape : BlockShape) : ElementForm :=
  if shape.any fun (id, n) => needsTwoByte id n then .twoByte else .oneByte

def contentSize (shape : BlockShape) : Nat :=
  shape.foldr (fun x size => (form shape).headLength + x.2 + size) 0

def wordAligned (n : Nat) : Nat := (n + 3) / 4 * 4

/-- No block without elements; else four octets in front of the elements, and zeros up
to the next word. -/
def size (shape : BlockShape) : Nat :=
  if shape.isEmpty then 0 else wordAligned (4 + contentSize shape)

end BlockShape

structure ExtensionIds where
  bindings : List (UInt8 × HeaderExtension) := []
  mixed : Bool := false
deriving DecidableEq, Repr, Inhabited

namespace ExtensionIds

def empty : ExtensionIds := {}

def maxId (m : ExtensionIds) : Nat := if m.mixed then 255 else 14

def extension? (m : ExtensionIds) (id : UInt8) : Option HeaderExtension :=
  (m.bindings.find? fun b => b.1 == id).map (·.2)

def id? (m : ExtensionIds) (e : HeaderExtension) : Option UInt8 :=
  (m.bindings.find? fun b => b.2 == e).map (·.1)

def contains (m : ExtensionIds) (e : HeaderExtension) : Bool := (m.id? e).isSome

def setMixed (m : ExtensionIds) (on : Bool) : ExtensionIds := { m with mixed := on }

def place (id : UInt8) (e : HeaderExtension) :
    List (UInt8 × HeaderExtension) → List (UInt8 × HeaderExtension)
  | [] => [(id, e)]
  | b :: rest => if id < b.1 then (id, e) :: b :: rest else b :: place id e rest

/-- Refused when the id is out of range or taken, or the extension has another id. -/
def insert? (m : ExtensionIds) (id : UInt8) (e : HeaderExtension) : Option ExtensionIds :=
  if id.toNat < 1 ∨ m.maxId < id.toNat then none
  else match m.extension? id with
    | some other => if other = e then some m else none
    | none =>
      if m.contains e then none else some { m with bindings := place id e m.bindings }

def insertUri? (m : ExtensionIds) (id : UInt8) (uri : String) : Option ExtensionIds := do
  m.insert? id (← HeaderExtension.ofUri? uri)

def eraseUri (m : ExtensionIds) (uri : String) : ExtensionIds :=
  match HeaderExtension.ofUri? uri with
  | none => m
  | some e => { m with bindings := m.bindings.filter fun b => b.2 != e }

def standard : ExtensionIds where
  bindings :=
    [(1, .audioLevel), (2, .absoluteSendTime), (3, .transportSequenceNumber), (4, .rtpMid),
     (10, .rtpStreamId), (11, .repairedRtpStreamId), (13, .videoOrientation)]

def fullShape (m : ExtensionIds) (sizes : HeaderExtension.Sizes) : BlockShape :=
  sizes.filterMap fun (e, n) => (m.id? e).map (·, n)

/-- The largest extension block of packets that carry extensions from `sizes`. -/
def worstBlockSize (m : ExtensionIds) (sizes : HeaderExtension.Sizes) : Nat :=
  let shape := m.fullShape sizes
  if shape.all fun x => x.2 = 0 then 0 else shape.size

def text (m : ExtensionIds) : String :=
  "Extensions(" ++
    ", ".intercalate (m.bindings.map fun (id, e) => toString id.toNat ++ "=" ++ e.uri) ++ ")"

/-- The common ids are what registering them one by one gives. -/
theorem standard_eq_insert :
    some standard = (do
      let m ← empty.insert? 1 .audioLevel
      let m ← m.insert? 2 .absoluteSendTime
      let m ← m.insert? 3 .transportSequenceNumber
      let m ← m.insert? 4 .rtpMid
      let m ← m.insert? 10 .rtpStreamId
      let m ← m.insert? 11 .repairedRtpStreamId
      m.insert? 13 .videoOrientation) := by decide

end ExtensionIds

end LayeredRtp
