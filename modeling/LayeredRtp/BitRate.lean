/-! Bit rates and byte counts. Byte counts stop at the largest 64-bit number and at
zero instead of wrapping. Quotients are rounded to the nearest whole number, and to the
nearest number with 53 significant binary digits; a value halfway between two goes to the
even one. -/
namespace LayeredRtp

namespace Rounding

def nearest (num den : Nat) : Nat :=
  let q := num / den
  let twice := 2 * (num % den)
  if twice < den ∨ (twice = den ∧ q % 2 = 0) then q else q + 1

/-- The nearest number with 53 significant binary digits to a quotient of at least one,
as numerator and denominator. -/
def binary53 (num den : Nat) : Nat × Nat :=
  let exponent := Nat.log2 (num / den)
  if exponent ≤ 52 then
    let scale := 1 <<< (52 - exponent)
    (nearest (num * scale) den, scale)
  else
    let scale := 1 <<< (exponent - 52)
    (nearest num (den * scale) * scale, 1)

def whole53 (n : Nat) : Nat :=
  if n = 0 then 0 else
    let (num, den) := binary53 n 1
    num / den

def threePlaces (num den : Nat) : String :=
  let thousandths := nearest (num * 1000) den
  let fraction := toString (thousandths % 1000)
  toString (thousandths / 1000) ++ "." ++
    String.ofList (List.replicate (3 - fraction.length) '0') ++ fraction

end Rounding

structure BitRate where
  bps : Nat
deriving DecidableEq, Repr, Inhabited

structure ByteCount where
  bytes : Nat
deriving DecidableEq, Repr, Inhabited

namespace ByteCount

def limit : Nat := 0xffffffffffffffff
def zero : ByteCount := ⟨0⟩
def add (a b : ByteCount) : ByteCount := ⟨min (a.bytes + b.bytes) limit⟩
def sub (a b : ByteCount) : ByteCount := ⟨a.bytes - b.bytes⟩
def sum (sizes : List ByteCount) : ByteCount := sizes.foldl add zero
def text (a : ByteCount) : String := toString a.bytes ++ "B"

instance : Add ByteCount := ⟨add⟩
instance : Sub ByteCount := ⟨sub⟩

end ByteCount

namespace BitRate

def zero : BitRate := ⟨0⟩
def kbps (n : Nat) : BitRate := ⟨n * 1000⟩
def mbps (n : Nat) : BitRate := ⟨n * 1000000⟩
def isZero (r : BitRate) : Bool := r.bps == 0

def during (r : BitRate) (micros : Nat) : ByteCount :=
  ⟨min (r.bps * micros / 1000000 / 8) ByteCount.limit⟩

/-- Plain bits below a thousand, then thousands and millions with three places. Rate and
quotient are both held to 53 binary digits before the places are cut. -/
def text (r : BitRate) : String :=
  if r.bps < 1000 then toString r.bps ++ "bit/s"
  else if r.bps < 1000000 then Rounding.threePlaces r.bps 1000 ++ "kbit/s"
  else
    let (num, den) := Rounding.binary53 (Rounding.whole53 r.bps) 1000000
    Rounding.threePlaces num den ++ "Mbit/s"

end BitRate

end LayeredRtp
