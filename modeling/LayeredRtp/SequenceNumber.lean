/-! Sequence numbers. Packets carry the low sixteen bits, and a receiver of them finds the
full number again as the one closest to a number it knows. -/
namespace LayeredRtp.SequenceNumber

def wire (n : Nat) : UInt16 := UInt16.ofNat n

def next (n : Nat) : Nat := n + 1

def precedes (n other : Nat) : Bool := other == n + 1

/-- The full number that ends in `low` and is closest to `known`, never below zero. -/
def recover (known : Option Nat) (low : UInt16) : Nat :=
  match known with
  | none => low.toNat
  | some known =>
    let cycle := known / 0x10000 * 0x10000
    let candidate := cycle + low.toNat
    if candidate + 0x8000 < known then candidate + 0x10000
    else if candidate > known + 0x8000 ∧ cycle > 0 then candidate - 0x10000
    else candidate

def text (n : Nat) : String := "SeqNo(" ++ toString n ++ ")"

def Near (known : Option Nat) (number : Nat) : Prop :=
  match known with
  | none => number < 0x10000
  | some known => number ≤ known + 0x7fff ∧ known ≤ number + 0x7fff

instance (known : Option Nat) (number : Nat) : Decidable (Near known number) :=
  match known with
  | none => inferInstanceAs (Decidable (number < 0x10000))
  | some known => inferInstanceAs (Decidable (number ≤ known + 0x7fff ∧ known ≤ number + 0x7fff))

theorem recover_wire {known : Option Nat} {number : Nat} (near : Near known number) :
    recover known (wire number) = number := by
  have hlow : (wire number).toNat = number % 0x10000 := by simp [wire]
  cases known with
  | none => exact hlow.trans (Nat.mod_eq_of_lt near)
  | some known =>
    obtain ⟨habove, hbelow⟩ := near
    simp only [recover, hlow]
    split
    · omega
    · split <;> omega

theorem wire_recover (known : Option Nat) (low : UInt16) :
    wire (recover known low) = low := by
  have hlow := low.toNat_lt
  apply UInt16.toNat.inj
  cases known with
  | none => simp [wire, recover]
  | some known =>
    simp only [wire, UInt16.toNat_ofNat', recover]
    split
    · omega
    · split <;> omega

end LayeredRtp.SequenceNumber
