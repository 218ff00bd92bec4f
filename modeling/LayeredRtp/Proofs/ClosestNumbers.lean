import LayeredRtp.Proofs.SoundArchive
import Mathlib.Data.Nat.Dist
import Mathlib.Data.Nat.ModEq

/-! The number that is found from its low bits is the closest one. Of all numbers with these bits
none is nearer to the known number, and the computation does not leave the words of 64 bits as long
as the known number is a little below their end. -/
namespace LayeredRtp.SequenceNumber

def add? (a b : UInt64) : Option UInt64 :=
  if a.toNat + b.toNat < 2 ^ 64 then some (a + b) else none

def sub? (a b : UInt64) : Option UInt64 := if b ≤ a then some (a - b) else none

/-- The recovery on words. There is no answer if a sum or a difference on the way is no word. -/
def recoverWord? (known : UInt64) (low : UInt16) : Option UInt64 := do
  let cycle := known &&& ~~~0xFFFF
  let candidate := cycle ||| low.toUInt64
  if (← add? candidate 0x8000) < known then add? candidate 0x10000
  else if (← add? known 0x8000) < candidate ∧ 0 < cycle then sub? candidate 0x10000
  else return candidate

/-- At the end of the words a sum on the way leaves them. -/
example : recoverWord? 0xFFFFFFFFFFFFFFFF 0x8000 = none := by decide

structure Closest (known : Nat) (low : UInt16) (number : Nat) : Prop where
  ends : number ≡ low.toNat [MOD 2 ^ 16]
  least : ∀ n, n ≡ low.toNat [MOD 2 ^ 16] → known.dist number ≤ known.dist n

variable {a b known : UInt64}

theorem add?_eq (h : a.toNat + b.toNat < 2 ^ 64) :
    ∃ sum, add? a b = some sum ∧ sum.toNat = a.toNat + b.toNat :=
  ⟨a + b, if_pos h, by rw [UInt64.toNat_add, Nat.mod_eq_of_lt h]⟩

theorem sub?_eq (h : b.toNat ≤ a.toNat) :
    ∃ difference, sub? a b = some difference ∧ difference.toNat = a.toNat - b.toNat :=
  ⟨a - b, if_pos (UInt64.le_iff_toNat_le.mpr h), UInt64.toNat_sub_of_le _ _ h⟩

/-- Clearing the low bits leaves the number of whole cycles. -/
theorem toNat_cycle (known : UInt64) :
    (known &&& ~~~0xFFFF).toNat = known.toNat / 2 ^ 16 * 2 ^ 16 := by
  have hmask : (~~~0xFFFF : UInt64).toNat = 2 ^ 64 - 2 ^ 16 := by decide
  have hhigh : (known.toNat &&& (2 ^ 64 - 2 ^ 16)) / 2 ^ 16 = known.toNat / 2 ^ 16 := by
    have hlt : known.toNat / 2 ^ 16 < 2 ^ 48 := by
      have := known.toNat_lt
      omega
    rw [Nat.and_div_two_pow, show (2 ^ 64 - 2 ^ 16) / 2 ^ 16 = 2 ^ 48 - 1 from rfl,
      Nat.and_two_pow_sub_one_eq_mod, Nat.mod_eq_of_lt hlt]
  have hlow : (known.toNat &&& (2 ^ 64 - 2 ^ 16)) % 2 ^ 16 = 0 := by
    rw [Nat.and_mod_two_pow, show (2 ^ 64 - 2 ^ 16) % 2 ^ 16 = 0 from rfl, Nat.and_zero]
  rw [UInt64.toNat_and, hmask]
  omega

/-- The cleared bits are free for the low ones. -/
theorem toNat_candidate (known : UInt64) (low : UInt16) :
    ((known &&& ~~~0xFFFF) ||| low.toUInt64).toNat =
      known.toNat / 2 ^ 16 * 2 ^ 16 + low.toNat := by
  rw [UInt64.toNat_or, toNat_cycle, UInt16.toNat_toUInt64, Nat.mul_comm,
    Nat.two_pow_add_eq_or_of_lt low.toNat_lt]

/-- On words the recovery is the one on numbers, and all sums and differences on the way are
words. -/
theorem recoverWord?_eq (room : known.toNat + 2 ^ 17 < 2 ^ 64) (low : UInt16) :
    ∃ word, recoverWord? known low = some word ∧
      word.toNat = recover (some known.toNat) low := by
  unfold recoverWord?
  extract_lets cycle candidate
  have hcycle : cycle.toNat = known.toNat / 0x10000 * 0x10000 := toNat_cycle known
  have hcandidate : candidate.toNat = cycle.toNat + low.toNat := by
    rw [hcycle]
    exact toNat_candidate known low
  have hlow := low.toNat_lt
  have hhalf : (0x8000 : UInt64).toNat = 0x8000 := by decide
  have hwhole : (0x10000 : UInt64).toNat = 0x10000 := by decide
  obtain ⟨top, htop, htopNat⟩ := add?_eq (a := candidate) (b := 0x8000) (by omega)
  obtain ⟨limit, hlimit, hlimitNat⟩ := add?_eq (a := known) (b := 0x8000) (by omega)
  -- The words are compared as the numbers are.
  have hbelow : top < known ↔ candidate.toNat + 0x8000 < known.toNat := by
    rw [UInt64.lt_iff_toNat_lt, htopNat, hhalf]
  have habove : limit < candidate ∧ 0 < cycle ↔
      candidate.toNat > known.toNat + 0x8000 ∧ cycle.toNat > 0 := by
    rw [UInt64.lt_iff_toNat_lt, UInt64.lt_iff_toNat_lt, hlimitNat, hhalf, UInt64.toNat_zero]
  simp only [htop, hlimit, Option.bind_eq_bind, Option.bind_some, Option.pure_def, recover,
    ← hcycle, ← hcandidate, hbelow, habove]
  by_cases hfar : candidate.toNat + 0x8000 < known.toNat
  · obtain ⟨sum, hsum, hsumNat⟩ := add?_eq (a := candidate) (b := 0x10000) (by omega)
    rw [if_pos hfar, if_pos hfar]
    exact ⟨sum, hsum, by rw [hsumNat, hwhole]⟩
  rw [if_neg hfar, if_neg hfar]
  by_cases hback : candidate.toNat > known.toNat + 0x8000 ∧ cycle.toNat > 0
  · obtain ⟨difference, hsub, hsubNat⟩ := sub?_eq (a := candidate) (b := 0x10000) (by omega)
    rw [if_pos hback, if_pos hback]
    exact ⟨difference, hsub, by rw [hsubNat, hwhole]⟩
  · rw [if_neg hback, if_neg hback]
    exact ⟨candidate, rfl, rfl⟩

/-- Where the cycle before the known number would begin below zero, no number ends in the bits there,
and the one in the first cycle is the closest, however far. -/
theorem closest_recover (known : Nat) (low : UInt16) :
    Closest known low (recover (some known) low) := by
  have hlow := low.toNat_lt
  refine ⟨?_, fun n hn => ?_⟩
  · have hwire := congrArg UInt16.toNat (wire_recover (some known) low)
    rw [wire, UInt16.toNat_ofNat'] at hwire
    exact hwire.trans (Nat.mod_eq_of_lt hlow).symm
  · unfold Nat.ModEq at hn
    simp only [Nat.dist, recover]
    split
    · omega
    · split <;> omega

/-- From its low bits the closest number is found, and no sum or difference on the way leaves the
words. A number less than half a cycle away is therefore found itself. -/
theorem recover_closest (known : UInt64) (room : known.toNat + 2 ^ 17 < 2 ^ 64) :
    (∀ low : UInt16, ∃ word, recoverWord? known low = some word ∧
      word.toNat = recover (some known.toNat) low ∧ Closest known.toNat low word.toNat) ∧
    ∀ number, known.toNat.dist number ≤ 0x7fff →
      recoverWord? known (wire number) = some (UInt64.ofNat number) ∧
        recover (some known.toNat) (wire number) = number := by
  refine ⟨fun low => ?_, fun number hnear => ?_⟩
  · obtain ⟨word, hword, hrecover⟩ := recoverWord?_eq room low
    exact ⟨word, hword, hrecover, hrecover ▸ closest_recover _ low⟩
  · have hnumber : recover (some known.toNat) (wire number) = number := by
      rw [Nat.dist] at hnear
      exact recover_wire ⟨by omega, by omega⟩
    obtain ⟨word, hword, hrecover⟩ := recoverWord?_eq room (wire number)
    refine ⟨?_, hnumber⟩
    rw [hword, ← hnumber, ← hrecover, UInt64.ofNat_toNat]

/-- The bits of a number that the known one has just passed are taken for that number. In the first
cycle there is none before, and they stand for one far ahead. -/
theorem recover_closest_first :
    recoverWord? 10 65000 = some 65000 ∧ Closest 10 65000 65000 ∧
      Nat.dist 65546 65000 ≤ 0x7fff ∧ recoverWord? 65546 (wire 65000) = some 65000 := by
  have hfirst := recover_closest 10 (by decide)
  have hlater := recover_closest 65546 (by decide)
  have hword : recoverWord? 10 65000 = some 65000 := by decide
  obtain ⟨word, hsame, -, hclosest⟩ := hfirst.1 65000
  obtain rfl : word = 65000 := Option.some.inj (hsame.symm.trans hword)
  exact ⟨hword, hclosest, by decide, (hlater.2 65000 (by decide)).1⟩

end LayeredRtp.SequenceNumber
