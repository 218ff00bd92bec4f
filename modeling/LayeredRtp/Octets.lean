/-! Octet strings, the words they spell and the text they hold. A word is written with its
most significant octet first, so reading what was written gives the word back. Text is
strict UTF-8: only the shortest form of a scalar value is read, and surrogates, values above
10FFFF, overlong forms and stray continuation octets are refused. -/
namespace LayeredRtp

abbrev Octets := List UInt8

namespace Octets

def ofWord16 (w : UInt16) : Octets :=
  [UInt8.ofNat (w.toNat / 0x100), UInt8.ofNat w.toNat]

def ofWord32 (w : UInt32) : Octets :=
  [UInt8.ofNat (w.toNat / 0x1000000), UInt8.ofNat (w.toNat / 0x10000),
   UInt8.ofNat (w.toNat / 0x100), UInt8.ofNat w.toNat]

def word16 (a b : UInt8) : UInt16 :=
  UInt16.ofNat (a.toNat * 0x100 + b.toNat)

def word32 (a b c d : UInt8) : UInt32 :=
  UInt32.ofNat (a.toNat * 0x1000000 + b.toNat * 0x10000 + c.toNat * 0x100 + d.toNat)

def takeWords32 : Nat → Octets → Option (List UInt32 × Octets)
  | 0, rest => some ([], rest)
  | n + 1, a :: b :: c :: d :: rest => do
    let (words, rest) ← takeWords32 n rest
    return (word32 a b c d :: words, rest)
  | _ + 1, _ => none

def splitAt? (n : Nat) (s : Octets) : Option (Octets × Octets) :=
  if n ≤ s.length then some (s.take n, s.drop n) else none

theorem length_ofWord16 (w : UInt16) : (ofWord16 w).length = 2 := rfl

theorem length_ofWord32 (w : UInt32) : (ofWord32 w).length = 4 := rfl

theorem word16_ofWord16 (w : UInt16) :
    word16 (UInt8.ofNat (w.toNat / 0x100)) (UInt8.ofNat w.toNat) = w := by
  apply UInt16.toNat.inj
  have := w.toNat_lt
  simp only [word16, UInt16.toNat_ofNat', UInt8.toNat_ofNat']
  omega

theorem word32_ofWord32 (w : UInt32) :
    word32 (UInt8.ofNat (w.toNat / 0x1000000)) (UInt8.ofNat (w.toNat / 0x10000))
      (UInt8.ofNat (w.toNat / 0x100)) (UInt8.ofNat w.toNat) = w := by
  apply UInt32.toNat.inj
  have := w.toNat_lt
  simp only [word32, UInt32.toNat_ofNat', UInt8.toNat_ofNat']
  omega

theorem takeWords32_flatMap (words : List UInt32) (rest : Octets) :
    takeWords32 words.length (words.flatMap ofWord32 ++ rest) = some (words, rest) := by
  induction words with
  | nil => rfl
  | cons w ws ih =>
    simp only [List.length_cons, List.flatMap_cons, ofWord32, List.cons_append,
      List.nil_append, takeWords32, ih, word32_ofWord32]
    rfl

end Octets

namespace Utf8

def scalar? (least n : Nat) : Option Char :=
  if least ≤ n ∧ n.isValidChar then some (Char.ofNat n) else none

def extend? (high : Nat) (b : UInt8) : Option Nat :=
  if 0x80 ≤ b.toNat ∧ b.toNat < 0xC0 then some (high * 64 + (b.toNat - 0x80)) else none

def decode : Octets → Option (List Char)
  | [] => some []
  | a :: rest =>
    if a.toNat < 0x80 then do
      return Char.ofNat a.toNat :: (← decode rest)
    else if a.toNat < 0xC0 then none
    else match rest with
    | [] => none
    | b :: rest =>
      if a.toNat < 0xE0 then do
        let c ← scalar? 0x80 (← extend? (a.toNat - 0xC0) b)
        return c :: (← decode rest)
      else match rest with
      | [] => none
      | c :: rest =>
        if a.toNat < 0xF0 then do
          let x ← scalar? 0x800 (← extend? (← extend? (a.toNat - 0xE0) b) c)
          return x :: (← decode rest)
        else match rest with
        | [] => none
        | d :: rest => do
          let high ← extend? (← extend? (a.toNat - 0xF0) b) c
          let x ← scalar? 0x10000 (← extend? high d)
          return x :: (← decode rest)

def text? (s : Octets) : Option String :=
  (decode s).map String.ofList

/-- Seven-bit octets stand for themselves. -/
theorem decode_ascii (s : Octets) (h : ∀ b ∈ s, b.toNat < 0x80) :
    decode s = some (s.map fun b => Char.ofNat b.toNat) := by
  induction s with
  | nil => rfl
  | cons b s ih =>
    have hb := h b (by simp)
    have hs := ih fun c hc => h c (by simp [hc])
    rw [decode.eq_def]
    simp [hb, hs]

end Utf8
end LayeredRtp
