import LayeredRtp.Proofs.ElementGrammar
import LayeredRtp.Proofs.PacketCapacity

/-! Reading a packet by position. Octets are taken from their places and stretches of octets between
two places, and a place that the octets do not have stops the reading for good. No octets make it
stop so: whatever they are, it gives what reading from the front gives. -/
namespace LayeredRtp

inductive Misread where
  | malformed
  | outOfRange
deriving DecidableEq, Repr

namespace Misread

def orMalformed {α : Type} : Option α → Except Misread α
  | some a => .ok a
  | none => .error .malformed

def demand (p : Prop) [Decidable p] : Except Misread Unit :=
  if p then .ok () else .error .malformed

end Misread

open Misread

namespace Octets

def octetAt (s : Octets) (i : Nat) : Except Misread UInt8 :=
  match s[i]? with
  | some b => .ok b
  | none => .error .outOfRange

def slice (s : Octets) (i j : Nat) : Except Misread Octets :=
  if i ≤ j ∧ j ≤ s.length then .ok ((s.take j).drop i) else .error .outOfRange

def word16At (s : Octets) (i : Nat) : Except Misread UInt16 := do
  return word16 (← s.octetAt i) (← s.octetAt (i + 1))

def word32At (s : Octets) (i : Nat) : Except Misread UInt32 := do
  return word32 (← s.octetAt i) (← s.octetAt (i + 1)) (← s.octetAt (i + 2)) (← s.octetAt (i + 3))

def words32At (s : Octets) (i : Nat) : Nat → Except Misread (List UInt32)
  | 0 => return []
  | n + 1 => return (← s.word32At i) :: (← words32At s (i + 4) n)

theorem octetAt_of_drop {s rest : Octets} {i : Nat} {b : UInt8} (h : s.drop i = b :: rest) :
    s.octetAt i = .ok b := by
  have hget : s[i]? = some b := by rw [← List.head?_drop, h, List.head?_cons]
  rw [octetAt, hget]

theorem drop_succ {s rest : Octets} {i : Nat} {b : UInt8} (h : s.drop i = b :: rest) :
    s.drop (i + 1) = rest := by
  rw [← List.drop_drop, h, List.drop_succ_cons, List.drop_zero]

theorem slice_eq {s : Octets} {i j : Nat} (hij : i ≤ j) (hj : j ≤ s.length) :
    s.slice i j = .ok ((s.take j).drop i) :=
  if_pos ⟨hij, hj⟩

theorem word16At_of_drop {s rest : Octets} {i : Nat} {a b : UInt8}
    (h : s.drop i = a :: b :: rest) : s.word16At i = .ok (word16 a b) := by
  simp only [word16At, octetAt_of_drop h, octetAt_of_drop (drop_succ h), bind, Except.bind, pure,
    Except.pure]

theorem word32At_of_drop {s rest : Octets} {i : Nat} {a b c d : UInt8}
    (h : s.drop i = a :: b :: c :: d :: rest) : s.word32At i = .ok (word32 a b c d) := by
  have hb := drop_succ h
  have hc := drop_succ hb
  have hd := drop_succ hc
  simp only [word32At, octetAt_of_drop h, octetAt_of_drop hb, octetAt_of_drop hc,
    octetAt_of_drop hd, bind, Except.bind, pure, Except.pure]

theorem exists_of_four_le {s : Octets} (h : 4 ≤ s.length) :
    ∃ a b c d rest, s = a :: b :: c :: d :: rest := by
  obtain _ | ⟨a, _ | ⟨b, _ | ⟨c, _ | ⟨d, rest⟩⟩⟩⟩ := s
  case cons.cons.cons.cons => exact ⟨a, b, c, d, rest, rfl⟩
  all_goals simp at h

/-- Words that are there are read from their places. -/
theorem words32At_eq {s : Octets} {i n : Nat} (h : i + n * 4 ≤ s.length) :
    ∃ words, s.words32At i n = .ok words ∧
      takeWords32 n (s.drop i) = some (words, s.drop (i + n * 4)) := by
  induction n generalizing i with
  | zero => exact ⟨[], rfl, by simp [takeWords32]⟩
  | succ n ih =>
    obtain ⟨words, hwords, htake⟩ := ih (i := i + 4) (by omega)
    have hlength : 4 ≤ (s.drop i).length := by
      rw [List.length_drop]
      omega
    obtain ⟨a, b, c, d, rest, hdrop⟩ := exists_of_four_le hlength
    have hrest : s.drop (i + 4) = rest := drop_succ (drop_succ (drop_succ (drop_succ hdrop)))
    rw [hrest, Nat.add_assoc, show 4 + n * 4 = (n + 1) * 4 by omega] at htake
    refine ⟨word32 a b c d :: words, ?_, ?_⟩
    · simp only [words32At, word32At_of_drop hdrop, hwords, bind, Except.bind, pure, Except.pure]
    · simp only [hdrop, takeWords32, htake, bind, Option.bind, pure]

theorem takeWords32_eq_none {s : Octets} {n : Nat} (h : s.length < n * 4) :
    takeWords32 n s = none := by
  fun_induction takeWords32 n s with
  | case1 => omega
  | case2 n a b c d rest ih =>
    simp only [List.length_cons] at h
    rw [ih (by omega)]
    rfl
  | case3 => rfl

end Octets

namespace Packet

def headAt (form : ElementForm) (s : Octets) (i : Nat) (b : UInt8) :
    Except Misread (Option (UInt8 × Nat)) :=
  match form with
  | .oneByte =>
    if b.toNat / 16 = 15 then return none
    else return some (UInt8.ofNat (b.toNat / 16), b.toNat % 16 + 1)
  | .twoByte => do
    demand (i + 2 ≤ s.length)
    return some (b, (← s.octetAt (i + 1)).toNat)

def elementsAt (form : ElementForm) (m : ExtensionIds) (s : Octets) (i : Nat) :
    Except Misread (List Element) :=
  if _ : i < s.length then do
    let b ← s.octetAt i
    if b = 0 then elementsAt form m s (i + 1)
    else match ← headAt form s i b with
      | none => return []
      | some (id, length) => do
        let start := i + form.headLength
        demand (start + length ≤ s.length)
        let value ← s.slice start (start + length)
        let more ← elementsAt form m s (start + length)
        return (RawElement.named? m ⟨id, value⟩).toList ++ more
  else return []
termination_by s.length - i
decreasing_by
  · omega
  · have := BlockShape.headLength_pos form
    omega

def blockAt (m : ExtensionIds) (s : Octets) (i : Nat) : Except Misread (List Element × Nat) := do
  demand (i + 4 ≤ s.length)
  let form ← orMalformed (ElementForm.ofMark? (← s.octetAt i) (← s.octetAt (i + 1)))
  let length := (← s.word16At (i + 2)).toNat * 4
  demand (i + 4 + length ≤ s.length)
  let block ← s.slice (i + 4) (i + 4 + length)
  return (← elementsAt form m block 0, i + 4 + length)

def paddingAt (s : Octets) (i : Nat) : Except Misread (Octets × Nat) := do
  demand (i < s.length)
  let count ← s.octetAt (s.length - 1)
  demand (count ≠ 0 ∧ i + count.toNat ≤ s.length)
  return (← s.slice i (s.length - count.toNat), count.toNat)

def announcedElementsAt (m : ExtensionIds) (flags : UInt8) (s : Octets) (i : Nat) :
    Except Misread (List Element × Nat) :=
  if flags.toNat / 16 % 2 = 1 then blockAt m s i else .ok ([], i)

def announcedPaddingAt (flags : UInt8) (s : Octets) (i : Nat) : Except Misread (Octets × Nat) :=
  if flags.toNat / 32 % 2 = 1 then paddingAt s i else (s.slice i s.length).map (·, 0)

def bodyAt (m : ExtensionIds) (flags : UInt8) (s : Octets) (i : Nat) :
    Except Misread (List Ssrc × List Element × Octets × Nat) := do
  let count := flags.toNat % 16
  demand (i + count * 4 ≤ s.length)
  let sources ← s.words32At i count
  let (elements, i) ← announcedElementsAt m flags s (i + count * 4)
  let (payload, padding) ← announcedPaddingAt flags s i
  return (sources, elements, payload, padding)

def fromPositions (m : ExtensionIds) (s : Octets) : Except Misread Packet := do
  demand (12 ≤ s.length)
  let flags ← s.octetAt 0
  demand (flags.toNat / 64 = 2)
  let kind ← s.octetAt 1
  let sequenceNumber ← s.word16At 2
  let timestamp ← s.word32At 4
  let ssrc ← s.word32At 8
  let (sources, elements, payload, padding) ← bodyAt m flags s 12
  return {
    extensions := m
    capacity := s.length
    marker := kind.toNat / 128 = 1
    payloadType := UInt8.ofNat (kind.toNat % 128)
    sequenceNumber, timestamp, ssrc, sources, elements, payload, padding }

variable {form : ElementForm} {m : ExtensionIds} {s : Octets} {i : Nat} {b : UInt8}

/-- The head at a place is the one that is read from the front. -/
theorem headAt_cases (form : ElementForm) (b : UInt8) (hi : i < s.length) :
    (headAt form s i b = .ok none ∧ readHead form b (s.drop (i + 1)) = .last) ∨
      (headAt form s i b = .error .malformed ∧ readHead form b (s.drop (i + 1)) = .cut) ∨
      ∃ id n, headAt form s i b = .ok (some (id, n)) ∧ i + form.headLength ≤ s.length ∧
        readHead form b (s.drop (i + 1)) = .element id n (s.drop (i + form.headLength)) := by
  cases form with
  | oneByte =>
    by_cases hreserved : b.toNat / 16 = 15
    · exact .inl ⟨if_pos hreserved, readHead_reserved hreserved⟩
    · exact .inr (.inr ⟨_, _, if_neg hreserved, hi, readHead_free hreserved⟩)
  | twoByte =>
    cases hrest : s.drop (i + 1) with
    | nil =>
      have hend : ¬i + 2 ≤ s.length := by
        have hlength := congrArg List.length hrest
        rw [List.length_drop, List.length_nil] at hlength
        omega
      exact .inr (.inl ⟨by simp only [headAt, demand, hend, if_false, bind, Except.bind], rfl⟩)
    | cons n rest =>
      have hroom : i + 2 ≤ s.length := by
        have hlength := congrArg List.length hrest
        rw [List.length_drop, List.length_cons] at hlength
        omega
      refine .inr (.inr ⟨b, n.toNat, ?_, hroom, ?_⟩)
      · simp only [headAt, demand, hroom, if_true, Octets.octetAt_of_drop hrest, bind, Except.bind,
          pure, Except.pure]
      · have hbody : s.drop (i + 2) = rest := Octets.drop_succ hrest
        rw [readHead, ElementForm.headLength, hbody]

/-- Elements read by position are those read from the front. -/
theorem elementsAt_eq (form : ElementForm) (m : ExtensionIds) (s : Octets) (i : Nat) :
    elementsAt form m s i = orMalformed (readElements form m (s.drop i)) := by
  induction hleft : s.length - i using Nat.strongRecOn generalizing i with
  | ind left ih =>
    by_cases hi : i < s.length
    · have hdrop : s.drop i = s[i] :: s.drop (i + 1) := List.drop_eq_getElem_cons hi
      generalize s[i] = b at hdrop
      rw [elementsAt, dif_pos hi, Octets.octetAt_of_drop hdrop, hdrop]
      simp only [bind, Except.bind]
      by_cases hb : b = 0
      · rw [if_pos hb, hb, readElements_zero]
        exact ih _ (by omega) (i + 1) rfl
      · rw [if_neg hb]
        obtain ⟨hat, hhead⟩ | ⟨hat, hhead⟩ | ⟨id, n, hat, hroom, hhead⟩ :=
          headAt_cases form b hi
        · rw [hat, readElements_last hb hhead]
          rfl
        · rw [hat, readElements_cut hb hhead]
          rfl
        · have hpos := BlockShape.headLength_pos form
          have hlength : (s.drop (i + form.headLength)).length = s.length - (i + form.headLength) :=
            List.length_drop
          rw [hat, readElements_element hb hhead, hlength]
          by_cases hvalue : i + form.headLength + n ≤ s.length
          · have hslice := Octets.slice_eq (Nat.le_add_right (i + form.headLength) n) hvalue
            have hmore := ih _ (by omega) (i + form.headLength + n) rfl
            rw [List.drop_take, Nat.add_sub_cancel_left] at hslice
            rw [if_neg (by omega), List.drop_drop]
            simp only [demand, hvalue, if_true, hslice, hmore]
            cases readElements form m (s.drop (i + form.headLength + n)) <;> rfl
          · rw [if_pos (by omega)]
            simp only [demand, hvalue, if_false]
            rfl
    · rw [elementsAt, dif_neg hi, List.drop_eq_nil_of_le (Nat.le_of_not_lt hi), readElements]
      rfl

inductive Agrees {α : Type} (s : Octets) : Except Misread (α × Nat) → Option (α × Octets) → Prop
  | read (a : α) {j : Nat} (inside : j ≤ s.length) : Agrees s (.ok (a, j)) (some (a, s.drop j))
  | malformed : Agrees s (.error .malformed) none

theorem blockAt_agrees (m : ExtensionIds) (s : Octets) (i : Nat) :
    Agrees s (blockAt m s i) (readBlock m (s.drop i)) := by
  have hlength : (s.drop i).length = s.length - i := List.length_drop
  by_cases hmark : i + 4 ≤ s.length
  case neg =>
    have hat : blockAt m s i = .error .malformed := by
      simp only [blockAt, demand, hmark, if_false, bind, Except.bind]
    have hread : readBlock m (s.drop i) = none := by
      unfold readBlock
      split
      · rename_i hdrop
        simp only [hdrop, List.length_cons] at hlength
        omega
      · rfl
    rw [hat, hread]
    exact .malformed
  have hfour : 4 ≤ (s.drop i).length := by omega
  match hdrop : s.drop i, hfour with
  | a :: b :: c :: d :: rest, _ =>
    have hb := Octets.drop_succ hdrop
    have hc : s.drop (i + 2) = c :: d :: rest := Octets.drop_succ hb
    have hrest : s.drop (i + 4) = rest := Octets.drop_succ (Octets.drop_succ hc)
    have hleft : rest.length = s.length - (i + 4) := by rw [← hrest, List.length_drop]
    simp only [blockAt, demand, hmark, if_true, Octets.octetAt_of_drop hdrop,
      Octets.octetAt_of_drop hb, Octets.word16At_of_drop hc, readBlock, bind, Except.bind]
    cases ElementForm.ofMark? a b with
    | none => exact .malformed
    | some form =>
      generalize (Octets.word16 c d).toNat * 4 = n
      by_cases hroom : i + 4 + n ≤ s.length
      · have hslice := Octets.slice_eq (Nat.le_add_right (i + 4) n) hroom
        rw [List.drop_take, Nat.add_sub_cancel_left, hrest] at hslice
        have hsplit : Octets.splitAt? n rest = some (rest.take n, s.drop (i + 4 + n)) := by
          rw [Octets.splitAt?, if_pos (by omega), ← List.drop_drop, hrest]
        simp only [orMalformed, hroom, if_true, hslice, elementsAt_eq, List.drop_zero,
          Option.bind, hsplit]
        cases readElements form m (rest.take n) with
        | none => exact .malformed
        | some elements => exact .read elements hroom
      · have hsplit : Octets.splitAt? n rest = none := by
          rw [Octets.splitAt?, if_neg (by omega)]
        simp only [orMalformed, hroom, if_false, Option.bind, hsplit]
        exact .malformed

theorem paddingAt_eq (s : Octets) (i : Nat) :
    paddingAt s i = orMalformed (readPadding (s.drop i)) := by
  by_cases hi : i < s.length
  · have hlast : (s.drop i).getLast? = s[s.length - 1]? := by
      rw [List.getLast?_drop, if_neg (by omega), List.getLast?_eq_getElem?]
    cases hcount : s[s.length - 1]? with
    | none =>
      have hend := List.getElem?_eq_none_iff.mp hcount
      omega
    | some count =>
      rw [hcount] at hlast
      have hat : s.octetAt (s.length - 1) = .ok count := by rw [Octets.octetAt, hcount]
      simp only [paddingAt, readPadding, demand, hi, if_true, hat, hlast, List.length_drop,
        bind, Except.bind]
      by_cases hroom : count ≠ 0 ∧ i + count.toNat ≤ s.length
      · obtain ⟨hpos, hfits⟩ := hroom
        have hslice := Octets.slice_eq (s := s) (i := i) (j := s.length - count.toNat) (by omega)
          (Nat.sub_le _ _)
        have hleft : s.length - count.toNat - i = s.length - i - count.toNat := by omega
        rw [List.drop_take, hleft] at hslice
        rw [if_pos ⟨hpos, hfits⟩, if_neg (by simp only [hpos, false_or]; omega)]
        simp only [hslice]
        rfl
      · have hbad : count = 0 ∨ s.length - i < count.toNat := by
          by_cases hpos : count = 0
          · exact .inl hpos
          · have hover : ¬i + count.toNat ≤ s.length := fun hfits => hroom ⟨hpos, hfits⟩
            exact .inr (by omega)
        rw [if_neg hroom, if_pos hbad]
        rfl
  · simp only [paddingAt, demand, hi, if_false, List.drop_eq_nil_of_le (Nat.le_of_not_lt hi)]
    rfl

theorem announcedElementsAt_agrees (m : ExtensionIds) (flags : UInt8) {s : Octets} {i : Nat}
    (hi : i ≤ s.length) :
    Agrees s (announcedElementsAt m flags s i)
      (if flags.toNat / 16 % 2 = 1 then readBlock m (s.drop i) else some ([], s.drop i)) := by
  unfold announcedElementsAt
  split
  · exact blockAt_agrees m s i
  · exact .read [] hi

theorem announcedPaddingAt_eq (flags : UInt8) {s : Octets} {i : Nat} (hi : i ≤ s.length) :
    announcedPaddingAt flags s i =
      orMalformed (if flags.toNat / 32 % 2 = 1 then readPadding (s.drop i)
        else some (s.drop i, 0)) := by
  unfold announcedPaddingAt
  split
  · exact paddingAt_eq s i
  · rw [Octets.slice_eq hi (Nat.le_refl _), List.take_length]
    rfl

theorem bodyAt_eq (m : ExtensionIds) (flags : UInt8) {s : Octets} {i : Nat}
    (hi : i ≤ s.length) : bodyAt m flags s i = orMalformed (readBody m flags (s.drop i)) := by
  rw [readBody_eq]
  by_cases hroom : i + flags.toNat % 16 * 4 ≤ s.length
  · obtain ⟨sources, hwords, htake⟩ := Octets.words32At_eq hroom
    have helements := announcedElementsAt_agrees m flags hroom
    simp only [bodyAt, demand, hroom, if_true, hwords, htake, bind, Except.bind, Option.bind]
    generalize announcedElementsAt m flags s (i + flags.toNat % 16 * 4) = at?,
      (if flags.toNat / 16 % 2 = 1 then readBlock m (s.drop (i + flags.toNat % 16 * 4))
        else some ([], s.drop (i + flags.toNat % 16 * 4))) = read? at helements ⊢
    cases helements with
    | malformed => rfl
    | read elements inside =>
      simp only [announcedPaddingAt_eq flags inside]
      cases (if flags.toNat / 32 % 2 = 1 then readPadding _ else some (_, 0)) <;> rfl
  · have hnone : Octets.takeWords32 (flags.toNat % 16) (s.drop i) = none := by
      apply Octets.takeWords32_eq_none
      rw [List.length_drop]
      omega
    simp only [bodyAt, demand, hroom, if_false, hnone]
    rfl

/-- Whatever the octets are, no place outside them is asked for, and reading by position gives the
packet that reading from the front gives. -/
theorem fromPositions_eq (m : ExtensionIds) (s : Octets) :
    fromPositions m s = orMalformed (ofOctets? m s) := by
  unfold ofOctets?
  split
  · rename_i flags kind s0 s1 t0 t1 t2 t3 r0 r1 r2 r3 body
    generalize hs : flags :: kind :: s0 :: s1 :: t0 :: t1 :: t2 :: t3 :: r0 :: r1 :: r2 :: r3 ::
      body = s
    have hfixed : 12 ≤ s.length := by
      rw [← hs]
      simp only [List.length_cons]
      omega
    have h0 : s.drop 0 = flags :: kind :: s0 :: s1 :: t0 :: t1 :: t2 :: t3 :: r0 :: r1 :: r2 ::
      r3 :: body := hs.symm
    have h1 := Octets.drop_succ h0
    have h2 := Octets.drop_succ h1
    have h4 : s.drop 4 = _ := Octets.drop_succ (Octets.drop_succ h2)
    have h8 : s.drop 8 = _ :=
      Octets.drop_succ (Octets.drop_succ (Octets.drop_succ (Octets.drop_succ h4)))
    have h12 : s.drop 12 = body :=
      Octets.drop_succ (Octets.drop_succ (Octets.drop_succ (Octets.drop_succ h8)))
    simp only [fromPositions, demand, hfixed, if_true, Octets.octetAt_of_drop h0, bind,
      Except.bind]
    by_cases hversion : flags.toNat / 64 = 2
    · simp only [hversion, if_true, Octets.octetAt_of_drop h1, Octets.word16At_of_drop h2,
        Octets.word32At_of_drop h4, Octets.word32At_of_drop h8, bodyAt_eq m flags hfixed, h12]
      cases readBody m flags body <;> rfl
    · simp only [hversion, if_false]
      rfl
  · rename_i hshort
    have hfixed : ¬12 ≤ s.length := by
      intro hfixed
      match s, hfixed with
      | flags :: kind :: s0 :: s1 :: t0 :: t1 :: t2 :: t3 :: r0 :: r1 :: r2 :: r3 :: body, _ =>
        exact hshort _ _ _ _ _ _ _ _ _ _ _ _ _ rfl
    simp only [fromPositions, demand, hfixed, if_false]
    rfl

end Packet

end LayeredRtp
