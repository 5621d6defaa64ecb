import Mathlib.Dynamics.PeriodicPts.Defs
import TasteRuntime.Lib.Crc

/-!
# TasteRuntime.Lib.CrcDistance

How far apart two messages are that a cyclic redundancy check does not tell
apart.

With an even number of terms in the generator, the leading one included, the
register keeps track of the parity of the message (`parity_register`), so that
no odd number of altered bits goes unnoticed.  Two altered bits go unnoticed
exactly if their distance is a multiple of the period of the generator, the
number of zero bits that bring a register with only its front bit set back to
itself (`register_eq_of_two_iff`).
-/

namespace Crc

variable {g : BitVec n}

/-! ## parity -/

/-- Whether an odd number of bits is set. -/
def parity (l : List Bool) : Bool := l.foldr xor false

@[simp] theorem parity_nil : parity [] = false := rfl

@[simp] theorem parity_cons (b : Bool) (l : List Bool) : parity (b :: l) = (b ^^ parity l) := rfl

theorem parity_append (l l' : List Bool) : parity (l ++ l') = (parity l ^^ parity l') := by
  induction l with
  | nil => simp
  | cons b l ih => rw [List.cons_append, parity_cons, ih, parity_cons, Bool.xor_assoc]

theorem parity_zipWith (l l' : List Bool) (h : l.length = l'.length) :
    parity (List.zipWith (· ^^ ·) l l') = (parity l ^^ parity l') := by
  induction l generalizing l' with
  | nil =>
      obtain rfl := List.length_eq_zero_iff.mp h.symm
      rfl
  | cons b l ih =>
      cases l' with
      | nil => simp at h
      | cons b' l' =>
          rw [List.zipWith_cons_cons, parity_cons, ih l' (Nat.succ.inj h), parity_cons, parity_cons]
          cases b <;> cases b' <;> cases parity l <;> cases parity l' <;> rfl

/-- The parity is that of the number of bits that are set. -/
theorem parity_eq_decide (l : List Bool) : parity l = decide (l.count true % 2 = 1) := by
  induction l with
  | nil => rfl
  | cons b l ih =>
      rw [parity_cons, ih]
      cases b with
      | false => simp
      | true =>
          rw [List.count_cons_self, Bool.true_xor, ← decide_not, decide_eq_decide]
          omega

theorem msbs_xor (k : Nat) (c c' : BitVec n) :
    msbs k (c ^^^ c') = List.zipWith (· ^^ ·) (msbs k c) (msbs k c') := by
  refine List.ext_getElem (by simp) fun i _ _ => ?_
  simp [msbs]

/-- A shift drops the front bit. -/
theorem cons_msbs_shiftLeft (k : Nat) (c : BitVec n) :
    c.msb :: msbs k (c <<< 1) = msbs (k + 1) c := by
  refine List.ext_getElem (by simp) fun i _ _ => ?_
  cases i with
  | zero => simp [msbs, BitVec.msb_eq_getMsbD_zero]
  | succ i => simp [msbs, BitVec.getMsbD_shiftLeft]

theorem parity_shiftLeft (c : BitVec n) :
    parity (msbs n (c <<< 1)) = (c.msb ^^ parity (msbs n c)) := by
  have hlast : msbs (n + 1) c = msbs n c ++ [false] := by
    simp [msbs, List.range_succ]
  have hparity := congrArg parity (cons_msbs_shiftLeft n c)
  rw [hlast, parity_append, parity_cons, parity_cons, parity_nil, Bool.xor_false,
    Bool.xor_false] at hparity
  rw [← hparity, ← Bool.xor_assoc, Bool.xor_self, Bool.false_xor]

theorem parity_bitStep (hg : parity (msbs n g) = true) (c : BitVec n) (b : Bool) :
    parity (msbs n (bitStep g c b)) = (b ^^ parity (msbs n c)) := by
  have hshift := parity_shiftLeft c
  have hadded : parity (msbs n (c <<< 1 ^^^ g)) = (c.msb ^^ parity (msbs n c) ^^ true) := by
    rw [msbs_xor, parity_zipWith _ _ (by simp), hshift, hg]
  unfold bitStep
  cases hmsb : c.msb <;> cases b <;> simp [hmsb, hshift, hadded]

/-- **Parity**: a generator with an odd number of terms behind its leading one
keeps track of the parity of the message. -/
theorem parity_register (hg : parity (msbs n g) = true) (c : BitVec n) (message : List Bool) :
    parity (msbs n (register g c message)) = (parity (msbs n c) ^^ parity message) := by
  induction message generalizing c with
  | nil => simp
  | cons b message ih =>
      rw [register_cons, ih, parity_bitStep hg, parity_cons]
      cases b <;> cases parity (msbs n c) <;> cases parity message <;> rfl

/-! ## distance -/

/-- The number of places in which two messages of one length differ. -/
def distance (message message' : List Bool) : Nat :=
  (List.zipWith (· ^^ ·) message message').count true

/-- Messages that leave the same register differ in an even number of
places. -/
theorem even_distance (hg : parity (msbs n g) = true) {c : BitVec n} {message message' : List Bool}
    (hlen : message.length = message'.length)
    (h : register g c message = register g c message') : distance message message' % 2 = 0 := by
  have hparity := congrArg (fun r => parity (msbs n r)) h
  simp only [parity_register hg, Bool.xor_right_inj] at hparity
  have hdiff := parity_zipWith message message' hlen
  rw [hparity, Bool.xor_self, parity_eq_decide, decide_eq_false_iff_not] at hdiff
  rw [distance]
  omega

/-- Messages that differ nowhere are the same. -/
theorem eq_of_distance_eq_zero {message message' : List Bool}
    (hlen : message.length = message'.length) (h : distance message message' = 0) :
    message = message' := by
  induction message generalizing message' with
  | nil => exact (List.length_eq_zero_iff.mp hlen.symm).symm
  | cons b message ih =>
      cases message' with
      | nil => simp at hlen
      | cons b' message' =>
          rw [distance, List.zipWith_cons_cons, List.count_cons] at h
          rw [ih (Nat.succ.inj hlen) (by rw [distance]; omega)]
          cases b <;> cases b' <;> simp_all

/-- Messages that differ somewhere: the first place. -/
theorem exists_altered {message message' : List Bool} (hlen : message.length = message'.length)
    (h : distance message message' = k + 1) :
    ∃ front a rest rest', message = front ++ a :: rest ∧ message' = front ++ (!a) :: rest' ∧
      rest.length = rest'.length ∧ distance rest rest' = k := by
  induction message generalizing message' with
  | nil => simp [distance] at h
  | cons b message ih =>
      cases message' with
      | nil => simp at hlen
      | cons b' message' =>
          by_cases hb : b' = !b
          · subst hb
            refine ⟨[], b, message, message', rfl, rfl, Nat.succ.inj hlen, ?_⟩
            simpa [distance, List.count_cons] using h
          · obtain rfl : b' = b := by cases b <;> cases b' <;> simp_all
            obtain ⟨front, a, rest, rest', rfl, rfl, hrest, hk⟩ := ih (Nat.succ.inj hlen)
              (by simpa [distance, List.count_cons] using h)
            exact ⟨b' :: front, a, rest, rest', rfl, rfl, hrest, hk⟩

/-! ## two altered bits -/

/-- A zero bit. -/
def zeroStep (g : BitVec n) (c : BitVec n) : BitVec n := bitStep g c false

theorem register_replicate_false (c : BitVec n) (k : Nat) :
    register g c (List.replicate k false) = (zeroStep g)^[k] c := by
  induction k generalizing c with
  | zero => rfl
  | succ k ih => rw [List.replicate_succ, register_cons, ih, Function.iterate_succ_apply]; rfl

/-- Zero bits step by step; the test makes each step evaluate the register. -/
def zeros (g : BitVec n) : Nat → BitVec n → BitVec n
  | 0, c => c
  | k + 1, c => if c.msb then zeros g k (c <<< 1 ^^^ g) else zeros g k (c <<< 1)

theorem zeros_eq (k : Nat) (c : BitVec n) : zeros g k c = (zeroStep g)^[k] c := by
  induction k generalizing c with
  | zero => rfl
  | succ k ih =>
      have hstep : zeroStep g c = if c.msb then c <<< 1 ^^^ g else c <<< 1 := by
        rw [zeroStep, bitStep, Bool.xor_false]
      rw [zeros, Function.iterate_succ_apply, hstep]
      split <;> exact ih _

/-- The register with only its front bit set. -/
def top (n : Nat) : BitVec n := BitVec.twoPow n (n - 1)

theorem top_shiftLeft : top n <<< 1 = 0#n := by
  refine BitVec.eq_of_getMsbD_eq fun i hi => ?_
  simp [top, BitVec.getMsbD_shiftLeft, BitVec.getMsbD_twoPow]
  omega

theorem msb_top (hn : 0 < n) : (top n).msb = true := by
  simp [top, BitVec.msb_twoPow, hn]

theorem zeroStep_top (hn : 0 < n) : zeroStep g (top n) = g := by
  simp [zeroStep, bitStep, msb_top hn, top_shiftLeft]

/-- The one register a set bit clears is that with its front bit set. -/
theorem bitStep_true_eq_zero_iff (hg : g.getMsbD (n - 1) = true) (hn : 0 < n) (c : BitVec n) :
    bitStep g c true = 0#n ↔ c = top n := by
  have htop : bitStep g (top n) true = 0#n := by
    simp [bitStep, msb_top hn, top_shiftLeft]
  constructor
  · intro h
    have hone : register g c [true] = register g (top n) [true] := h.trans htop.symm
    exact register_inj hg hone
  · rintro rfl
    exact htop

/-- **Two bits**: two altered bits go unnoticed exactly if the zero bits of
their distance bring the register with its front bit set back to itself. -/
theorem register_eq_of_two_iff (hg : g.getMsbD (n - 1) = true) (hn : 0 < n) (c : BitVec n)
    (front : List Bool) (a : Bool) (middle : List Bool) (b : Bool) (rest : List Bool) :
    register g c (front ++ a :: (middle ++ b :: rest)) =
        register g c (front ++ (!a) :: (middle ++ (!b) :: rest)) ↔
      Function.IsPeriodicPt (zeroStep g) (middle.length + 1) (top n) := by
  -- what the first altered bit leaves in the register, carried on to the second
  let difference := (zeroStep g)^[middle.length + 1] (top n)
  have hfirst (r : BitVec n) : bitStep g r (!a) = bitStep g r a ^^^ g := by
    have hxor := bitStep_xor g r 0#n a true
    rw [BitVec.xor_zero, Bool.xor_true] at hxor
    rw [hxor]
    simp [bitStep]
  have hmiddle (r : BitVec n) :
      register g (r ^^^ g) middle = register g r middle ^^^ difference := by
    have hxor := register_xor g r g middle (List.replicate middle.length false) (by simp)
    have hzip : List.zipWith (· ^^ ·) middle (List.replicate middle.length false) = middle := by
      refine List.ext_getElem (by simp) fun i _ _ => ?_
      simp
    rw [hzip, register_replicate_false] at hxor
    have hdifference : difference = (zeroStep g)^[middle.length] g := by
      rw [show difference = (zeroStep g)^[middle.length + 1] (top n) from rfl,
        Function.iterate_succ_apply, zeroStep_top hn]
    rw [hxor, hdifference]
  have hsecond (r : BitVec n) :
      bitStep g (r ^^^ difference) (!b) = bitStep g r b ^^^ bitStep g difference true := by
    rw [← bitStep_xor, Bool.xor_true]
  rw [register_append, register_append, register_cons, register_cons, register_append,
    register_append, register_cons, register_cons, hfirst, hmiddle, hsecond]
  constructor
  · intro h
    have hzero := register_inj hg h
    exact (bitStep_true_eq_zero_iff hg hn difference).mp
      ((BitVec.xor_right_inj _).mp (hzero.symm.trans BitVec.xor_zero.symm))
  · intro h
    have hzero := (bitStep_true_eq_zero_iff hg hn difference).mpr h
    rw [hzero, BitVec.xor_zero]

/-- Messages that differ in two places, closer than a multiple of the period,
do not leave the same register. -/
theorem distance_ne_two (hg : g.getMsbD (n - 1) = true) (hn : 0 < n) {c : BitVec n}
    {message message' : List Bool} (hlen : message.length = message'.length)
    (hperiod : ∀ d, 0 < d → d < message.length →
      ¬ Function.IsPeriodicPt (zeroStep g) d (top n))
    (h : register g c message = register g c message') : distance message message' ≠ 2 := by
  intro hdistance
  obtain ⟨front, a, rest, rest', rfl, rfl, hrest, hone⟩ := exists_altered hlen hdistance
  obtain ⟨middle, b, tail, tail', rfl, rfl, htail, hzero⟩ := exists_altered hrest hone
  obtain rfl := eq_of_distance_eq_zero htail hzero
  refine hperiod (middle.length + 1) (Nat.succ_pos _) ?_
    ((register_eq_of_two_iff hg hn c front a middle b tail).mp h)
  simp only [List.length_append, List.length_cons]
  omega

/-! ## two flipped bits -/

theorem bits_flipBit (bytes : List UInt8) (i : Nat) :
    bits (flipBit bytes i) = (bits bytes).modify i (!·) := by
  refine List.ext_getElem? fun j => ?_
  rw [getElem?_bits_flipBit, List.getElem?_modify]
  by_cases hij : i = j
  · simp [hij]
  · simp [hij]

theorem modify_append_cons (f : α → α) (front : List α) (a : α) (rest : List α) :
    (front ++ a :: rest).modify front.length f = front ++ f a :: rest := by
  induction front with
  | nil => rfl
  | cons b front ih => simpa using ih

/-- A byte string and the same with two bits flipped. -/
theorem exists_two_flips (bytes : List UInt8) (hij : i < j) (hj : j < 8 * bytes.length) :
    ∃ front a middle b rest, bits bytes = front ++ a :: (middle ++ b :: rest) ∧
      bits (flipBit (flipBit bytes i) j) = front ++ (!a) :: (middle ++ (!b) :: rest) ∧
      middle.length + 1 = j - i := by
  obtain ⟨front, a, tail, hbits, hfront⟩ : ∃ front a tail, bits bytes = front ++ a :: tail ∧
      front.length = i := by
    have hi : i < (bits bytes).length := by rw [length_bits]; omega
    exact ⟨_, _, _, (List.take_append_drop i (bits bytes)).symm.trans
      (congrArg _ (List.drop_eq_getElem_cons hi)), by rw [List.length_take]; omega⟩
  have htail : j - i - 1 < tail.length := by
    have hlength := congrArg List.length hbits
    simp only [length_bits, List.length_append, List.length_cons] at hlength
    omega
  obtain ⟨middle, b, rest, rfl, hmiddle⟩ : ∃ middle b rest, tail = middle ++ b :: rest ∧
      middle.length = j - i - 1 :=
    ⟨_, _, _, (List.take_append_drop (j - i - 1) tail).symm.trans
      (congrArg _ (List.drop_eq_getElem_cons htail)), by rw [List.length_take]; omega⟩
  refine ⟨front, a, middle, b, rest, hbits, ?_, by omega⟩
  have hj : j = (front ++ (!a) :: middle).length := by
    simp only [List.length_append, List.length_cons]
    omega
  have hcons : front ++ (!a) :: (middle ++ b :: rest) = (front ++ (!a) :: middle) ++ b :: rest := by
    simp
  rw [bits_flipBit, bits_flipBit, hbits, ← hfront, modify_append_cons, hj, hcons,
    modify_append_cons]
  simp

end Crc
