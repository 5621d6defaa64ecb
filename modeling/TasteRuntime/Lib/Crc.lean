import Mathlib.Data.List.Basic
import Mathlib.Data.Nat.Bitwise

/-!
# TasteRuntime.Lib.Crc

Cyclic redundancy checks, one message bit at a time: a register of `n` bits
that each bit of the message shifts and reduces by a generator `g`, written
without its leading term.

The register is linear in its start and the message together
(`register_xor`).  Eight bits of the message can therefore be taken at once
from a table over their exclusive or with the front of the register
(`register_eq_table`).

With a generator that has a constant term, a step loses nothing, and the
register tells any two messages apart that differ in no more than `n`
consecutive bits (`eq_of_register_eq`).
-/

namespace Crc

/-- One message bit. -/
def bitStep (g c : BitVec n) (b : Bool) : BitVec n :=
  if c.msb ^^ b then (c <<< 1) ^^^ g else c <<< 1

/-- The register after a message. -/
def register (g c : BitVec n) (message : List Bool) : BitVec n := message.foldl (bitStep g) c

variable (g : BitVec n)

@[simp] theorem register_nil (c : BitVec n) : register g c [] = c := rfl

@[simp] theorem register_cons (c : BitVec n) (b : Bool) (message : List Bool) :
    register g c (b :: message) = register g (bitStep g c b) message := rfl

theorem register_append (c : BitVec n) (message message' : List Bool) :
    register g c (message ++ message') = register g (register g c message) message' :=
  List.foldl_append

/-! ## linearity -/

theorem bitStep_xor (c c' : BitVec n) (b b' : Bool) :
    bitStep g (c ^^^ c') (b ^^ b') = bitStep g c b ^^^ bitStep g c' b' := by
  have hcancel : c <<< 1 ^^^ g ^^^ (c' <<< 1 ^^^ g) = c <<< 1 ^^^ c' <<< 1 := by
    rw [BitVec.xor_comm (c' <<< 1), BitVec.xor_assoc, ← BitVec.xor_assoc g, BitVec.xor_self,
      BitVec.zero_xor]
  unfold bitStep
  rw [BitVec.msb_xor, BitVec.shiftLeft_xor_distrib]
  cases c.msb <;> cases c'.msb <;> cases b <;> cases b' <;>
    simp [hcancel, BitVec.xor_assoc, BitVec.xor_comm g]

/-- The difference of two registers is the register of the difference. -/
theorem register_xor (c c' : BitVec n) (message message' : List Bool)
    (h : message.length = message'.length) :
    register g (c ^^^ c') (List.zipWith (· ^^ ·) message message') =
      register g c message ^^^ register g c' message' := by
  induction message generalizing message' c c' with
  | nil =>
      obtain rfl := List.length_eq_zero_iff.mp h.symm
      rfl
  | cons b message ih =>
      cases message' with
      | nil => simp at h
      | cons b' message' =>
          rw [List.zipWith_cons_cons, register_cons, register_cons, register_cons, bitStep_xor]
          exact ih _ _ message' (Nat.succ.inj h)

/-! ## many bits at once -/

/-- The first `k` bits of a word, the most significant first. -/
def msbs (k : Nat) (x : BitVec n) : List Bool := (List.range k).map x.getMsbD

@[simp] theorem length_msbs (k : Nat) (x : BitVec n) : (msbs k x).length = k := by simp [msbs]

/-- The register's own front shifts it out. -/
theorem register_msbs (k : Nat) (c : BitVec n) : register g c (msbs k c) = c <<< k := by
  induction k with
  | zero => simp [msbs]
  | succ k ih =>
      have hfront : (c <<< k).msb = c.getMsbD k := by
        rw [BitVec.msb_eq_getMsbD_zero, BitVec.getMsbD_shiftLeft, Nat.zero_add]
      have hlast : msbs (k + 1) c = msbs k c ++ [c.getMsbD k] := by simp [msbs, List.range_succ]
      rw [hlast, register_append, ih, register_cons, register_nil, bitStep, hfront, Bool.xor_self,
        if_neg (by simp), BitVec.shiftLeft_add]

/-- **A table of registers**: `k` bits of the message leave the table's entry
for their difference to the front of the register, and the rest of the
register shifted. -/
theorem register_eq_table (c : BitVec n) (message : List Bool) :
    register g c message =
      register g 0#n (List.zipWith (· ^^ ·) (msbs message.length c) message) ^^^
        c <<< message.length := by
  have hback : List.zipWith (· ^^ ·) (msbs message.length c)
      (List.zipWith (· ^^ ·) (msbs message.length c) message) = message := by
    apply List.ext_getElem
    · simp
    · intro i h1 h2
      simp
  have hsplit := register_xor g c 0#n (msbs message.length c)
    (List.zipWith (· ^^ ·) (msbs message.length c) message) (by simp)
  rw [hback, register_msbs, BitVec.xor_zero] at hsplit
  rw [hsplit, BitVec.xor_comm]

/-! ## errors -/

variable {g}

theorem getMsbD_bitStep (c : BitVec n) (b : Bool) (i : Nat) :
    (bitStep g c b).getMsbD i = (c.getMsbD (i + 1) ^^ ((c.msb ^^ b) && g.getMsbD i)) := by
  unfold bitStep
  cases c.msb ^^ b <;> simp [BitVec.getMsbD_shiftLeft]

/-- Two messages of at most `n` bits that leave the same register differ as
the fronts of the registers they started from. -/
theorem front_eq_of_register_eq (hg : g.getMsbD (n - 1) = true) {c c' : BitVec n}
    {message message' : List Bool} (hlen : message.length = message'.length)
    (hshort : message.length ≤ n) (h : register g c message = register g c' message') (i : Nat) :
    (c.getMsbD i ^^ message.getD i false) = (c'.getMsbD i ^^ message'.getD i false) := by
  induction message generalizing message' c c' i with
  | nil =>
      obtain rfl := List.length_eq_zero_iff.mp hlen.symm
      rw [register_nil, register_nil] at h
      rw [h]
  | cons b message ih =>
      cases message' with
      | nil => simp at hlen
      | cons b' message' =>
          have hlen' : message.length = message'.length := Nat.succ.inj hlen
          have hshort' : message.length < n := hshort
          have hrest := ih hlen' (Nat.le_of_lt hshort') h
          -- the last place of the register tells whether the generator was added
          have hlast := hrest (n - 1)
          rw [getMsbD_bitStep, getMsbD_bitStep, hg,
            List.getD_eq_default _ _ (by omega), List.getD_eq_default _ _ (by omega),
            BitVec.getMsbD_of_ge _ _ (by omega), BitVec.getMsbD_of_ge _ _ (by omega)] at hlast
          simp only [Bool.and_true, Bool.false_bne, Bool.bne_false] at hlast
          cases i with
          | zero => simpa [BitVec.msb_eq_getMsbD_zero] using hlast
          | succ i =>
              have hi := hrest i
              rw [getMsbD_bitStep, getMsbD_bitStep, hlast, Bool.xor_right_comm,
                Bool.xor_right_comm (c'.getMsbD (i + 1))] at hi
              exact Bool.xor_left_inj.mp hi

/-- From one message to the registers before it: nothing is lost. -/
theorem register_inj (hg : g.getMsbD (n - 1) = true) {c c' : BitVec n} {message : List Bool}
    (h : register g c message = register g c' message) : c = c' := by
  have hn : 0 < n := by
    by_contra hzero
    rw [BitVec.getMsbD_of_ge _ _ (by omega)] at hg
    contradiction
  induction message generalizing c c' with
  | nil => exact h
  | cons b message ih =>
      have hone : register g c [b] = register g c' [b] := ih h
      have hshort : [b].length ≤ n := hn
      refine BitVec.eq_of_getMsbD_eq fun i _ => ?_
      exact Bool.xor_left_inj.mp (front_eq_of_register_eq hg rfl hshort hone i)

theorem take_eq_of_agree {message message' : List α} {s : Nat}
    (h : ∀ i, i < s → message[i]? = message'[i]?) : message.take s = message'.take s := by
  refine List.ext_getElem? fun i => ?_
  rw [List.getElem?_take, List.getElem?_take]
  split
  · exact h i ‹_›
  · rfl

theorem drop_eq_of_agree {message message' : List α} {s : Nat}
    (h : ∀ i, s ≤ i → message[i]? = message'[i]?) : message.drop s = message'.drop s := by
  refine List.ext_getElem? fun i => ?_
  rw [List.getElem?_drop, List.getElem?_drop]
  exact h (s + i) (Nat.le_add_right s i)

/-- **Bursts**: messages of one length that leave the same register and differ
in `n` consecutive places only are the same. -/
theorem eq_of_register_eq (hg : g.getMsbD (n - 1) = true) {c : BitVec n}
    {message message' : List Bool} (hlen : message.length = message'.length)
    (h : register g c message = register g c message') (s : Nat)
    (hburst : ∀ i, message[i]? ≠ message'[i]? → s ≤ i ∧ i < s + n) : message = message' := by
  have hfront : message.take s = message'.take s := take_eq_of_agree fun i hi => by
    by_contra hne
    exact absurd (hburst i hne).1 (Nat.not_le.mpr hi)
  have hback : message.drop (s + n) = message'.drop (s + n) := drop_eq_of_agree fun i hi => by
    by_contra hne
    exact absurd (hburst i hne).2 (Nat.not_lt.mpr hi)
  have hsplit (l : List Bool) : l = l.take s ++ ((l.drop s).take n ++ l.drop (s + n)) := by
    rw [← List.drop_drop, List.take_append_drop, List.take_append_drop]
  have hregister (l : List Bool) : register g c l =
      register g (register g (register g c (l.take s)) ((l.drop s).take n)) (l.drop (s + n)) := by
    rw [← register_append, ← register_append, ← hsplit]
  rw [hregister message, hregister message', hfront, hback] at h
  have hwindow := front_eq_of_register_eq hg (by simp [hlen])
    (by rw [List.length_take]; exact Nat.min_le_left _ _) (register_inj hg h)
  have hmiddle : (message.drop s).take n = (message'.drop s).take n := by
    refine List.ext_getElem (by simp [hlen]) fun i hi hi' => ?_
    have hget := Bool.xor_right_inj.mp (hwindow i)
    rwa [List.getD_eq_getElem _ _ hi, List.getD_eq_getElem _ _ hi'] at hget
  rw [hsplit message, hsplit message', hfront, hback, hmiddle]

/-! ## byte strings as messages -/

/-- The bits of a byte, the most significant first. -/
def byteBits (b : UInt8) : List Bool := msbs 8 b.toBitVec

/-- The bits of a byte string. -/
def bits (bytes : List UInt8) : List Bool := bytes.flatMap byteBits

@[simp] theorem length_byteBits (b : UInt8) : (byteBits b).length = 8 := length_msbs 8 _

@[simp] theorem bits_cons (b : UInt8) (bytes : List UInt8) :
    bits (b :: bytes) = byteBits b ++ bits bytes := rfl

@[simp] theorem length_bits (bytes : List UInt8) : (bits bytes).length = 8 * bytes.length := by
  induction bytes with
  | nil => rfl
  | cons b bytes ih =>
      rw [bits_cons, List.length_append, ih, length_byteBits, List.length_cons]
      omega

/-- The bits of a byte string, one by one. -/
theorem getElem?_bits (bytes : List UInt8) (i : Nat) :
    (bits bytes)[i]? = (bytes[i / 8]?).map fun b => b.toBitVec.getMsbD (i % 8) := by
  induction bytes generalizing i with
  | nil => rfl
  | cons b bytes ih =>
      rw [bits_cons]
      by_cases hi : i < 8
      · rw [List.getElem?_append_left (by simpa using hi), Nat.div_eq_of_lt hi,
          Nat.mod_eq_of_lt hi]
        simp [byteBits, msbs, hi]
      · rw [List.getElem?_append_right (by simpa using hi), length_byteBits, ih,
          show i / 8 = (i - 8) / 8 + 1 by omega, show i % 8 = (i - 8) % 8 by omega]
        rfl

theorem byteBits_inj {b b' : UInt8} (h : byteBits b = byteBits b') : b = b' := by
  refine UInt8.toBitVec_inj.mp (BitVec.eq_of_getMsbD_eq fun i hi => ?_)
  have hget := congrArg (fun l : List Bool => l[i]?) h
  simpa [byteBits, msbs, hi] using hget

theorem bits_inj {bytes bytes' : List UInt8} (h : bits bytes = bits bytes') : bytes = bytes' := by
  have hlen := congrArg List.length h
  rw [length_bits, length_bits] at hlen
  induction bytes generalizing bytes' with
  | nil => exact (List.length_eq_zero_iff.mp (by simpa using hlen.symm)).symm
  | cons b bytes ih =>
      cases bytes' with
      | nil => simp at hlen
      | cons b' bytes' =>
          obtain ⟨hhead, htail⟩ := List.append_inj h (by simp)
          rw [byteBits_inj hhead, ih htail (by simp at hlen ⊢; omega)]

/-! ## altered byte strings -/

theorem bits_append (bytes bytes' : List UInt8) :
    bits (bytes ++ bytes') = bits bytes ++ bits bytes' := List.flatMap_append

theorem bits_take (bytes : List UInt8) (k : Nat) :
    bits (bytes.take k) = (bits bytes).take (8 * k) := by
  by_cases hk : k ≤ bytes.length
  · conv => rhs; rw [← List.take_append_drop k bytes, bits_append]
    rw [List.take_left' (by simp [Nat.min_eq_left hk])]
  · rw [List.take_of_length_le (by omega), List.take_of_length_le (by rw [length_bits]; omega)]

theorem bits_drop (bytes : List UInt8) (k : Nat) :
    bits (bytes.drop k) = (bits bytes).drop (8 * k) := by
  by_cases hk : k ≤ bytes.length
  · conv => rhs; rw [← List.take_append_drop k bytes, bits_append]
    rw [List.drop_left' (by simp [Nat.min_eq_left hk])]
  · rw [List.drop_of_length_le (by omega), List.drop_of_length_le (by rw [length_bits]; omega)]
    rfl

/-- Byte strings whose bits agree in front agree in front. -/
theorem take_eq_of_bits_agree {bytes bytes' : List UInt8} {k : Nat}
    (h : ∀ i, i < 8 * k → (bits bytes)[i]? = (bits bytes')[i]?) : bytes.take k = bytes'.take k :=
  bits_inj (by rw [bits_take, bits_take, take_eq_of_agree h])

/-- Byte strings whose bits agree behind agree behind. -/
theorem drop_eq_of_bits_agree {bytes bytes' : List UInt8} {k : Nat}
    (h : ∀ i, 8 * k ≤ i → (bits bytes)[i]? = (bits bytes')[i]?) : bytes.drop k = bytes'.drop k :=
  bits_inj (by rw [bits_drop, bits_drop, drop_eq_of_agree h])

/-- The byte string with one bit flipped. -/
def flipBit (bytes : List UInt8) (i : Nat) : List UInt8 :=
  bytes.modify (i / 8) fun b => b ^^^ (0x80 >>> UInt8.ofNat (i % 8))

@[simp] theorem length_flipBit (bytes : List UInt8) (i : Nat) :
    (flipBit bytes i).length = bytes.length := List.length_modify _ _ _

theorem getMsbD_mask : ∀ r < 8, ∀ s < 8,
    ((0x80 : UInt8) >>> UInt8.ofNat r).toBitVec.getMsbD s = decide (r = s) := by
  decide

theorem getElem?_bits_flipBit (bytes : List UInt8) (i j : Nat) :
    (bits (flipBit bytes i))[j]? = (bits bytes)[j]?.map (· ^^ decide (i = j)) := by
  rw [getElem?_bits, getElem?_bits, flipBit, List.getElem?_modify]
  by_cases hbyte : i / 8 = j / 8
  · have hmask := getMsbD_mask (i % 8) (Nat.mod_lt _ (by decide)) (j % 8) (Nat.mod_lt _ (by decide))
    have hsame : decide (i % 8 = j % 8) = decide (i = j) := by
      rw [decide_eq_decide]
      omega
    simp only [if_pos hbyte, Option.map_eq_map, Option.map_map]
    congr 1
    funext b
    simp only [Function.comp, UInt8.toBitVec_xor, BitVec.getMsbD_xor, hmask, hsame]
  · have hne : i ≠ j := fun h => hbyte (congrArg (· / 8) h)
    simp only [if_neg hbyte, decide_eq_false hne, Option.map_eq_map, Option.map_id', Option.map_map]
    congr 1
    funext b
    simp

/-- Only the flipped bit is different. -/
theorem eq_of_bits_flipBit_ne (h : (bits bytes)[j]? ≠ (bits (flipBit bytes i))[j]?) : i = j := by
  by_contra hne
  rw [getElem?_bits_flipBit] at h
  simp [hne] at h

theorem flipBit_ne (h : i < 8 * bytes.length) : flipBit bytes i ≠ bytes := by
  intro heq
  have hbit := getElem?_bits_flipBit bytes i i
  rw [heq, List.getElem?_eq_getElem (by simpa using h)] at hbit
  simp at hbit

/-- A flipped bit leaves the bytes in front of it alone. -/
theorem take_flipBit (bytes : List UInt8) (h : 8 * n ≤ i) :
    bytes.take n = (flipBit bytes i).take n :=
  take_eq_of_bits_agree fun j hj => by
    by_contra hne
    have hflip := eq_of_bits_flipBit_ne hne
    omega

/-- A flipped bit leaves the bytes behind it alone. -/
theorem drop_flipBit (bytes : List UInt8) (h : i < 8 * n) :
    bytes.drop n = (flipBit bytes i).drop n :=
  drop_eq_of_bits_agree fun j hj => by
    by_contra hne
    have hflip := eq_of_bits_flipBit_ne hne
    omega

end Crc
