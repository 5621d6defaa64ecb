import Mathlib.Data.List.Basic
import Mathlib.Data.Nat.Bitwise
import Mathlib.Data.Nat.ModEq

/-!
# TasteRuntime.Lib.CMemory

Byte objects as a C program sees them: reads and writes by index that fail
when they leave the object, `assert`, `memset`, `memcpy`, and the wrap-around
of `size_t` sums.

An object is the list of its bytes.  A failing access is a value of `Fault`
carried by `Except`, so "no access leaves its object" and "no assertion
fails" are statements about the result of a run.  The lemmas come in two
kinds: what an access inside the object returns, and how a write behaves
under a prefix it does not reach.

Nothing here is specific to one program.
-/

namespace CMemory

/-- What a C program does that it must not do; `diverged` is a loop that did
not end within the rounds its model gives it. -/
inductive Fault where
  | assertionFailed
  | readOutOfBounds (index : Nat)
  | writeOutOfBounds (index : Nat)
  | nullCall
  | aborted
  | diverged
  deriving DecidableEq, Repr

/-- A piece of C: it returns a value or stops at a fault. -/
abbrev Exec := Except Fault

@[simp] theorem ok_bind (a : α) (f : α → Exec β) : (Except.ok a >>= f) = f a := rfl

@[simp] theorem error_bind (e : Fault) (f : α → Exec β) :
    ((Except.error e : Exec α) >>= f) = .error e := rfl

@[simp] theorem pure_eq_ok (a : α) : (pure a : Exec α) = .ok a := rfl

@[simp] theorem throw_eq_error (e : Fault) : (throw e : Exec α) = .error e := rfl

/-- `assert(condition)`. -/
def assert (condition : Prop) [Decidable condition] : Exec Unit :=
  if condition then pure () else throw .assertionFailed

theorem assert_of (h : condition) [Decidable condition] : assert condition = .ok () := by
  simp [assert, h]

theorem assert_of_not (h : ¬ condition) [Decidable condition] :
    assert condition = .error .assertionFailed := by
  simp [assert, h]

/-! ## tables -/

/-- `table[index]`. -/
def readEntry (table : List α) (index : Nat) : Exec α :=
  match table[index]? with
  | some entry => pure entry
  | none => throw (.readOutOfBounds index)

theorem readEntry_eq {table : List α} (h : index < table.length) :
    readEntry table index = .ok table[index] := by
  simp [readEntry, h]

theorem readEntry_of_le {table : List α} (h : table.length ≤ index) :
    readEntry table index = .error (.readOutOfBounds index) := by
  simp [readEntry, h]

/-! ## single bytes -/

/-- `object[index]`. -/
def readByte (object : List UInt8) (index : Nat) : Exec UInt8 :=
  match object[index]? with
  | some byte => pure byte
  | none => throw (.readOutOfBounds index)

/-- `object[index] = byte`. -/
def writeByte (object : List UInt8) (index : Nat) (byte : UInt8) : Exec (List UInt8) :=
  if index < object.length then pure (object.set index byte) else throw (.writeOutOfBounds index)

/-- `object[index] |= bits`. -/
def orByte (object : List UInt8) (index : Nat) (bits : UInt8) : Exec (List UInt8) := do
  let byte ← readByte object index
  writeByte object index (byte ||| bits)

theorem writeByte_of_lt (h : index < object.length) :
    writeByte object index byte = .ok (object.set index byte) := by
  simp [writeByte, h]

theorem writeByte_of_le (h : object.length ≤ index) :
    writeByte object index byte = .error (.writeOutOfBounds index) := by
  simp [writeByte, Nat.not_lt.mpr h]

theorem readByte_eq (h : index < object.length) :
    readByte object index = .ok (object.getD index 0) := by
  simp [readByte, h]

/-- A write past a prefix leaves the prefix alone. -/
theorem writeByte_append (hi : i < ys.length) (h : index = xs.length + i) :
    writeByte (xs ++ ys) index byte = .ok (xs ++ ys.set i byte) := by
  subst h
  rw [writeByte_of_lt (by simp; omega)]
  simp

/-- Two bytes of which the first starts inside an object or right behind it,
and which do not both fit, are written up to its end. -/
theorem writeByte_writeByte_of_lt (hle : index ≤ object.length) (hlt : object.length < index + 2)
    (hnext : index < object.length → next = index + 1) :
    (do let p ← writeByte object index byte; writeByte p next byte') =
      .error (.writeOutOfBounds object.length) := by
  by_cases hin : index < object.length
  · rw [writeByte_of_lt hin, ok_bind, writeByte_of_le (by rw [List.length_set]; omega)]
    congr
    omega
  · rw [writeByte_of_le (Nat.le_of_not_lt hin), error_bind]
    congr
    omega

/-- Writing at the end of a prefix extends it. -/
theorem take_set_succ {l : List α} {i : Nat} (b : α) (h : i < l.length) :
    (l.set i b).take (i + 1) = l.take i ++ [b] := by
  have hpre : (l.set i b).take i = l.take i := by
    rw [List.take_set, List.set_eq_of_length_le (by rw [List.length_take]; omega)]
  rw [List.take_add_one, List.getElem?_set_self h, hpre]
  rfl

/-- An object that is long enough has a front of a given length. -/
theorem exists_append_of_le {object : List UInt8} (h : n ≤ object.length) :
    ∃ front rest, object = front ++ rest ∧ front.length = n :=
  ⟨object.take n, object.drop n, (List.take_append_drop n object).symm, List.length_take_of_le h⟩

/-- An object is what lies around a range inside it. -/
theorem exists_around {object : List UInt8} (n k : Nat) (h : n + k ≤ object.length) :
    ∃ front mid rest, object = front ++ (mid ++ rest) ∧ front.length = n ∧ mid.length = k := by
  obtain ⟨front, behind, rfl, hfront⟩ := exists_append_of_le (Nat.le_of_add_right_le h)
  rw [List.length_append] at h
  obtain ⟨mid, rest, rfl, hmid⟩ := exists_append_of_le (show k ≤ behind.length by omega)
  exact ⟨front, mid, rest, rfl, hfront, hmid⟩

/-! ## ranges of bytes -/

/-- The `length` bytes from `object + offset` on, all of them read. -/
def slice (object : List UInt8) (offset length : Nat) : Exec (List UInt8) :=
  if offset + length ≤ object.length then pure ((object.drop offset).take length)
  else throw (.readOutOfBounds (max offset object.length))

/-- `memset(object, value, count)`. -/
def memset (object : List UInt8) (value : UInt8) (count : Nat) : Exec (List UInt8) :=
  if count ≤ object.length then pure (List.replicate count value ++ object.drop count)
  else throw (.writeOutOfBounds object.length)

/-- `memcpy(object + offset, source, count)`. -/
def memcpy (object : List UInt8) (offset : Nat) (source : List UInt8) (count : Nat) :
    Exec (List UInt8) := do
  let bytes ← slice source 0 count
  if offset + count ≤ object.length then
    pure (object.take offset ++ (bytes ++ object.drop (offset + count)))
  else throw (.writeOutOfBounds (max offset object.length))

theorem slice_of_le (h : offset + length ≤ object.length) :
    slice object offset length = .ok ((object.drop offset).take length) := by
  simp [slice, h]

/-- Slicing a prefix of an object. -/
theorem slice_prefix (hl : xs.length = length) : slice (xs ++ ys) 0 length = .ok xs := by
  subst hl
  rw [slice_of_le (by simp)]
  simp

/-- `memset` over exactly the bytes in front. -/
theorem memset_append (h : xs.length = count) :
    memset (xs ++ ys) value count = .ok (List.replicate count value ++ ys) := by
  subst h
  simp [memset]

/-- `memcpy` replaces the middle of an object. -/
theorem memcpy_append (ho : xs.length = offset) (hm : mid.length = source.length) :
    memcpy (xs ++ (mid ++ ys)) offset source source.length = .ok (xs ++ (source ++ ys)) := by
  subst ho
  have hslice : slice source 0 source.length = .ok source := by
    rw [slice_of_le (by simp)]
    simp
  have hdrop : (xs ++ (mid ++ ys)).drop (xs.length + source.length) = ys := by
    rw [← List.append_assoc, List.drop_left' (by simp [hm])]
  simp only [memcpy, hslice, ok_bind, hdrop]
  rw [if_pos (by simp [hm])]
  simp

/-! ## what holds if a piece of C returns -/

/-- If the piece returns, what it returns meets `P`. -/
def Ensures (x : Exec α) (P : α → Prop) : Prop := ∀ a, x = .ok a → P a

theorem ensures_ok {P : α → Prop} (h : P a) : Ensures (.ok a) P := by
  intro b hb
  rwa [← Except.ok.inj hb]

theorem ensures_error (fault : Fault) (P : α → Prop) : Ensures (.error fault) P :=
  fun _ h => by contradiction

theorem Ensures.mono {x : Exec α} {P Q : α → Prop} (hx : Ensures x P) (h : ∀ a, P a → Q a) :
    Ensures x Q := fun a ha => h a (hx a ha)

/-- **Sequence**: what the first piece ensures is there for the second. -/
theorem Ensures.bind {x : Exec α} {f : α → Exec β} {P : α → Prop} {Q : β → Prop}
    (hx : Ensures x P) (hf : ∀ a, P a → Ensures (f a) Q) : Ensures (x >>= f) Q := by
  cases x with
  | error fault => exact ensures_error fault Q
  | ok a => exact hf a (hx a rfl)

/-- A piece of which nothing is known. -/
theorem ensures_true (x : Exec α) : Ensures x fun _ => True := fun _ _ => trivial

theorem ensures_writeByte (h : object.length = n) :
    Ensures (writeByte object index byte) (·.length = n) := by
  unfold writeByte
  split
  · exact ensures_ok (by rw [List.length_set, h])
  · exact ensures_error _ _

theorem ensures_orByte (h : object.length = n) :
    Ensures (orByte object index bits) (·.length = n) :=
  (ensures_true _).bind fun _ _ => ensures_writeByte h

theorem ensures_memset (h : object.length = n) :
    Ensures (memset object value count) (·.length = n) := by
  unfold memset
  split
  · refine ensures_ok ?_
    rw [List.length_append, List.length_replicate, List.length_drop]
    omega
  · exact ensures_error _ _

theorem ensures_memcpy (h : object.length = n) :
    Ensures (memcpy object offset source count) (·.length = n) := by
  have hslice : Ensures (slice source 0 count) (·.length = count) := by
    unfold slice
    split
    · refine ensures_ok ?_
      rw [List.length_take, List.length_drop]
      omega
    · exact ensures_error _ _
  refine hslice.bind fun bytes hbytes => ?_
  split
  · refine ensures_ok ?_
    rw [List.length_append, List.length_append, List.length_take, List.length_drop, hbytes]
    omega
  · exact ensures_error _ _

/-! ## sizes -/

/-- A sum of sizes as `size_t` of `w` bits holds it. -/
def toSize (w n : Nat) : Nat := n % 2 ^ w

/-- `a - b` on sizes of `w` bits. -/
def subSize (w a b : Nat) : Nat := (a + (2 ^ w - b % 2 ^ w)) % 2 ^ w

theorem toSize_of_lt (h : n < 2 ^ w) : toSize w n = n := Nat.mod_eq_of_lt h

theorem toSize_lt (w n : Nat) : toSize w n < 2 ^ w := Nat.mod_lt _ (Nat.two_pow_pos w)

/-- A sum of sizes that wraps around is below either summand, so a sum that is
not is exact. -/
theorem toSize_add_eq (hsum : toSize w (c + n) = total) (hn : n < 2 ^ w) (hc : c ≤ total) :
    c + n = total := by
  have hlt := toSize_lt w (c + n)
  by_cases hwrap : c + n < 2 ^ w
  · rw [toSize_of_lt hwrap] at hsum
    exact hsum
  · rw [toSize, Nat.mod_eq_sub_mod (by omega), Nat.mod_eq_of_lt (by omega)] at hsum
    omega

/-- A sum of sizes tells a summand, even where it wraps around. -/
theorem toSize_add_left_inj (ha : a < 2 ^ w) (hb : b < 2 ^ w) :
    toSize w (c + a) = toSize w (c + b) ↔ a = b := by
  constructor
  · intro h
    exact (Nat.ModEq.add_left_cancel' c h).eq_of_lt_of_lt ha hb
  · exact fun h => h ▸ rfl

/-- A difference of sizes that does not go below zero is the difference. -/
theorem subSize_of_le (h : b ≤ a) (ha : a < 2 ^ w) : subSize w a b = a - b := by
  have hb : b % 2 ^ w = b := Nat.mod_eq_of_lt (by omega)
  have hsum : a + (2 ^ w - b) = (a - b) + 2 ^ w := by omega
  rw [subSize, hb, hsum, Nat.add_mod_right]
  exact Nat.mod_eq_of_lt (by omega)

end CMemory
