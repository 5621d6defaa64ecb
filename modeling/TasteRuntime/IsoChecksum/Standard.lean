import Mathlib.Data.ZMod.Basic
import TasteRuntime.IsoChecksum
import TasteRuntime.Lib.Fletcher

/-!
# TasteRuntime.IsoChecksum.Standard

`IsoChecksum_calculate` is the checksum of the standard it names: two sums
modulo 255, taken byte by byte from 0, of which the checksum spells
`-(C0 + C1)` and `C1`, with 255 for 0.

Between two reductions the loop of `fletcher16` adds at most 20 bytes, so its
sums stay far below 32 bits (`Reduced.toNats_foldl`), and a last reduction
leaves numbers of one byte (`Reduced.reduce_le`).
-/

namespace TasteRuntime

open BigEndian

namespace IsoChecksum

/-! ## the loop of `fletcher16` -/

/-- The inner loop of `fletcher16`, for one byte. -/
def addByte (sums : Sums) (byte : UInt8) : Sums :=
  ⟨sums.sum1 + byte.toUInt32, sums.sum2 + (sums.sum1 + byte.toUInt32)⟩

/-- `REDUCE` of both sums. -/
def Sums.reduced (sums : Sums) : Sums := ⟨reduce sums.sum1, reduce sums.sum2⟩

theorem addChunk_eq (sums : Sums) (chunk : List UInt8) :
    addChunk sums chunk = (chunk.foldl addByte sums).reduced := rfl

theorem addChunks_nil (sums : Sums) : addChunks sums [] = sums := by
  rw [addChunks, dif_pos rfl]

theorem addChunks_of_ne_nil (sums : Sums) (h : data ≠ []) :
    addChunks sums data = addChunks (addChunk sums (data.take chunkSize))
      (data.drop chunkSize) := by
  rw [addChunks, dif_neg h]

/-- The loop goes on behind whole chunks from the sums they left. -/
theorem addChunks_append (sums : Sums) (h : chunkSize ∣ front.length) (rest : List UInt8) :
    addChunks sums (front ++ rest) = addChunks (addChunks sums front) rest := by
  induction sums, front using addChunks.induct with
  | case1 sums => rw [List.nil_append, addChunks_nil]
  | case2 sums front hne ih =>
      have hle : chunkSize ≤ front.length :=
        Nat.le_of_dvd (List.length_pos_iff.mpr hne) h
      have hrest : chunkSize ∣ (front.drop chunkSize).length := by
        rw [List.length_drop]
        exact Nat.dvd_sub h (Nat.dvd_refl _)
      rw [addChunks_of_ne_nil sums hne, addChunks_of_ne_nil sums (by simp [hne]),
        List.take_append_of_le_length hle, List.drop_append_of_le_length hle, ih hrest]

/-! ## the sums as numbers -/

/-- The two sums as numbers. -/
def Sums.toNats (sums : Sums) : Fletcher.Sums ℕ := ⟨sums.sum1.toNat, sums.sum2.toNat⟩

theorem toNat_reduce (x : UInt32) : (reduce x).toNat = x.toNat % 256 + x.toNat / 256 := by
  have hx := x.toNat_lt
  rw [reduce, UInt32.toNat_add, toNat_and_low, toNat_shiftRight_byte]
  omega

/-- A byte is added as it is while both sums have room for it. -/
theorem toNats_addByte (sums : Sums) (byte : UInt8)
    (h : sums.sum2.toNat + (sums.sum1.toNat + byte.toNat) < 2 ^ 32) :
    (addByte sums byte).toNats = sums.toNats.add byte.toNat := by
  have hsum1 : (sums.sum1 + byte.toUInt32).toNat = sums.sum1.toNat + byte.toNat := by
    rw [UInt32.toNat_add, UInt8.toNat_toUInt32, Nat.mod_eq_of_lt (by omega)]
  have hsum2 : (sums.sum2 + (sums.sum1 + byte.toUInt32)).toNat =
      sums.sum2.toNat + (sums.sum1.toNat + byte.toNat) := by
    rw [UInt32.toNat_add, hsum1, Nat.mod_eq_of_lt h]
  ext
  · exact hsum1
  · exact hsum2

/-- Bytes are added as they are when the sums after them have room. -/
theorem toNats_foldl_addByte (sums : Sums) (chunk : List UInt8)
    (h : (Fletcher.sums sums.toNats (chunk.map UInt8.toNat)).c1 < 2 ^ 32) :
    (chunk.foldl addByte sums).toNats = Fletcher.sums sums.toNats (chunk.map UInt8.toNat) := by
  induction chunk generalizing sums with
  | nil => rfl
  | cons byte chunk ih =>
      rw [List.map_cons, Fletcher.sums_cons] at h
      -- the sums only grow, so there is room for the first byte
      have hroom := (Fletcher.le_sums (sums.toNats.add byte.toNat) (chunk.map UInt8.toNat)).2
      have hbyte := toNats_addByte sums byte (Nat.lt_of_le_of_lt hroom h)
      rw [List.foldl_cons, ih (addByte sums byte) (by rwa [hbyte]), hbyte, List.map_cons,
        Fletcher.sums_cons]

/-! ## bounds -/

/-- The sums after a reduction. -/
structure Reduced (sums : Sums) : Prop where
  sum1_le : sums.sum1.toNat ≤ 275
  sum2_le : sums.sum2.toNat ≤ 486

variable {sums : Sums} {chunk : List UInt8}

theorem Reduced.initial : Reduced ⟨0xff, 0xff⟩ := ⟨by decide, by decide⟩

/-- What a chunk adds to reduced sums. -/
theorem Reduced.sums_le (h : Reduced sums) (hchunk : chunk.length ≤ chunkSize) :
    (Fletcher.sums sums.toNats (chunk.map UInt8.toNat)).c0 ≤ 5375 ∧
      (Fletcher.sums sums.toNats (chunk.map UInt8.toNat)).c1 ≤ 59536 := by
  have hbytes : ∀ n ∈ chunk.map UInt8.toNat, n ≤ 255 := by
    intro n hn
    obtain ⟨byte, -, rfl⟩ := List.mem_map.mp hn
    exact Nat.le_of_lt_succ byte.toNat_lt
  have hc0 := Fletcher.c0_le sums.toNats _ hbytes
  have hc1 := Fletcher.two_mul_c1_le sums.toNats _ hbytes
  rw [List.length_map] at hc0 hc1
  simp only [Sums.toNats, chunkSize] at hc0 hc1 hchunk ⊢
  have hsum1 := h.sum1_le
  have hsum2 := h.sum2_le
  have hfirst : 2 * chunk.length * sums.sum1.toNat ≤ 2 * 20 * 275 :=
    Nat.mul_le_mul (by omega) hsum1
  have hlengths : chunk.length * (chunk.length + 1) ≤ 20 * 21 :=
    Nat.mul_le_mul hchunk (by omega)
  omega

/-- Inside a chunk nothing overflows. -/
theorem Reduced.toNats_foldl (h : Reduced sums) (hchunk : chunk.length ≤ chunkSize) :
    (chunk.foldl addByte sums).toNats = Fletcher.sums sums.toNats (chunk.map UInt8.toNat) :=
  toNats_foldl_addByte sums chunk (Nat.lt_of_le_of_lt (h.sums_le hchunk).2 (by decide))

theorem Reduced.addChunk (h : Reduced sums) (hchunk : chunk.length ≤ chunkSize) :
    Reduced (addChunk sums chunk) := by
  have hexact := h.toNats_foldl hchunk
  obtain ⟨hc0, hc1⟩ := h.sums_le hchunk
  rw [← hexact] at hc0 hc1
  simp only [Sums.toNats] at hc0 hc1
  constructor
  · rw [addChunk_eq, Sums.reduced, toNat_reduce]
    omega
  · rw [addChunk_eq, Sums.reduced, toNat_reduce]
    omega

theorem Reduced.addChunks (h : Reduced sums) (data : List UInt8) :
    Reduced (addChunks sums data) := by
  induction sums, data using addChunks.induct with
  | case1 sums => rwa [addChunks_nil]
  | case2 sums data hne ih =>
      rw [addChunks_of_ne_nil sums hne]
      exact ih (h.addChunk (List.length_take_le _ _))

/-- A last reduction leaves a byte. -/
theorem Reduced.reduce_le (h : Reduced sums) :
    (reduce sums.sum1).toNat ≤ 255 ∧ (reduce sums.sum2).toNat ≤ 255 := by
  have hsum1 := h.sum1_le
  have hsum2 := h.sum2_le
  rw [toNat_reduce, toNat_reduce]
  omega

/-- There is room for every byte of a chunk. -/
theorem Reduced.lt_of_chunk (h : Reduced sums) (hchunk : chunk.length < chunkSize)
    (byte : UInt8) :
    (chunk.foldl addByte sums).sum1.toNat + byte.toNat < 2 ^ 32 ∧
      (chunk.foldl addByte sums).sum2.toNat +
        ((chunk.foldl addByte sums).sum1.toNat + byte.toNat) < 2 ^ 32 := by
  have hexact := h.toNats_foldl (Nat.le_of_lt hchunk)
  obtain ⟨hc0, hc1⟩ := h.sums_le (Nat.le_of_lt hchunk)
  have hbyte := byte.toNat_lt
  rw [← hexact] at hc0 hc1
  simp only [Sums.toNats] at hc0 hc1
  omega

/-! ## modulo 255 -/

/-- The bytes of a message modulo 255. -/
def residues (data : List UInt8) : List (ZMod 255) := data.map fun byte => (byte.toNat : ZMod 255)

theorem residues_append (front rest : List UInt8) :
    residues (front ++ rest) = residues front ++ residues rest :=
  List.map_append

/-- The two sums modulo 255. -/
def Sums.residues (sums : Sums) : Fletcher.Sums (ZMod 255) :=
  sums.toNats.map fun n : ℕ => (n : ZMod 255)

theorem Sums.residues_initial : Sums.residues ⟨0xff, 0xff⟩ = ⟨0, 0⟩ := rfl

/-- `REDUCE` keeps the residue. -/
theorem natCast_reduce (x : UInt32) : ((reduce x).toNat : ZMod 255) = x.toNat := by
  rw [ZMod.natCast_eq_natCast_iff', toNat_reduce]
  omega

theorem Sums.residues_reduced (sums : Sums) : sums.reduced.residues = sums.residues := by
  ext
  · exact natCast_reduce sums.sum1
  · exact natCast_reduce sums.sum2

theorem Reduced.residues_addChunk (h : Reduced sums) (hchunk : chunk.length ≤ chunkSize) :
    (IsoChecksum.addChunk sums chunk).residues =
      Fletcher.sums sums.residues (residues chunk) := by
  rw [addChunk_eq, Sums.residues_reduced, Sums.residues, h.toNats_foldl hchunk,
    Fletcher.map_sums _ (fun a b => Nat.cast_add a b), List.map_map]
  rfl

/-- The loop computes the two sums modulo 255. -/
theorem Reduced.residues_addChunks (h : Reduced sums) (data : List UInt8) :
    (IsoChecksum.addChunks sums data).residues =
      Fletcher.sums sums.residues (residues data) := by
  induction sums, data using addChunks.induct with
  | case1 sums => rw [addChunks_nil]; rfl
  | case2 sums data hne ih =>
      have hchunk : (data.take chunkSize).length ≤ chunkSize := List.length_take_le _ _
      have hsplit : residues data =
          residues (data.take chunkSize) ++ residues (data.drop chunkSize) := by
        rw [← residues_append, List.take_append_drop]
      rw [addChunks_of_ne_nil sums hne, ih (h.addChunk hchunk), h.residues_addChunk hchunk, hsplit,
        Fletcher.sums_append]

/-! ## the standard -/

/-- The two sums of the standard: from 0, byte by byte. -/
def standardSums (data : List UInt8) : Fletcher.Sums (ZMod 255) :=
  Fletcher.sums ⟨0, 0⟩ (residues data)

/-- A residue as a byte that is not 0. -/
def spelled (x : ZMod 255) : ℕ := if x.val = 0 then 255 else x.val

/-- The checksum of the standard: the high byte spells `-(C0 + C1)`, the low
byte `C1`. -/
def standard (data : List UInt8) : UInt16 :=
  UInt16.ofNat (spelled (-((standardSums data).c0 + (standardSums data).c1)) * 256 +
    spelled (standardSums data).c1)

theorem spelled_bounds (x : ZMod 255) : 1 ≤ spelled x ∧ spelled x ≤ 255 := by
  have hx := x.val_lt
  unfold spelled
  split <;> omega

theorem natCast_spelled (x : ZMod 255) : (spelled x : ZMod 255) = x := by
  unfold spelled
  split
  · rename_i h
    rw [(ZMod.val_eq_zero x).mp h]
    rfl
  · exact ZMod.natCast_zmod_val x

/-- The one byte that is not 0 spells its residue. -/
theorem spelled_natCast {n : ℕ} (hpos : 1 ≤ n) (hle : n ≤ 255) : spelled (n : ZMod 255) = n := by
  obtain ⟨hpos', hle'⟩ := spelled_bounds (n : ZMod 255)
  have hmod := (ZMod.natCast_eq_natCast_iff' _ _ _).mp (natCast_spelled (n : ZMod 255))
  omega

theorem spelled_inj : spelled x = spelled y ↔ x = y := by
  constructor
  · intro h
    rw [← natCast_spelled x, h, natCast_spelled]
  · exact congrArg spelled

theorem toNat_standard (data : List UInt8) :
    (standard data).toNat =
      spelled (-((standardSums data).c0 + (standardSums data).c1)) * 256 +
        spelled (standardSums data).c1 := by
  have hhi := spelled_bounds (-((standardSums data).c0 + (standardSums data).c1))
  have hlo := spelled_bounds (standardSums data).c1
  rw [standard, UInt16.toNat_ofNat', Nat.mod_eq_of_lt (by omega)]

/-- The checksum tells both sums. -/
theorem standardSums_eq_of_standard_eq (h : standard data = standard data') :
    standardSums data = standardSums data' := by
  have hbytes := congrArg UInt16.toNat h
  have hlo := spelled_bounds (standardSums data).c1
  have hlo' := spelled_bounds (standardSums data').c1
  rw [toNat_standard, toNat_standard] at hbytes
  have hc1 : (standardSums data).c1 = (standardSums data').c1 := spelled_inj.mp (by omega)
  have hc0 := spelled_inj.mp (show spelled (-((standardSums data).c0 + (standardSums data).c1)) =
    spelled (-((standardSums data').c0 + (standardSums data').c1)) by omega)
  ext
  · rwa [hc1, neg_inj, add_left_inj] at hc0
  · exact hc1

/-! ## `IsoChecksum_calculate` -/

/-- `MAKE_UINT16` of two bytes. -/
theorem toNat_makeUInt16 (hhi : hi.toNat ≤ 255) (hlo : lo.toNat ≤ 255) :
    (makeUInt16 hi lo).toNat = hi.toNat * 256 + lo.toNat := by
  have hjoin : hi.toNat * 256 ||| lo.toNat = hi.toNat * 256 + lo.toNat :=
    mul_two_pow_or (k := 8) _ (by omega)
  rw [makeUInt16, UInt32.toNat_toUInt16, UInt32.toNat_or, toNat_shiftLeft_byte,
    Nat.mod_eq_of_lt (show hi.toNat * 256 < 2 ^ 32 by omega), hjoin]
  omega

/-- The two bytes of `fletcher16` are the reduced sums. -/
theorem toNat_fletcher16 (data : List UInt8) :
    (fletcher16 data).toNat = (reduce (addChunks ⟨0xff, 0xff⟩ data).sum2).toNat * 256 +
      (reduce (addChunks ⟨0xff, 0xff⟩ data).sum1).toNat :=
  have hle := (Reduced.initial.addChunks data).reduce_le
  toNat_makeUInt16 hle.2 hle.1

/-- `0xFF - ((a + b) % 0xFF)` of two bytes. -/
theorem toNat_complement {a b : UInt32} (ha : a.toNat ≤ 255) (hb : b.toNat ≤ 255) :
    (0xFF - ((a + b) % 0xFF)).toNat = 255 - (a.toNat + b.toNat) % 255 := by
  have hsum : (a + b).toNat = a.toNat + b.toNat := by
    rw [UInt32.toNat_add, Nat.mod_eq_of_lt (by omega)]
  have hmod : ((a + b) % 0xFF).toNat = (a.toNat + b.toNat) % 255 := by
    rw [UInt32.toNat_mod, hsum]
    rfl
  rw [UInt32.toNat_sub_of_le, hmod]
  · rfl
  · rw [UInt32.le_iff_toNat_le, hmod]
    exact Nat.le_of_lt (Nat.mod_lt _ (by decide))

/-- The complement is the negative modulo 255, and never spelled 0. -/
theorem spelled_neg (m : ℕ) : spelled (-(m : ZMod 255)) = 255 - m % 255 := by
  have hmod := Nat.mod_lt m (show 0 < 255 by decide)
  have hcast : ((255 - m % 255 : ℕ) : ZMod 255) = -m := by
    rw [eq_neg_iff_add_eq_zero, ← Nat.cast_add, ZMod.natCast_eq_zero_iff]
    omega
  rw [← hcast, spelled_natCast (by omega) (by omega)]

/-- `IsoChecksum_calculate` from the two bytes of `fletcher16`. -/
theorem toNat_calculate (h : (fletcher16 data).toNat = f1 * 256 + f0) (hf0 : f0 ≤ 255)
    (hf1 : f1 ≤ 255) :
    (calculate data).toNat =
      (255 - (f0 + f1) % 255) * 256 + (255 - (f0 + (255 - (f0 + f1) % 255)) % 255) := by
  have hlo : ((fletcher16 data).toUInt32 &&& 0xFF).toNat = f0 := by
    rw [toNat_and_low, UInt16.toNat_toUInt32, h]
    omega
  have hhi : (((fletcher16 data).toUInt32 >>> 8) &&& 0xFF).toNat = f1 := by
    rw [toNat_and_low, toNat_shiftRight_byte, UInt16.toNat_toUInt32, h]
    omega
  have hc0 := toNat_complement (by rwa [hlo]) (by rwa [hhi])
  have hc1 := toNat_complement (by rwa [hlo]) (by rw [hc0]; omega)
  rw [calculate, toNat_makeUInt16 (by rw [hc0]; omega) (by rw [hc1]; omega), hc1, hc0, hlo, hhi]

/-- The implementation agrees with the standard. -/
theorem calculate_eq_standard (data : List UInt8) : calculate data = standard data := by
  obtain ⟨hf0, hf1⟩ := (Reduced.initial.addChunks data).reduce_le
  have hsums : (addChunks ⟨0xff, 0xff⟩ data).residues = standardSums data := by
    rw [Reduced.initial.residues_addChunks, Sums.residues_initial, standardSums]
  have hc0 : (standardSums data).c0 = (reduce (addChunks ⟨0xff, 0xff⟩ data).sum1).toNat := by
    rw [natCast_reduce, ← hsums]
    rfl
  have hc1 : (standardSums data).c1 = (reduce (addChunks ⟨0xff, 0xff⟩ data).sum2).toNat := by
    rw [natCast_reduce, ← hsums]
    rfl
  have hhi := spelled_neg ((reduce (addChunks ⟨0xff, 0xff⟩ data).sum1).toNat +
    (reduce (addChunks ⟨0xff, 0xff⟩ data).sum2).toNat)
  rw [Nat.cast_add, ← hc0, ← hc1] at hhi
  -- the low byte is the negative of `C0` and the high byte, which leaves `C1`
  have hlo := spelled_neg ((reduce (addChunks ⟨0xff, 0xff⟩ data).sum1).toNat +
    spelled (-((standardSums data).c0 + (standardSums data).c1)))
  rw [Nat.cast_add, ← hc0, natCast_spelled, neg_add, neg_neg, neg_add_cancel_left, hhi] at hlo
  apply UInt16.toNat_inj.mp
  rw [toNat_calculate (toNat_fletcher16 data) hf0 hf1, toNat_standard, hhi, hlo]

/-- **The standard's checksum**: the implementation computes it, without any
overflow of its sums, and joins two bytes in `MAKE_UINT16`. -/
theorem calculate_meets_standard (data : List UInt8) :
    calculate data = standard data ∧
      (∀ front chunk byte rest, data = front ++ (chunk ++ byte :: rest) →
        chunkSize ∣ front.length → chunk.length < chunkSize →
        addChunks ⟨0xff, 0xff⟩ data =
            addChunks (addChunks ⟨0xff, 0xff⟩ front) (chunk ++ byte :: rest) ∧
          (chunk.foldl addByte (addChunks ⟨0xff, 0xff⟩ front)).sum1.toNat + byte.toNat < 2 ^ 32 ∧
          (chunk.foldl addByte (addChunks ⟨0xff, 0xff⟩ front)).sum2.toNat +
            ((chunk.foldl addByte (addChunks ⟨0xff, 0xff⟩ front)).sum1.toNat + byte.toNat) <
              2 ^ 32) ∧
      (reduce (addChunks ⟨0xff, 0xff⟩ data).sum1).toNat ≤ 255 ∧
      (reduce (addChunks ⟨0xff, 0xff⟩ data).sum2).toNat ≤ 255 ∧
      (fletcher16 data).toNat = (reduce (addChunks ⟨0xff, 0xff⟩ data).sum2).toNat * 256 +
        (reduce (addChunks ⟨0xff, 0xff⟩ data).sum1).toNat := by
  obtain ⟨hsum1, hsum2⟩ := (Reduced.initial.addChunks data).reduce_le
  refine ⟨calculate_eq_standard data, ?_, hsum1, hsum2, toNat_fletcher16 data⟩
  intro front chunk byte rest hdata hfront hchunk
  have hreduced := Reduced.initial.addChunks front
  exact ⟨by rw [hdata, addChunks_append _ hfront], hreduced.lt_of_chunk hchunk byte⟩

example : standard [0xAB, 0xCD, 0xEF, 0x01] = 0x9CF8 := by decide

end IsoChecksum

end TasteRuntime
