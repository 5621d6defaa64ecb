import TasteRuntime.Lib.BigEndian

/-!
# TasteRuntime.IsoChecksum

The checksum of the strict CCSDS packet format (`IsoChecksum.c`): a Fletcher
checksum whose two sums are reduced once every 20 bytes.
-/

namespace TasteRuntime

namespace IsoChecksum

/-- `CHUNK_SIZE` -/
def chunkSize : Nat := 20

/-- `REDUCE(x)` -/
def reduce (x : UInt32) : UInt32 := (x &&& (0xFF : UInt32)) + (x >>> (8 : UInt32))

/-- `MAKE_UINT16(hi, lo)` -/
def makeUInt16 (hi lo : UInt32) : UInt16 := ((hi <<< 8) ||| lo).toUInt16

/-- The two sums of `fletcher16`. -/
structure Sums where
  sum1 : UInt32
  sum2 : UInt32
  deriving DecidableEq, Repr

/-- The inner loop of `fletcher16`: one chunk, then both sums reduced. -/
def addChunk (sums : Sums) (chunk : List UInt8) : Sums :=
  let added := chunk.foldl (fun s byte =>
    let sum1 := s.sum1 + byte.toUInt32
    ⟨sum1, s.sum2 + sum1⟩) sums
  ⟨reduce added.sum1, reduce added.sum2⟩

/-- The outer loop of `fletcher16`, one chunk of at most `CHUNK_SIZE` bytes at
a time. -/
def addChunks (sums : Sums) (data : List UInt8) : Sums :=
  if _empty : data = [] then sums
  else addChunks (addChunk sums (data.take chunkSize)) (data.drop chunkSize)
termination_by data.length
decreasing_by
  have hpos : 0 < data.length := List.length_pos_iff.mpr _empty
  rw [List.length_drop, chunkSize]
  omega

/-- `fletcher16` -/
def fletcher16 (data : List UInt8) : UInt16 :=
  let sums := addChunks ⟨0xff, 0xff⟩ data
  makeUInt16 (reduce sums.sum2) (reduce sums.sum1)

/-- `IsoChecksum_calculate` -/
def calculate (data : List UInt8) : UInt16 :=
  let sum := fletcher16 data
  let f0 : UInt32 := sum.toUInt32 &&& 0xFF
  let f1 : UInt32 := (sum.toUInt32 >>> 8) &&& 0xFF
  let c0 := 0xFF - ((f0 + f1) % 0xFF)
  let c1 := 0xFF - ((f0 + c0) % 0xFF)
  makeUInt16 c0 c1

end IsoChecksum

end TasteRuntime
