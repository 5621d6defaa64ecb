import TasteRuntime.Lib.PrefixFree
import TasteRuntime.Broker.Rejection

/-!
# TasteRuntime.Integrity.Length

Packets that lost their end or were run together with what follows.  The
formats with a header declare the length of a packet inside its first bytes,
so nothing that an accepted packet begins, and nothing that begins with one,
is accepted as well (`receivePacket_resized`), and a series of accepted packets
can be cut in one way only (`uniquelyDecodable_accepted`).
-/

namespace TasteRuntime

open CMemory BigEndian PacketFormat InformationTheory

/-- One is the other with bytes cut off its end. -/
def Resized (packet other : List UInt8) : Prop :=
  other ≠ packet ∧ (other <+: packet ∨ packet <+: other)

namespace PacketFormat

/-! ## the declared length is in front -/

theorem wordAt_take (h : index + 1 < k) (packet : List UInt8) :
    wordAt (packet.take k) index = wordAt packet index := by
  simp only [wordAt, List.getD_eq_getElem?_getD, List.getElem?_take_of_lt h,
    List.getElem?_take_of_lt (Nat.lt_of_succ_lt h)]

theorem strictSize_take (h : 6 ≤ k) (packet : List UInt8) :
    strictSize (packet.take k) = strictSize packet := by
  rw [strictSize, wordAt_take h, strictSize]

theorem thinSize_take (h : 4 ≤ k) (packet : List UInt8) :
    thinSize (packet.take k) = thinSize packet := by
  simp only [thinSize, List.getD_eq_getElem?_getD, List.getElem?_take_of_lt (show 2 < k from
    Nat.lt_of_succ_lt h), List.getElem?_take_of_lt (show 3 < k from h)]

end PacketFormat

/-- A format with a header is not a device's. -/
theorem PacketizerCfg.HasHeader.ne_deviceProvided {cfg : PacketizerCfg} (h : cfg.HasHeader) :
    cfg ≠ .deviceProvided := by
  obtain rfl | rfl | rfl | rfl := h <;> decide

theorem PacketizerCfg.HasHeader.minimumSize_pos {cfg : PacketizerCfg} (h : cfg.HasHeader) :
    0 < cfg.minimumSize := by
  obtain rfl | rfl | rfl | rfl := h <;> decide

namespace SystemSpec

variable {spec : SystemSpec} {bus : spec.Bus}

/-- The length a packet declares in the format of a bus. -/
def declaredLength (spec : SystemSpec) (bus : spec.Bus) (packet : List UInt8) : Nat :=
  match spec.busToPacketizerCfg bus with
  | .default | .ccsds => toSize spec.sizeBits (defaultSize packet) + 12
  | .strictCcsds => 6 + strictSize packet
  | .thin => 4 + thinSize packet
  | .passthrough | .deviceProvided => packet.length

/-- How a packet of another length than it declares is rejected. -/
def lengthError (spec : SystemSpec) (bus : spec.Bus) (packet : List UInt8) : Option ErrorCode :=
  if (spec.busToPacketizerCfg bus).minimumSize ≤ packet.length then some .incorrectPacketSize
  else if spec.busToPacketizerCfg bus = .default ∨ spec.busToPacketizerCfg bus = .ccsds then
    some .packetTooSmall
  else none

/-- A packet that is accepted has the length it declares. -/
theorem length_of_verdict (hcfg : (spec.busToPacketizerCfg bus).HasHeader)
    (h : spec.verdict bus packet = .accept) :
    (spec.busToPacketizerCfg bus).minimumSize ≤ packet.length ∧
      spec.declaredLength bus packet = packet.length := by
  obtain hfmt | hfmt | hfmt | hfmt := hcfg <;>
    simp only [verdict, declaredLength, hfmt, PacketizerCfg.minimumSize] at h ⊢
  case inr.inr.inr =>
    refine ⟨le_length_of_thinVerdict h, ?_⟩
    by_contra hne
    rw [thinVerdict, if_neg (Nat.not_lt.mpr (le_length_of_thinVerdict h)), if_pos hne] at h
    contradiction
  case inr.inr.inl =>
    obtain ⟨hle, hsize, -, -⟩ := strictVerdict_eq_accept_iff.mp h
    exact ⟨hle, hsize⟩
  all_goals
    obtain ⟨hle, hsize, -, -⟩ := defaultVerdict_eq_accept_iff.mp h
    exact ⟨hle, hsize⟩

/-- A packet of another length is rejected. -/
theorem verdict_of_length_ne (hcfg : (spec.busToPacketizerCfg bus).HasHeader)
    (h : (spec.busToPacketizerCfg bus).minimumSize ≤ packet.length →
      spec.declaredLength bus packet ≠ packet.length) :
    spec.verdict bus packet = .reject (spec.lengthError bus packet) := by
  obtain hfmt | hfmt | hfmt | hfmt := hcfg <;>
    simp only [verdict, declaredLength, lengthError, hfmt, PacketizerCfg.minimumSize] at h ⊢
  case inr.inr.inr =>
    unfold thinVerdict
    by_cases hsmall : packet.length < 4
    · simp [hsmall, Nat.not_le.mpr hsmall]
    · simp [hsmall, h (Nat.le_of_not_lt hsmall), Nat.le_of_not_lt hsmall]
  case inr.inr.inl =>
    unfold strictVerdict
    by_cases hsmall : packet.length ≤ 8
    · simp [hsmall, Nat.not_le.mpr (Nat.lt_succ_of_le hsmall)]
    · simp [hsmall, h (Nat.lt_of_not_le hsmall), Nat.succ_le_of_lt (Nat.lt_of_not_le hsmall)]
  all_goals
    unfold defaultVerdict
    by_cases hsmall : packet.length < 12
    · simp [hsmall, Nat.not_le.mpr hsmall]
    · simp [hsmall, h (Nat.le_of_not_lt hsmall), Nat.le_of_not_lt hsmall]

/-- What declares the length is in the smallest packet. -/
theorem declaredLength_take (hcfg : (spec.busToPacketizerCfg bus).HasHeader)
    (h : (spec.busToPacketizerCfg bus).minimumSize ≤ k) (packet : List UInt8) :
    spec.declaredLength bus (packet.take k) = spec.declaredLength bus packet := by
  obtain hfmt | hfmt | hfmt | hfmt := hcfg <;>
    simp only [declaredLength, hfmt, PacketizerCfg.minimumSize] at h ⊢
  case inr.inr.inr => rw [thinSize_take h]
  case inr.inr.inl => rw [strictSize_take (Nat.le_of_add_right_le (show 6 + 3 ≤ k from h))]
  all_goals rw [defaultSize_take (Nat.le_of_add_right_le (show 8 + 4 ≤ k from h))]

/-- A packet that begins another one declares the same length. -/
theorem declaredLength_prefix_eq (hcfg : (spec.busToPacketizerCfg bus).HasHeader)
    (hle : (spec.busToPacketizerCfg bus).minimumSize ≤ packet.length)
    (h : packet <+: other) :
    spec.declaredLength bus packet = spec.declaredLength bus other := by
  rw [List.prefix_iff_eq_take.mp h, declaredLength_take hcfg hle]

/-- A packet that was resized after it would have been accepted is rejected
for its length. -/
theorem verdict_of_resized (hcfg : (spec.busToPacketizerCfg bus).HasHeader)
    (h : spec.verdict bus packet = .accept) (hresized : Resized packet other) :
    spec.verdict bus other = .reject (spec.lengthError bus other) := by
  obtain ⟨hne, hbegins⟩ := hresized
  obtain ⟨hle, hdeclared⟩ := length_of_verdict hcfg h
  refine verdict_of_length_ne hcfg fun hle' hlength => hne ?_
  obtain hbegins | hbegins := hbegins
  · rw [declaredLength_prefix_eq hcfg hle' hbegins, hdeclared] at hlength
    exact hbegins.eq_of_length hlength.symm
  · rw [← declaredLength_prefix_eq hcfg hle hbegins, hdeclared] at hlength
    exact (hbegins.eq_of_length hlength).symm

/-- No packet that is accepted begins another one. -/
theorem prefixFree_accepted (hcfg : (spec.busToPacketizerCfg bus).HasHeader) :
    PrefixFree {packet | spec.verdict bus packet = .accept} := by
  intro packet haccept other haccept' hbegins
  by_contra hne
  have hreject := verdict_of_resized hcfg haccept ⟨Ne.symm hne, .inr hbegins⟩
  rw [haccept'] at hreject
  contradiction

end SystemSpec

namespace Broker

/-- The packet is accepted on a bus. -/
def Accepts (broker : Broker spec) (bus : spec.Bus) (packet : List UInt8) : Prop :=
  ∃ out, (packetizersFunctions spec (spec.busToPacketizerCfg bus)).depacketize
    (broker.packetizersData bus) spec.expectPacketType packet bus ⟨0, 0, 0, 0, some 0⟩ =
      .ok (true, out)

theorem accepts_iff (broker : Broker spec) {bus : spec.Bus}
    (hcfg : spec.busToPacketizerCfg bus ≠ .deviceProvided)
    (hw : packet.length < 2 ^ spec.sizeBits) :
    broker.Accepts bus packet ↔ spec.verdict bus packet = .accept := by
  simp only [Accepts, depacketize_eq _ hcfg hw, Except.ok.injEq, Verdict.outcome_eq_true_iff]
  exact ⟨fun ⟨_, h, _⟩ => h, fun h => ⟨_, h, rfl⟩⟩

/-- The error the broker reports for a packet of another length than it
declares. -/
def lengthErrorType (spec : SystemSpec) (bus : spec.Bus) (length : Nat) : BrokerErrorType :=
  if (spec.busToPacketizerCfg bus).minimumSize ≤ length then .incorrectPacketSize
  else if spec.busToPacketizerCfg bus = .default ∨ spec.busToPacketizerCfg bus = .ccsds then
    .packetTooSmall
  else .unknownError

/-- **Lost ends**: on a bus whose format has a header, whatever an accepted
packet begins and whatever begins with one is rejected for its length, with
nothing delivered.  Only below the minimum of the strict and the thin format
there is no cause, and the error is the unknown one. -/
theorem receivePacket_resized (broker : Broker spec) (bus : spec.Bus)
    (hcfg : (spec.busToPacketizerCfg bus).HasHeader) (hw : packet.length < 2 ^ spec.sizeBits)
    (hw' : other.length < 2 ^ spec.sizeBits) (haccepts : broker.Accepts bus packet)
    (hresized : Resized packet other) :
    receivePacket spec broker bus other = .ok (broker,
      [.acquireLock] ++
        (if broker.brokerErrorCallback then
          [.errorDetected (lengthErrorType spec bus other.length) other] else []) ++
        [.releaseLock]) := by
  have hdevice := hcfg.ne_deviceProvided
  have hreject := SystemSpec.verdict_of_resized hcfg ((accepts_iff broker hdevice hw).mp haccepts)
    hresized
  rw [receivePacket_eq broker hdevice hw', hreject]
  have herror : packetizerErrorToBrokerError
      (((spec.lengthError bus other).map ErrorCode.toInt32).getD 0) =
        lengthErrorType spec bus other.length := by
    unfold SystemSpec.lengthError lengthErrorType
    split_ifs <;> rfl
  simp only [rejection, herror]

/-- A thin packet without its last byte, and with the first of another. -/
theorem receivePacket_resized_thin :
    let packet := [0, 0, 0, 1, 7, 8]
    let bus : (SystemSpec.mock .thin).Bus := ⟨1, by decide⟩
    let broker := (static (.mock .thin)).registerErrorCallback true
    receivePacket _ broker bus [0, 0, 0, 1, 7] = .ok (broker, [.acquireLock] ++
        (if true then [.errorDetected (lengthErrorType (.mock .thin) bus 5) [0, 0, 0, 1, 7]]
          else []) ++ [.releaseLock]) ∧
      receivePacket _ broker bus (packet ++ [0]) = .ok (broker, [.acquireLock] ++
        (if true then [.errorDetected (lengthErrorType (.mock .thin) bus 7) (packet ++ [0])]
          else []) ++ [.releaseLock]) := by
  have haccepts : Broker.Accepts ((static (.mock .thin)).registerErrorCallback true)
      ⟨1, by decide⟩ [0, 0, 0, 1, 7, 8] := ⟨_, rfl⟩
  have hcfg : ((SystemSpec.mock .thin).busToPacketizerCfg ⟨1, by decide⟩).HasHeader :=
    .inr (.inr (.inr rfl))
  exact ⟨receivePacket_resized _ _ hcfg (by decide) (by decide) haccepts
      ⟨by decide, .inl (List.prefix_append [0, 0, 0, 1, 7] [8])⟩,
    receivePacket_resized _ _ hcfg (by decide) (by decide) haccepts
      ⟨by decide, .inr (List.prefix_append _ _)⟩⟩

/-- **Framing**: on a bus whose format has a header a series of accepted
packets can be told apart again. -/
theorem uniquelyDecodable_accepted (broker : Broker spec) (bus : spec.Bus)
    (hcfg : (spec.busToPacketizerCfg bus).HasHeader) :
    UniquelyDecodable {packet | packet.length < 2 ^ spec.sizeBits ∧ broker.Accepts bus packet} := by
  have hdevice := hcfg.ne_deviceProvided
  have haccept {packet : List UInt8} (h : packet.length < 2 ^ spec.sizeBits ∧
      broker.Accepts bus packet) : spec.verdict bus packet = .accept :=
    (accepts_iff broker hdevice h.1).mp h.2
  refine PrefixFree.uniquelyDecodable (fun packet h other h' => ?_) fun hnil => ?_
  · exact SystemSpec.prefixFree_accepted hcfg packet (haccept h) other (haccept h')
  · have hempty : (spec.busToPacketizerCfg bus).minimumSize ≤ 0 :=
      (SystemSpec.length_of_verdict hcfg (haccept hnil)).1
    exact absurd hempty (Nat.not_le.mpr hcfg.minimumSize_pos)

/-- The accepted packets of a thin bus. -/
theorem uniquelyDecodable_accepted_thin :
    UniquelyDecodable {packet | packet.length < 2 ^ 64 ∧
      (static (.mock .thin)).Accepts ⟨1, by decide⟩ packet} :=
  uniquelyDecodable_accepted (static (.mock .thin)) ⟨1, by decide⟩ (.inr (.inr (.inr rfl)))

end Broker

end TasteRuntime
