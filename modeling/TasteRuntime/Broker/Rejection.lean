import TasteRuntime.Broker.Receive

/-!
# TasteRuntime.Broker.Rejection

How a rejected packet is reported.  A depacketize function that fails is to
say why in `*errorCode`, which the broker translates for its error callback.
The strict and the thin format return from their first check, the one for
packets below the size of the format, without a code: exactly then the cause
is lost, and the broker reports an unknown error (`reportsCause_iff`).
-/

namespace TasteRuntime

open CMemory PacketFormat

/-! ## the error protocol -/

/-- A depacketize function that rejects the packet names a cause, the size of
the packet exactly if it is below that of the format, and leaves the other
outputs as they were. -/
def ReportsCause (Bus : Type) (depacketize : DepacketizeFunction Bus) (minimumSize : Nat)
    (packetType : PacketType) (packet : List UInt8) : Prop :=
  ∀ self busId out out', out.errorCode = some 0 →
    depacketize self packetType packet busId out = .ok (false, out') →
    ∃ code : ErrorCode, out' = { out with errorCode := some code.toInt32 } ∧
      (code = .packetTooSmall ↔ packet.length < minimumSize)

/-- A verdict rejects with a cause, its size exactly if the packet is small. -/
def Verdict.NamesCause (small : Prop) (verdict : Verdict) : Prop :=
  ∀ code, verdict = .reject code → ∃ c, code = some c ∧ (c = .packetTooSmall ↔ small)

/-- A depacketize function that decides by a verdict reports what it names. -/
theorem reportsCause_iff_namesCause {depacketize : DepacketizeFunction Bus} {verdict : Verdict}
    {accepted : DepacketizeOut → DepacketizeOut} (bus : Bus)
    (h : ∀ self busId out, depacketize self packetType packet busId out =
      .ok (verdict.outcome out (accepted out))) :
    ReportsCause Bus depacketize minimumSize packetType packet ↔
      verdict.NamesCause (packet.length < minimumSize) := by
  constructor
  · rintro hreports code rfl
    obtain ⟨c, hc, hsmall⟩ := hreports ⟨0⟩ bus ⟨0, 0, 0, 0, some 0⟩ _ rfl (h _ _ _)
    cases code with
    | none =>
        -- the code is still 0, which is none of them
        have hzero : (0 : Int32) = c.toInt32 :=
          Option.some.inj (congrArg DepacketizeOut.errorCode hc)
        cases c <;> contradiction
    | some code =>
        have hcode : code.toInt32 = c.toInt32 :=
          Option.some.inj (congrArg DepacketizeOut.errorCode hc)
        exact ⟨code, rfl, by rwa [ErrorCode.toInt32_inj.mp hcode]⟩
  · intro hnames self busId out out' hzero hout
    rw [h, Except.ok.injEq] at hout
    cases hverdict : verdict with
    | accept => simp [hverdict, Verdict.outcome] at hout
    | reject code =>
        obtain ⟨c, rfl, hsmall⟩ := hnames code hverdict
        refine ⟨c, ?_, hsmall⟩
        rw [hverdict] at hout
        rw [← (Prod.mk.inj hout).2, DepacketizeOut.reject, DepacketizeOut.setErrorCode, hzero]
        rfl

/-! ## what the formats name -/

theorem namesCause_defaultVerdict (w : Nat) (packetType : PacketType) (packet : List UInt8) :
    (defaultVerdict w packetType packet).NamesCause (packet.length < 12) := by
  intro code hreject
  unfold defaultVerdict at hreject
  split_ifs at hreject with hsmall
  · exact ⟨.packetTooSmall, (Verdict.reject.inj hreject).symm, iff_of_true rfl hsmall⟩
  all_goals exact ⟨_, (Verdict.reject.inj hreject).symm, iff_of_false (by decide) hsmall⟩

theorem namesCause_strictVerdict_iff (packetType : PacketType) (packet : List UInt8) :
    (strictVerdict packetType packet).NamesCause (packet.length < 9) ↔ 9 ≤ packet.length := by
  unfold strictVerdict
  constructor
  · intro hnames
    by_contra hsmall
    obtain ⟨c, hc, -⟩ := hnames none (if_pos (by omega))
    contradiction
  · intro hle code hreject
    rw [if_neg (by omega)] at hreject
    split_ifs at hreject
    all_goals
      exact ⟨_, (Verdict.reject.inj hreject).symm, iff_of_false (by decide) (Nat.not_lt.mpr hle)⟩

theorem namesCause_thinVerdict_iff (packet : List UInt8) :
    (thinVerdict packet).NamesCause (packet.length < 4) ↔ 4 ≤ packet.length := by
  unfold thinVerdict
  constructor
  · intro hnames
    by_contra hsmall
    obtain ⟨c, hc, -⟩ := hnames none (if_pos (by omega))
    contradiction
  · intro hle code hreject
    rw [if_neg (by omega)] at hreject
    split_ifs at hreject
    exact ⟨_, (Verdict.reject.inj hreject).symm, iff_of_false (by decide) (Nat.not_lt.mpr hle)⟩

namespace PacketizerCfg

/-- The formats with a header of their own. -/
def HasHeader (cfg : PacketizerCfg) : Prop :=
  cfg = .default ∨ cfg = .ccsds ∨ cfg = .strictCcsds ∨ cfg = .thin

/-- The size of the smallest packet of a format. -/
def minimumSize : PacketizerCfg → Nat
  | .default | .ccsds => 12
  | .strictCcsds => 9
  | .thin => 4
  | .deviceProvided | .passthrough => 0

end PacketizerCfg

namespace Broker

/-- The depacketize function of a format reports the cause of a rejection
unless the format is strict or thin and the packet is below its size. -/
theorem reportsCause_depacketize_iff (bus : spec.Bus) (packetType : PacketType)
    {cfg : PacketizerCfg} (hcfg : cfg.HasHeader) (hw : packet.length < 2 ^ spec.sizeBits) :
    ReportsCause spec.Bus (packetizersFunctions spec cfg).depacketize cfg.minimumSize packetType
        packet ↔
      cfg = .default ∨ cfg = .ccsds ∨ cfg.minimumSize ≤ packet.length := by
  obtain rfl | rfl | rfl | rfl := hcfg
  · exact iff_of_true ((reportsCause_iff_namesCause bus fun self busId out =>
      Packetizer.depacketize_eq self packetType busId out hw).mpr
        (namesCause_defaultVerdict spec.sizeBits packetType packet)) (.inl rfl)
  · exact iff_of_true ((reportsCause_iff_namesCause bus fun self busId out =>
      Packetizer.depacketize_eq self packetType busId out hw).mpr
        (namesCause_defaultVerdict spec.sizeBits packetType packet)) (.inr (.inl rfl))
  · rw [packetizersFunctions, reportsCause_iff_namesCause bus fun self busId out =>
      CCSDSPacketizer.depacketize_eq self packetType busId out spec.sizeBits_ge hw]
    simpa [PacketizerCfg.minimumSize] using namesCause_strictVerdict_iff packetType packet
  · rw [packetizersFunctions, reportsCause_iff_namesCause bus fun self busId out =>
      ThinPacketizer.depacketize_eq self packetType busId out spec.sizeBits_ge hw]
    simpa [PacketizerCfg.minimumSize] using namesCause_thinVerdict_iff packet

/-- Every code of the packetizers has an error of the broker. -/
theorem packetizerErrorToBrokerError_ne (code : ErrorCode) :
    packetizerErrorToBrokerError code.toInt32 ≠ .unknownError := by
  cases code <;> decide

/-- If the depacketize function of a bus reports the cause of a rejection, so
does the broker. -/
theorem unknownError_notMem {broker broker' : Broker spec} {bus : spec.Bus}
    (hreports : ReportsCause spec.Bus
      (packetizersFunctions spec (spec.busToPacketizerCfg bus)).depacketize minimumSize
      spec.expectPacketType packet)
    (h : receivePacket spec broker bus packet = .ok (broker', calls)) (data : List UInt8) :
    .errorDetected .unknownError data ∉ calls := by
  intro hmem
  obtain ⟨out, hout, herror⟩ :=
    (ensures_receivePacket broker bus packet (fun _ => id) _ h).2 _ _ hmem
  obtain ⟨code, rfl, -⟩ := hreports _ _ _ _ rfl hout
  exact packetizerErrorToBrokerError_ne code herror.symm

/-- **Causes**: a rejection on a bus whose format has a header is reported
with its cause, and the broker never reports an unknown error, exactly if the
format is not the strict or the thin one or the packet is not below its size. -/
theorem reportsCause_iff (bus : spec.Bus) (packetType : PacketType)
    (hcfg : (spec.busToPacketizerCfg bus).HasHeader) (hw : packet.length < 2 ^ spec.sizeBits) :
    (ReportsCause spec.Bus (packetizersFunctions spec (spec.busToPacketizerCfg bus)).depacketize
        (spec.busToPacketizerCfg bus).minimumSize packetType packet ∧
      ∀ (broker broker' : Broker spec) calls data,
        receivePacket spec broker bus packet = .ok (broker', calls) →
        .errorDetected .unknownError data ∉ calls) ↔
    spec.busToPacketizerCfg bus = .default ∨ spec.busToPacketizerCfg bus = .ccsds ∨
      (spec.busToPacketizerCfg bus).minimumSize ≤ packet.length := by
  have hreports (expected : PacketType) :=
    reportsCause_depacketize_iff bus expected hcfg hw
  refine ⟨fun h => (hreports packetType).mp h.1, fun h => ⟨(hreports packetType).mpr h, ?_⟩⟩
  intro broker broker' calls data hreceive
  exact unknownError_notMem ((hreports spec.expectPacketType).mpr h) hreceive data

/-- A strict packet without data: nine bytes are needed. -/
theorem reportsCause_iff_eight :
    (ReportsCause (Fin 2) (packetizersFunctions (.mock .strictCcsds) .strictCcsds).depacketize 9
        .telemetry [0x08, 0, 0xC0, 0, 0, 1, 0, 0] ∧
      ∀ (broker broker' : Broker (.mock .strictCcsds)) calls data,
        receivePacket _ broker ⟨1, by decide⟩ [0x08, 0, 0xC0, 0, 0, 1, 0, 0] =
          .ok (broker', calls) →
        .errorDetected .unknownError data ∉ calls) ↔
    PacketizerCfg.strictCcsds = .default ∨ PacketizerCfg.strictCcsds = .ccsds ∨ 9 ≤ 8 :=
  reportsCause_iff (⟨1, by decide⟩ : (SystemSpec.mock .strictCcsds).Bus) .telemetry
    (.inr (.inr (.inl rfl))) (show 8 < 2 ^ 64 by decide)

/-- Packets below the size of the strict and the thin format are rejected
without a code, and the broker reports an unknown error. -/
theorem receivePacket_unknownError :
    CCSDSPacketizer.depacketize 64 ⟨0⟩ .telemetry [0x08, 0, 0xC0, 0, 0, 1, 0, 0] ()
        ⟨1, 2, 3, 4, some 0⟩ = .ok (false, ⟨1, 2, 3, 4, some 0⟩) ∧
      ThinPacketizer.depacketize 64 ⟨0⟩ .telemetry [0, 1, 0] () ⟨1, 2, 3, 4, some 0⟩ =
        .ok (false, ⟨1, 2, 3, 4, some 0⟩) ∧
      receivePacket (.mock .strictCcsds) ((static _).registerErrorCallback true) ⟨1, by decide⟩
          [0x08, 0, 0xC0, 0, 0, 1, 0, 0] =
        .ok ((static _).registerErrorCallback true, [.acquireLock,
          .errorDetected .unknownError [0x08, 0, 0xC0, 0, 0, 1, 0, 0], .releaseLock]) ∧
      receivePacket (.mock .thin) ((static _).registerErrorCallback true) ⟨1, by decide⟩
          [0, 1, 0] =
        .ok ((static _).registerErrorCallback true, [.acquireLock,
          .errorDetected .unknownError [0, 1, 0], .releaseLock]) :=
  ⟨rfl, rfl, rfl, rfl⟩

end Broker

end TasteRuntime
