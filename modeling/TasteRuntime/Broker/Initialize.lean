import Mathlib.Data.List.TakeWhile
import TasteRuntime.Broker.Deliver

/-!
# TasteRuntime.Broker.Initialize

What `Broker_initialize` does: it restarts the packetizers of the buses it is
given and of no other, and leaves the buffer and the callback as they were
(`brokerInitialize_eq`); it aborts at a bus without packets that leads to
several interfaces.  What it does to the bus of a device is left to the device
(`initializeBuses_cases`).
-/

namespace TasteRuntime

open CMemory

namespace PacketizerCfg

/-- The packetizer of a bus after its init function. -/
def restart (cfg : PacketizerCfg) (self : Packetizer) : Packetizer :=
  if cfg.counts then ⟨0⟩ else self

end PacketizerCfg

namespace Broker

/-! ## `Broker_initialize` -/

/-- The buses `Broker_initialize` goes through: what is in front of the first
`BUS_INVALID_ID` and in range. -/
def listed (spec : SystemSpec) (validBuses : List Nat) : List spec.Bus :=
  (validBuses.takeWhile (· ≠ busInvalidId)).filterMap fun busId =>
    if h : busId < spec.systemBusesNumber then some ⟨busId, h⟩ else none

/-- A bus without packets that leads to several interfaces, as the tables of
the routing helper tell it. -/
def Ambiguous (spec : SystemSpec) (bus : spec.Bus) : Prop :=
  spec.busToPacketizerCfg bus = .passthrough ∧
    (spec.busToUniquePortMap bus).val = interfaceInvalidId ∧ spec.busHasAnyDestinationPort bus ≠ 0

instance (spec : SystemSpec) (bus : spec.Bus) : Decidable (Ambiguous spec bus) :=
  inferInstanceAs (Decidable (_ ∧ _ ∧ _))

instance {spec : SystemSpec} (bus : spec.Bus) (buses : List spec.Bus) : Decidable (bus ∈ buses) :=
  inferInstance

/-- The broker with some buses restarted. -/
def restart (broker : Broker spec) (buses : List spec.Bus) : Broker spec :=
  { broker with
    packetizersData := fun bus =>
      if bus ∈ buses then (spec.busToPacketizerCfg bus).restart (broker.packetizersData bus)
      else broker.packetizersData bus }

@[simp] theorem listed_nil : listed spec [] = [] := rfl

theorem listed_invalid (rest : List Nat) : listed spec (busInvalidId :: rest) = [] := rfl

theorem listed_cons_of_lt {busId : Nat} (hvalid : busId ≠ busInvalidId)
    (h : busId < spec.systemBusesNumber) (rest : List Nat) :
    listed spec (busId :: rest) = ⟨busId, h⟩ :: listed spec rest := by
  simp [listed, hvalid, h]

theorem listed_cons_of_le {busId : Nat} (hvalid : busId ≠ busInvalidId)
    (h : spec.systemBusesNumber ≤ busId) (rest : List Nat) :
    listed spec (busId :: rest) = listed spec rest := by
  simp [listed, hvalid, h]

/-- No listed bus is the invalid one. -/
theorem val_ne_of_mem_listed {bus : spec.Bus} (h : bus ∈ listed spec validBuses) :
    bus.val ≠ busInvalidId := by
  obtain ⟨busId, hmem, hbus⟩ := List.mem_filterMap.mp h
  have hvalid : busId ≠ busInvalidId := by
    simpa using List.mem_takeWhile_imp hmem
  split at hbus
  · rw [← Option.some.inj hbus]
    exact hvalid
  · contradiction

@[simp] theorem restart_nil (broker : Broker spec) : broker.restart [] = broker := by
  simp [restart]

/-- To restart twice is to restart once. -/
theorem restart_restart (broker : Broker spec) (buses buses' : List spec.Bus) :
    (broker.restart buses).restart buses' = broker.restart (buses ++ buses') := by
  have hidem (cfg : PacketizerCfg) (self : Packetizer) :
      cfg.restart (cfg.restart self) = cfg.restart self := by
    unfold PacketizerCfg.restart
    split <;> rfl
  simp only [restart, List.mem_append, Broker.mk.injEq, and_self, and_true]
  funext bus
  by_cases hbus : bus ∈ buses <;> by_cases hbus' : bus ∈ buses' <;> simp [hbus, hbus', hidem]

/-- One round of the loop restarts its bus, or aborts. -/
theorem initializeBus_eq (broker : Broker spec) {bus : spec.Bus}
    (hcfg : spec.busToPacketizerCfg bus ≠ .deviceProvided) :
    initializeBus spec broker bus =
      if Ambiguous spec bus then .error .aborted else .ok (broker.restart [bus]) := by
  have hupdate (self : Packetizer)
      (hself : self = (spec.busToPacketizerCfg bus).restart (broker.packetizersData bus)) :
      { broker with packetizersData := Function.update broker.packetizersData bus self } =
        broker.restart [bus] := by
    simp only [restart, List.mem_singleton, Broker.mk.injEq, and_self, and_true]
    funext other
    by_cases hother : other = bus
    · subst hother
      simp [hself]
    · simp [hother]
  cases hbus : spec.busToPacketizerCfg bus with
  | deviceProvided => contradiction
  | passthrough =>
      simp only [initializeBus, hbus, packetizersFunctions, builtInInit,
        PassthroughPacketizer.init, Ambiguous, true_and]
      split
      · rfl
      · exact congrArg _ (hupdate _ (by rw [hbus]; rfl))
  | default | ccsds | strictCcsds | thin =>
      rw [if_neg (fun h => by simp [h.1] at hbus), ← hupdate _ rfl, hbus]
      simp only [initializeBus, hbus]
      rfl

/-- A broker with some buses restarted, but for the buses of the devices. -/
structure Restarted (broker : Broker spec) (buses : List spec.Bus) (broker' : Broker spec) :
    Prop where
  buffer : broker'.packetizerBuffer = broker.packetizerBuffer
  callback : broker'.brokerErrorCallback = broker.brokerErrorCallback
  data : ∀ bus, spec.busToPacketizerCfg bus ≠ .deviceProvided →
    broker'.packetizersData bus = (broker.restart buses).packetizersData bus
  headerSizes : ∀ bus, spec.busToPacketizerCfg bus ≠ .deviceProvided →
    broker'.deviceHeaderSizes bus = broker.deviceHeaderSizes bus

theorem restarted_restart (broker : Broker spec) (buses : List spec.Bus) :
    Restarted broker buses (broker.restart buses) :=
  ⟨rfl, rfl, fun _ _ => rfl, fun _ _ => rfl⟩

/-- Without the buses of devices that is all there is. -/
theorem Restarted.eq {broker : Broker spec} (h : Restarted broker buses broker')
    (hbuiltIn : spec.BuiltIn) : broker' = broker.restart buses := by
  cases broker' with
  | mk data buffer callback headerSizes =>
      have hdata : data = (broker.restart buses).packetizersData :=
        funext fun bus => h.data bus (hbuiltIn bus)
      have hheaderSizes : headerSizes = broker.deviceHeaderSizes :=
        funext fun bus => h.headerSizes bus (hbuiltIn bus)
      have hbuffer : buffer = broker.packetizerBuffer := h.buffer
      have hcallback : callback = broker.brokerErrorCallback := h.callback
      rw [hdata, hheaderSizes, hbuffer, hcallback]
      rfl

/-- A restart of one bus and then of others. -/
theorem Restarted.trans {broker : Broker spec} (h : Restarted broker buses broker')
    (h' : Restarted broker' buses' broker'') : Restarted broker (buses ++ buses') broker'' := by
  refine ⟨h'.buffer.trans h.buffer, h'.callback.trans h.callback, fun bus hcfg => ?_,
    fun bus hcfg => (h'.headerSizes bus hcfg).trans (h.headerSizes bus hcfg)⟩
  rw [h'.data bus hcfg, ← restart_restart]
  simp only [restart, h.data bus hcfg]

/-- One round of the loop for the bus of a device touches no other bus. -/
theorem ensures_initializeBus (broker : Broker spec) {bus : spec.Bus}
    (hcfg : spec.busToPacketizerCfg bus = .deviceProvided) :
    Ensures (initializeBus spec broker bus) (Restarted broker [bus]) := by
  have hinit : Ensures (DeviceProvidedPacketizer.init spec (broker.packetizersData bus) bus
      broker.deviceHeaderSizes) fun result =>
        ∀ other, other ≠ bus → result.2.2 other = broker.deviceHeaderSizes other := by
    unfold DeviceProvidedPacketizer.init
    split
    · exact ensures_error _ _
    · exact (ensures_true _).bind fun _ _ => ensures_ok fun other hother =>
        Function.update_of_ne hother _ _
  unfold initializeBus
  rw [hcfg]
  refine hinit.bind fun (self, _, headerSizes) hheaderSizes => ?_
  have hne {other : spec.Bus} (hother : spec.busToPacketizerCfg other ≠ .deviceProvided) :
      other ≠ bus := fun h => hother (h ▸ hcfg)
  refine ensures_ok ⟨rfl, rfl, fun other hother => ?_, fun other hother =>
    hheaderSizes other (hne hother)⟩
  simp [restart, hne hother]

/-- One round of the loop restarts its bus, unless the bus is ambiguous; for
the bus of a device it may stop for a reason of the device. -/
theorem initializeBus_cases (broker : Broker spec) (bus : spec.Bus) :
    (∃ broker', initializeBus spec broker bus = .ok broker' ∧ Restarted broker [bus] broker' ∧
      ¬ Ambiguous spec bus) ∨
    ∃ fault, initializeBus spec broker bus = .error fault ∧
      ((Ambiguous spec bus ∧ fault = .aborted) ∨
        spec.busToPacketizerCfg bus = .deviceProvided) := by
  by_cases hcfg : spec.busToPacketizerCfg bus = .deviceProvided
  · cases hone : initializeBus spec broker bus with
    | error fault => exact .inr ⟨fault, rfl, .inr hcfg⟩
    | ok broker' =>
        exact .inl ⟨broker', rfl, ensures_initializeBus broker hcfg _ hone,
          fun h => by simp [h.1] at hcfg⟩
  · rw [initializeBus_eq broker hcfg]
    split
    · next h => exact .inr ⟨.aborted, rfl, .inl ⟨h, rfl⟩⟩
    · next h => exact .inl ⟨_, rfl, restarted_restart broker _, h⟩

/-- The loop restarts the listed buses, or stops at an ambiguous one or at the
bus of a device. -/
theorem initializeBuses_cases (broker : Broker spec) (validBuses : List Nat) :
    (∃ broker', initializeBuses spec broker validBuses = .ok broker' ∧
      Restarted broker (listed spec validBuses) broker' ∧
      ¬ ∃ bus ∈ listed spec validBuses, Ambiguous spec bus) ∨
    ∃ fault, initializeBuses spec broker validBuses = .error fault ∧
      (((∃ bus ∈ listed spec validBuses, Ambiguous spec bus) ∧ fault = .aborted) ∨
        ∃ bus ∈ listed spec validBuses, spec.busToPacketizerCfg bus = .deviceProvided) := by
  induction validBuses generalizing broker with
  | nil =>
      refine .inl ⟨broker, rfl, ?_, by simp⟩
      simpa using restarted_restart broker []
  | cons busId rest ih =>
      unfold initializeBuses
      by_cases hinvalid : busId = busInvalidId
      · rw [if_pos hinvalid, hinvalid, listed_invalid]
        refine .inl ⟨broker, rfl, ?_, by simp⟩
        simpa using restarted_restart broker []
      · rw [if_neg hinvalid]
        by_cases hlt : busId < spec.systemBusesNumber
        · rw [dif_pos hlt, listed_cons_of_lt hinvalid hlt]
          simp only [List.exists_mem_cons_iff]
          obtain ⟨broker', hone, hrestarted, hunique⟩ | ⟨fault, hone, hstops⟩ :=
            initializeBus_cases broker ⟨busId, hlt⟩
          · rw [hone, ok_bind]
            obtain ⟨broker'', hrest, hrestarted', hunique'⟩ | ⟨fault, hrest, hstops⟩ := ih broker'
            · exact .inl ⟨broker'', hrest, hrestarted.trans hrestarted', not_or.mpr
                ⟨hunique, hunique'⟩⟩
            · exact .inr ⟨fault, hrest, hstops.imp (And.imp_left .inr) .inr⟩
          · rw [hone, error_bind]
            exact .inr ⟨fault, rfl, hstops.imp (And.imp_left .inl) .inl⟩
        · rw [dif_neg hlt, listed_cons_of_le hinvalid (Nat.le_of_not_lt hlt)]
          exact ih broker

/-- **`Broker_initialize`**: it restarts the buses it is given, or aborts. -/
theorem brokerInitialize_eq (hbuiltIn : spec.BuiltIn) (broker : Broker spec)
    (validBuses : Fin spec.systemBusesNumber → Nat) :
    brokerInitialize spec broker validBuses =
      if ∃ bus ∈ listed spec (List.ofFn validBuses), Ambiguous spec bus then .error .aborted
      else .ok (broker.restart (listed spec (List.ofFn validBuses))) := by
  obtain ⟨broker', hinit, hrestarted, hunique⟩ | ⟨fault, hinit, hstops⟩ :=
    initializeBuses_cases broker (List.ofFn validBuses)
  · rw [brokerInitialize, hinit, if_neg hunique, hrestarted.eq hbuiltIn]
  · obtain ⟨hambiguous, rfl⟩ | ⟨bus, -, hcfg⟩ := hstops
    · rw [brokerInitialize, hinit, if_pos hambiguous]
    · exact absurd hcfg (hbuiltIn bus)

/-- The restarted packetizers are in their bounds as the others are. -/
theorem Inv.restart {broker : Broker spec} (hinv : Inv broker) (buses : List spec.Bus) :
    Inv (broker.restart buses) := by
  refine ⟨hinv.length_buffer, fun bus => ?_⟩
  simp only [Broker.restart, PacketizerCfg.restart]
  split
  · split
    · exact UInt16.le_iff_toNat_le.mpr (Nat.zero_le _)
    · exact hinv.count_le bus
  · exact hinv.count_le bus

/-- A restarted bus that counts counts from zero. -/
theorem count_restart_of_mem (broker : Broker spec) {bus : spec.Bus}
    (hcounts : (spec.busToPacketizerCfg bus).counts) (hmem : bus ∈ buses) :
    (broker.restart buses).count bus = 0 := by
  simp only [count, Broker.restart, if_pos hmem, PacketizerCfg.restart, if_pos hcounts]
  rfl

/-- A bus at zero stays there. -/
theorem count_restart_of_zero {broker : Broker spec} {bus : spec.Bus}
    (hzero : broker.count bus = 0) (buses : List spec.Bus) :
    (broker.restart buses).count bus = 0 := by
  simp only [count, Broker.restart, PacketizerCfg.restart]
  split
  · split
    · rfl
    · exact hzero
  · exact hzero

/-- `Broker_initialize` keeps the invariant, whenever it is called. -/
theorem Inv.brokerInitialize {start broker : Broker spec} (hinv : Inv start)
    (hbuiltIn : spec.BuiltIn)
    (hinit : Broker.brokerInitialize spec start validBuses = .ok broker) : Inv broker := by
  rw [brokerInitialize_eq hbuiltIn] at hinit
  split at hinit
  · contradiction
  · rw [← Except.ok.inj hinit]
    exact hinv.restart _

end Broker

end TasteRuntime
