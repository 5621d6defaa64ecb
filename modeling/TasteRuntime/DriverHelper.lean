import TasteRuntime.SystemSpec

/-!
# TasteRuntime.DriverHelper

How a driver finds its configuration, and that of the device at the other end
of its bus (`DriverHelper.c`).  A device id is the number it is compared as,
which is not negative.

All three lookups take device ids up to `SYSTEM_DEVICE_NUMBER`, one more than
their tables have entries, so they are right for every id but that one
(`looksUp_iff`).
-/

namespace TasteRuntime

open CMemory

/-- The tables over devices; a configuration may be a null pointer. -/
structure DeviceTables (Bus Configuration : Type) where
  /-- `SYSTEM_DEVICE_NUMBER` -/
  systemDeviceNumber : Nat
  /-- `device_to_bus_map` -/
  deviceToBusMap : List Bus
  /-- `device_configurations` -/
  deviceConfigurations : List (Option Configuration)
  /-- `packetizer_configurations` -/
  packetizerConfigurations : List UInt32
  length_deviceToBusMap : deviceToBusMap.length = systemDeviceNumber
  length_deviceConfigurations : deviceConfigurations.length = systemDeviceNumber
  length_packetizerConfigurations : packetizerConfigurations.length = systemDeviceNumber

namespace DriverHelper

variable {Bus Configuration : Type}

/-- `PACKETIZER_DEFAULT`; an `enum PacketizerCfg` cast from a number is that
number. -/
def packetizerDefault : UInt32 := 0

/-- `get_device_configuration` -/
def getDeviceConfiguration (tables : DeviceTables Bus Configuration) (deviceId : Nat) :
    Exec (Option Configuration) :=
  if deviceId > tables.systemDeviceNumber then pure none
  else readEntry tables.deviceConfigurations deviceId

/-- The loop of `get_remote_device_configuration`. -/
def findRemote [DecidableEq Bus] (tables : DeviceTables Bus Configuration) (deviceId : Nat)
    (busId : Bus) : List Nat → Exec (Option Configuration)
  | [] => pure none
  | index :: indices =>
      if index ≠ deviceId then do
        let bus ← readEntry tables.deviceToBusMap index
        if bus = busId then readEntry tables.deviceConfigurations index
        else findRemote tables deviceId busId indices
      else findRemote tables deviceId busId indices

/-- `get_remote_device_configuration` -/
def getRemoteDeviceConfiguration [DecidableEq Bus] (tables : DeviceTables Bus Configuration)
    (deviceId : Nat) : Exec (Option Configuration) :=
  if deviceId > tables.systemDeviceNumber then pure none
  else do
    let busId ← readEntry tables.deviceToBusMap deviceId
    findRemote tables deviceId busId (List.range tables.systemDeviceNumber)

/-- `get_device_packetizer_cfg` -/
def getDevicePacketizerCfg (tables : DeviceTables Bus Configuration) (deviceId : Nat) :
    Exec UInt32 :=
  if deviceId > tables.systemDeviceNumber then pure packetizerDefault
  else readEntry tables.packetizerConfigurations deviceId

/-! ## devices on one bus -/

/-- Two devices of the system are on one bus. -/
def SameBus (tables : DeviceTables Bus Configuration) (deviceId other : Nat) : Prop :=
  deviceId < tables.systemDeviceNumber ∧ other < tables.systemDeviceNumber ∧
    tables.deviceToBusMap[deviceId]? = tables.deviceToBusMap[other]?

/-- The least other device on the bus of a device. -/
structure Peer (tables : DeviceTables Bus Configuration) (deviceId other : Nat) : Prop where
  sameBus : SameBus tables deviceId other
  ne : other ≠ deviceId
  least : ∀ index < other, SameBus tables deviceId index → index = deviceId

variable {tables : DeviceTables Bus Configuration}

/-- Of two devices that have a bus to themselves, each is the peer of the other. -/
theorem peer_of_pair (hne : other ≠ deviceId)
    (h : ∀ index, SameBus tables deviceId index ↔ index = deviceId ∨ index = other) :
    Peer tables deviceId other ∧ Peer tables other deviceId := by
  have hsame : SameBus tables deviceId other := (h other).mpr (.inr rfl)
  have hsame' : SameBus tables other deviceId := ⟨hsame.2.1, hsame.1, hsame.2.2.symm⟩
  constructor
  · refine ⟨hsame, hne, fun index hlt hindex => ?_⟩
    exact ((h index).mp hindex).resolve_right (Nat.ne_of_lt hlt)
  · refine ⟨hsame', hne.symm, fun index hlt hindex => ?_⟩
    have hboth : SameBus tables deviceId index :=
      ⟨hsame.1, hindex.2.1, hsame.2.2.trans hindex.2.2⟩
    exact ((h index).mp hboth).resolve_left (Nat.ne_of_lt hlt)

/-! ## what the lookups are for -/

/-- They stay inside the tables, give the defaults for an id that is no device,
and find the peer of a device. -/
structure LooksUp [DecidableEq Bus] (tables : DeviceTables Bus Configuration) (deviceId : Nat) :
    Prop where
  inside : (∃ configuration, getDeviceConfiguration tables deviceId = .ok configuration) ∧
    (∃ configuration, getRemoteDeviceConfiguration tables deviceId = .ok configuration) ∧
    ∃ cfg, getDevicePacketizerCfg tables deviceId = .ok cfg
  noDevice : tables.systemDeviceNumber ≤ deviceId →
    getDeviceConfiguration tables deviceId = .ok none ∧
      getRemoteDeviceConfiguration tables deviceId = .ok none ∧
      getDevicePacketizerCfg tables deviceId = .ok packetizerDefault
  peer : ∀ other, Peer tables deviceId other →
    ∃ configuration, tables.deviceConfigurations[other]? = some configuration ∧
      getRemoteDeviceConfiguration tables deviceId = .ok configuration
  alone : deviceId < tables.systemDeviceNumber →
    (∀ other, SameBus tables deviceId other → other = deviceId) →
    getRemoteDeviceConfiguration tables deviceId = .ok none
  pair : ∀ other, other ≠ deviceId →
    (∀ index, SameBus tables deviceId index ↔ index = deviceId ∨ index = other) →
    ∃ configuration configuration',
      tables.deviceConfigurations[deviceId]? = some configuration ∧
      tables.deviceConfigurations[other]? = some configuration' ∧
      getRemoteDeviceConfiguration tables deviceId = .ok configuration' ∧
      getRemoteDeviceConfiguration tables other = .ok configuration

variable [DecidableEq Bus]

/-- The loop is a search for the first index that is not the device and has
its bus. -/
theorem findRemote_eq (tables : DeviceTables Bus Configuration) (deviceId : Nat) (busId : Bus)
    (h : ∀ index ∈ indices, index < tables.systemDeviceNumber) :
    findRemote tables deviceId busId indices =
      match indices.find? fun index =>
        index ≠ deviceId ∧ tables.deviceToBusMap[index]? = some busId with
      | none => .ok none
      | some index => readEntry tables.deviceConfigurations index := by
  induction indices with
  | nil => rfl
  | cons index indices ih =>
      obtain ⟨hindex, hindices⟩ := List.forall_mem_cons.mp h
      rw [← tables.length_deviceToBusMap] at hindex
      by_cases hself : index = deviceId
      · rw [findRemote, if_neg (not_not_intro hself), ih hindices, List.find?_cons_of_neg]
        simp [hself]
      · rw [findRemote, if_pos hself, readEntry_eq hindex, ok_bind]
        by_cases hbus : tables.deviceToBusMap[index] = busId
        · rw [if_pos hbus, List.find?_cons_of_pos]
          grind
        · rw [if_neg hbus, ih hindices, List.find?_cons_of_neg]
          grind

/-- The first index that is not the device and has its bus. -/
def firstOther (tables : DeviceTables Bus Configuration) (deviceId : Nat) : Option Nat :=
  (List.range tables.systemDeviceNumber).find? fun index =>
    index ≠ deviceId ∧ tables.deviceToBusMap[index]? = tables.deviceToBusMap[deviceId]?

/-- It is the peer. -/
theorem firstOther_eq_some_iff (h : deviceId < tables.systemDeviceNumber) :
    firstOther tables deviceId = some other ↔ Peer tables deviceId other := by
  rw [firstOther, List.find?_range_eq_some]
  simp only [decide_eq_true_eq, List.mem_range, Bool.not_eq_true', decide_eq_false_iff_not]
  constructor
  · rintro ⟨⟨hne, hbus⟩, hother, hleast⟩
    refine ⟨⟨h, hother, hbus.symm⟩, hne, fun index hlt hsame => ?_⟩
    by_contra hindex
    exact hleast index hlt ⟨hindex, hsame.2.2.symm⟩
  · rintro ⟨⟨-, hother, hbus⟩, hne, hleast⟩
    refine ⟨⟨hne, hbus.symm⟩, hother, fun index hlt hindex => ?_⟩
    exact hindex.1 (hleast index hlt ⟨h, Nat.lt_trans hlt hother, hindex.2.symm⟩)

/-- There is none if the device is alone on its bus. -/
theorem firstOther_eq_none_iff (h : deviceId < tables.systemDeviceNumber) :
    firstOther tables deviceId = none ↔
      ∀ other, SameBus tables deviceId other → other = deviceId := by
  rw [firstOther, List.find?_range_eq_none]
  simp only [Bool.not_eq_true', decide_eq_false_iff_not]
  constructor
  · intro hnone other hsame
    by_contra hne
    exact hnone other hsame.2.1 ⟨hne, hsame.2.2.symm⟩
  · rintro halone index hindex ⟨hne, hbus⟩
    exact hne (halone index ⟨h, hindex, hbus.symm⟩)

/-- `get_remote_device_configuration` looks up what the search finds. -/
theorem getRemoteDeviceConfiguration_of_lt (h : deviceId < tables.systemDeviceNumber) :
    getRemoteDeviceConfiguration tables deviceId =
      match firstOther tables deviceId with
      | none => .ok none
      | some index => readEntry tables.deviceConfigurations index := by
  have hindex : deviceId < tables.deviceToBusMap.length := tables.length_deviceToBusMap ▸ h
  rw [getRemoteDeviceConfiguration, if_neg (Nat.lt_asymm h), readEntry_eq hindex, ok_bind,
    findRemote_eq tables deviceId _ (fun _ => List.mem_range.mp), firstOther,
    List.getElem?_eq_getElem hindex]

theorem getRemoteDeviceConfiguration_of_peer (h : Peer tables deviceId other) :
    ∃ configuration, tables.deviceConfigurations[other]? = some configuration ∧
      getRemoteDeviceConfiguration tables deviceId = .ok configuration := by
  obtain ⟨hdevice, hother, -⟩ := h.sameBus
  have hindex : other < tables.deviceConfigurations.length :=
    tables.length_deviceConfigurations ▸ hother
  refine ⟨tables.deviceConfigurations[other], List.getElem?_eq_getElem hindex, ?_⟩
  rw [getRemoteDeviceConfiguration_of_lt hdevice, (firstOther_eq_some_iff hdevice).mpr h]
  exact readEntry_eq hindex

theorem getRemoteDeviceConfiguration_of_alone (h : deviceId < tables.systemDeviceNumber)
    (halone : ∀ other, SameBus tables deviceId other → other = deviceId) :
    getRemoteDeviceConfiguration tables deviceId = .ok none := by
  rw [getRemoteDeviceConfiguration_of_lt h, (firstOther_eq_none_iff h).mpr halone]

/-- Every device is looked up. -/
theorem looksUp_of_lt (h : deviceId < tables.systemDeviceNumber) : LooksUp tables deviceId where
  inside := by
    refine ⟨?_, ?_, ?_⟩
    · exact ⟨_, (if_neg (Nat.lt_asymm h)).trans
        (readEntry_eq (tables.length_deviceConfigurations ▸ h))⟩
    · cases hfirst : firstOther tables deviceId with
      | none =>
          have halone := (firstOther_eq_none_iff h).mp hfirst
          exact ⟨none, getRemoteDeviceConfiguration_of_alone h halone⟩
      | some other =>
          have hpeer := (firstOther_eq_some_iff h).mp hfirst
          obtain ⟨configuration, -, hremote⟩ := getRemoteDeviceConfiguration_of_peer hpeer
          exact ⟨configuration, hremote⟩
    · exact ⟨_, (if_neg (Nat.lt_asymm h)).trans
        (readEntry_eq (tables.length_packetizerConfigurations ▸ h))⟩
  noDevice := fun hle => absurd h (Nat.not_lt.mpr hle)
  peer := fun _ hpeer => getRemoteDeviceConfiguration_of_peer hpeer
  alone := fun _ halone => getRemoteDeviceConfiguration_of_alone h halone
  pair := fun other hne hpair => by
    obtain ⟨hpeer, hpeer'⟩ := peer_of_pair hne hpair
    obtain ⟨configuration', hother, hremote⟩ := getRemoteDeviceConfiguration_of_peer hpeer
    obtain ⟨configuration, hdevice, hremote'⟩ := getRemoteDeviceConfiguration_of_peer hpeer'
    exact ⟨configuration, configuration', hdevice, hother, hremote, hremote'⟩

/-- Above the guard nothing is read, and no device is there. -/
theorem looksUp_of_gt (h : tables.systemDeviceNumber < deviceId) : LooksUp tables deviceId := by
  have hconfiguration : getDeviceConfiguration tables deviceId = .ok none := if_pos h
  have hremote : getRemoteDeviceConfiguration tables deviceId = .ok none := if_pos h
  have hcfg : getDevicePacketizerCfg tables deviceId = .ok packetizerDefault := if_pos h
  exact
    { inside := ⟨⟨_, hconfiguration⟩, ⟨_, hremote⟩, ⟨_, hcfg⟩⟩
      noDevice := fun _ => ⟨hconfiguration, hremote, hcfg⟩
      peer := fun other hpeer => absurd hpeer.sameBus.1 (Nat.lt_asymm h)
      alone := fun _ _ => hremote
      pair := fun other _ hpair =>
        absurd ((hpair deviceId).mpr (.inl rfl)).1 (Nat.lt_asymm h) }

/-- **Device lookups**: they do what they are for exactly for the ids other
than the number of devices. -/
theorem looksUp_iff (tables : DeviceTables Bus Configuration) (deviceId : Nat) :
    LooksUp tables deviceId ↔ deviceId ≠ tables.systemDeviceNumber := by
  constructor
  · rintro h rfl
    obtain ⟨configuration, hread⟩ := h.inside.1
    rw [getDeviceConfiguration, if_neg (Nat.lt_irrefl _),
      readEntry_of_le (Nat.le_of_eq tables.length_deviceConfigurations)] at hread
    contradiction
  · intro hne
    obtain hlt | hgt := Nat.lt_or_gt_of_ne hne
    · exact looksUp_of_lt hlt
    · exact looksUp_of_gt hgt

/-- The tables of the runtime mocks (`RuntimeMocks/system_spec.c`), of one
entry each. -/
def mockTables : DeviceTables Nat Unit where
  systemDeviceNumber := 1
  deviceToBusMap := [0]
  deviceConfigurations := [none]
  packetizerConfigurations := [0]
  length_deviceToBusMap := rfl
  length_deviceConfigurations := rfl
  length_packetizerConfigurations := rfl

/-- Device id 1 is read behind the end of all three. -/
theorem mockTables_one :
    getDeviceConfiguration mockTables 1 = .error (.readOutOfBounds 1) ∧
      getRemoteDeviceConfiguration mockTables 1 = .error (.readOutOfBounds 1) ∧
      getDevicePacketizerCfg mockTables 1 = .error (.readOutOfBounds 1) :=
  ⟨rfl, rfl, rfl⟩

end DriverHelper

end TasteRuntime
