import Mathlib.Data.List.FinRange
import TasteRuntime.PassthroughPacketizer

/-!
# TasteRuntime.RoutingHelper

Where the interfaces of the other partitions are (`RoutingHelper.c`).  The two
helpers fill the tables a passthrough packetizer starts up with: the one
interface a bus leads to, and whether it leads to any.

Interface 0 says both that a bus leads to no interface and that it leads to
several, so neither table alone tells whether the packetizer may start; both
together do (`init_aborts_iff`).
-/

namespace TasteRuntime

/-- `struct PartitionBusPair` -/
structure PartitionBusPair (Bus : Type) where
  partition : Nat
  bus : Bus

/-- Where the interfaces of a system are, seen from one partition. -/
structure Routing (spec : SystemSpec) where
  /-- `PARTITION_NAME` -/
  partitionName : Nat
  /-- `port_to_partition_bus_map` -/
  portToPartitionBusMap : spec.Interface → PartitionBusPair spec.Bus

namespace RoutingHelper

variable {spec : SystemSpec}

/-- What both loops look for: an interface of another partition on the bus. -/
def Matches (routing : Routing spec) (bus : spec.Bus) (index : spec.Interface) : Prop :=
  (routing.portToPartitionBusMap index).partition ≠ routing.partitionName ∧
    (routing.portToPartitionBusMap index).bus = bus

instance (routing : Routing spec) (bus : spec.Bus) (index : spec.Interface) :
    Decidable (Matches routing bus index) :=
  inferInstanceAs (Decidable (_ ∧ _))

/-- The loop of `find_unique_destination`. -/
def findUniqueFrom (routing : Routing spec) (bus : spec.Bus) (foundInterface : Nat) :
    List spec.Interface → Nat
  | [] => foundInterface
  | index :: indices =>
      if Matches routing bus index then
        if foundInterface ≠ interfaceInvalidId then interfaceInvalidId
        else findUniqueFrom routing bus index indices
      else findUniqueFrom routing bus foundInterface indices

/-- `find_unique_destination` -/
def findUniqueDestination (routing : Routing spec) (bus : spec.Bus) : Nat :=
  findUniqueFrom routing bus interfaceInvalidId (List.finRange spec.interfaceMaxId)

/-- `check_bus_has_any_destination_port` -/
def checkBusHasAnyDestinationPort (routing : Routing spec) (bus : spec.Bus) : Int :=
  (List.finRange spec.interfaceMaxId).foldl
    (fun result index => if Matches routing bus index then 1 else result) 0

/-! ## what the bus leads to -/

/-- The interfaces of other partitions a bus leads to. -/
def destinations (routing : Routing spec) (bus : spec.Bus) : List spec.Interface :=
  (List.finRange spec.interfaceMaxId).filter (Matches routing bus ·)

/-- The interface a list holds, if it holds just one. -/
def soleInterface : List spec.Interface → Nat
  | [index] => index
  | _ => interfaceInvalidId

variable {routing : Routing spec} {bus : spec.Bus}

theorem mem_destinations {index : spec.Interface} :
    index ∈ destinations routing bus ↔ Matches routing bus index := by
  simp [destinations]

theorem nodup_destinations : (destinations routing bus).Nodup :=
  (List.nodup_finRange _).filter _

/-- The bus leads to some interface. -/
theorem destinations_ne_nil_iff :
    destinations routing bus ≠ [] ↔ ∃ index, Matches routing bus index := by
  simp only [← mem_destinations]
  exact ⟨List.exists_mem_of_ne_nil _, fun ⟨_, hmem⟩ => List.ne_nil_of_mem hmem⟩

/-- The bus leads to one interface alone. -/
theorem destinations_eq_singleton_iff {index : spec.Interface} :
    destinations routing bus = [index] ↔
      Matches routing bus index ∧ ∀ other, Matches routing bus other → other = index := by
  rw [← List.perm_singleton,
    List.perm_ext_iff_of_nodup nodup_destinations (List.nodup_singleton index)]
  simp only [mem_destinations, List.mem_singleton]
  constructor
  · intro h
    exact ⟨(h index).mpr rfl, fun other => (h other).mp⟩
  · rintro ⟨hmatch, hsole⟩ other
    exact ⟨hsole other, fun heq => heq ▸ hmatch⟩

/-- The bus leads to several interfaces. -/
theorem two_le_length_destinations_iff :
    2 ≤ (destinations routing bus).length ↔
      ∃ index other, index ≠ other ∧ Matches routing bus index ∧ Matches routing bus other := by
  simp only [← mem_destinations]
  have hnodup : (destinations routing bus).Nodup := nodup_destinations
  generalize destinations routing bus = indices at hnodup
  cases indices with
  | nil => simp
  | cons index rest =>
      cases rest with
      | nil => simp
      | cons other rest =>
          have hne : index ≠ other := by
            rintro rfl
            exact (List.nodup_cons.mp hnodup).1 List.mem_cons_self
          have hlength : 2 ≤ (index :: other :: rest).length := by simp
          exact ⟨fun _ => ⟨index, other, hne, by simp, by simp⟩, fun _ => hlength⟩

/-! ## the two loops -/

/-- Once an interface is found, any other ends the search. -/
theorem findUniqueFrom_of_found (hfound : found ≠ interfaceInvalidId)
    (indices : List spec.Interface) :
    findUniqueFrom routing bus found indices =
      if indices.filter (Matches routing bus ·) = [] then found else interfaceInvalidId := by
  induction indices with
  | nil => rfl
  | cons index indices ih =>
      by_cases hmatch : Matches routing bus index
      · simp [findUniqueFrom, hmatch, hfound]
      · simp [findUniqueFrom, hmatch, ih]

/-- The search for the one interface, as long as none that matches is the
invalid one. -/
theorem findUniqueFrom_invalid (indices : List spec.Interface)
    (h : ∀ index ∈ indices, Matches routing bus index → index.val ≠ interfaceInvalidId) :
    findUniqueFrom routing bus interfaceInvalidId indices =
      soleInterface (indices.filter (Matches routing bus ·)) := by
  induction indices with
  | nil => rfl
  | cons index indices ih =>
      obtain ⟨hindex, hindices⟩ := List.forall_mem_cons.mp h
      by_cases hmatch : Matches routing bus index
      · rw [findUniqueFrom, if_pos hmatch, if_neg (not_not_intro rfl),
          findUniqueFrom_of_found (hindex hmatch), List.filter_cons_of_pos (by simpa using hmatch)]
        cases indices.filter (Matches routing bus ·) <;> rfl
      · rw [findUniqueFrom, if_neg hmatch, ih hindices,
          List.filter_cons_of_neg (by simpa using hmatch)]

/-- An interface with the number of the invalid one is on the invalid bus. -/
def InvalidOnInvalidBus (routing : Routing spec) : Prop :=
  ∀ index : spec.Interface, index.val = interfaceInvalidId →
    (routing.portToPartitionBusMap index).bus.val = busInvalidId

/-- Then no other bus leads to it. -/
theorem InvalidOnInvalidBus.ne_of_matches (h : InvalidOnInvalidBus routing)
    (hbus : bus.val ≠ busInvalidId) {index : spec.Interface} (hmatch : Matches routing bus index) :
    index.val ≠ interfaceInvalidId := by
  intro hinvalid
  have hzero := h index hinvalid
  rw [hmatch.2] at hzero
  contradiction

/-- `find_unique_destination` finds the one interface the bus leads to. -/
theorem findUniqueDestination_eq (h : InvalidOnInvalidBus routing) (hbus : bus.val ≠ busInvalidId) :
    findUniqueDestination routing bus = soleInterface (destinations routing bus) :=
  findUniqueFrom_invalid _ fun _ _ => h.ne_of_matches hbus

/-- `check_bus_has_any_destination_port` tells whether there is any. -/
theorem checkBusHasAnyDestinationPort_eq :
    checkBusHasAnyDestinationPort routing bus =
      if destinations routing bus = [] then 0 else 1 := by
  have hloop (indices : List spec.Interface) (result : Int) :
      indices.foldl (fun result index => if Matches routing bus index then 1 else result) result =
        if indices.filter (Matches routing bus ·) = [] then result else 1 := by
    induction indices generalizing result with
    | nil => rfl
    | cons index indices ih =>
        by_cases hmatch : Matches routing bus index
        · simp [hmatch, ih]
        · simp [hmatch, ih]
  exact hloop _ 0

/-! ## zero, one, many -/

/-- The result is an interface exactly if the list holds just that one. -/
theorem soleInterface_eq_iff {indices : List spec.Interface}
    (h : ∀ index ∈ indices, index.val ≠ interfaceInvalidId) :
    soleInterface indices = i ∧ i ≠ interfaceInvalidId ↔
      ∃ index, index.val = i ∧ indices = [index] := by
  cases indices with
  | nil => grind [soleInterface]
  | cons index rest =>
      cases rest with
      | nil =>
          have hindex : index.val ≠ interfaceInvalidId := h index List.mem_cons_self
          constructor
          · rintro ⟨rfl, -⟩
            exact ⟨index, rfl, rfl⟩
          · rintro ⟨other, rfl, hsame⟩
            obtain rfl : index = other := by simpa using hsame
            exact ⟨rfl, hindex⟩
      | cons other rest => grind [soleInterface]

/-- No interface and several look the same, but for the list being empty. -/
theorem soleInterface_eq_invalid_iff {indices : List spec.Interface}
    (h : ∀ index ∈ indices, index.val ≠ interfaceInvalidId) :
    soleInterface indices = interfaceInvalidId ∧ indices ≠ [] ↔ 2 ≤ indices.length := by
  cases indices with
  | nil => simp
  | cons index rest =>
      cases rest with
      | nil => simpa [soleInterface] using h index List.mem_cons_self
      | cons other rest => simp [soleInterface]

/-- **Start-up**: the helpers find the one interface a bus leads to and tell
whether there is any, so that a passthrough packetizer with these tables
aborts exactly if its bus leads to several. -/
theorem init_aborts_iff (routing : Routing spec) (bus : spec.Bus) (self : Packetizer)
    (hinvalid : InvalidOnInvalidBus routing) (hbus : bus.val ≠ busInvalidId) :
    (∀ i, findUniqueDestination routing bus = i ∧ i ≠ interfaceInvalidId ↔
        ∃ index, index.val = i ∧ Matches routing bus index ∧
          ∀ other, Matches routing bus other → other = index) ∧
      (checkBusHasAnyDestinationPort routing bus ≠ 0 ↔ ∃ index, Matches routing bus index) ∧
      ((spec.busToUniquePortMap bus).val = findUniqueDestination routing bus →
        spec.busHasAnyDestinationPort bus = checkBusHasAnyDestinationPort routing bus →
        (PassthroughPacketizer.init spec self bus = .error .aborted ↔
          ∃ index other, index ≠ other ∧ Matches routing bus index ∧
            Matches routing bus other)) := by
  have hvalid : ∀ index ∈ destinations routing bus, index.val ≠ interfaceInvalidId :=
    fun _ hmem => hinvalid.ne_of_matches hbus (mem_destinations.mp hmem)
  have hany : checkBusHasAnyDestinationPort routing bus ≠ 0 ↔ destinations routing bus ≠ [] := by
    grind [checkBusHasAnyDestinationPort_eq]
  refine ⟨fun i => ?_, ?_, fun hunique hport => ?_⟩
  · rw [findUniqueDestination_eq hinvalid hbus, soleInterface_eq_iff hvalid]
    simp only [destinations_eq_singleton_iff]
  · rw [hany, destinations_ne_nil_iff]
  · rw [← two_le_length_destinations_iff, ← soleInterface_eq_invalid_iff hvalid, ← hany,
      ← findUniqueDestination_eq hinvalid hbus, ← hunique, ← hport,
      PassthroughPacketizer.init_eq_aborted_iff]

/-- A system of three interfaces and two buses. -/
def threePorts : SystemSpec :=
  { SystemSpec.mock .passthrough with
    interfaceMaxId := 3
    portToBusMap := fun _ => ⟨1, by decide⟩
    busToUniquePortMap := fun _ => 0
    busHasAnyDestinationPort := fun _ => 1 }

/-- Interfaces 1 and 2 are in another partition, on bus 1. -/
def threePortsRouting : Routing threePorts where
  partitionName := 1
  portToPartitionBusMap := fun index =>
    if index.val = 0 then ⟨0, ⟨0, by decide⟩⟩ else ⟨2, ⟨1, by decide⟩⟩

/-- A passthrough packetizer does not start on that bus. -/
theorem init_aborts_iff_threePorts :
    PassthroughPacketizer.init threePorts ⟨0⟩ ⟨1, by decide⟩ = .error .aborted ↔
      ∃ index other : threePorts.Interface, index ≠ other ∧
        Matches threePortsRouting ⟨1, by decide⟩ index ∧
        Matches threePortsRouting ⟨1, by decide⟩ other :=
  have hinvalid : InvalidOnInvalidBus threePortsRouting := fun index h => by
    simp [threePortsRouting, h]
  (init_aborts_iff threePortsRouting ⟨1, by decide⟩ ⟨0⟩ hinvalid (by decide)).2.2
    (by decide) (by decide)

end RoutingHelper

end TasteRuntime
