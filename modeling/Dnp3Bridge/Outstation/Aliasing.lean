import Dnp3Bridge.Grpc.UpdatePoints
import Dnp3Bridge.Outstation.Points

/-!
# Aliasing of points

The index of a point is a 32-bit number in a request and a 16-bit number from the queue on. A request
changes the points it names and no others, unless it names a number that 16 bits cannot hold: then the
update goes to the point that has the low 16 bits of the number as its index.
-/

namespace Dnp3Bridge.Outstation
open Bridge Proto Grpc

inductive PointType where
  | analog
  | binary
  deriving DecidableEq

/-- The type and the index of the point that an update is for. -/
def target : PointUpdate → PointType × Nat
  | .analog u => (.analog, u.index.toNat)
  | .binary u => (.binary, u.index.toNat)

/-- The types and the indices of the points that a request names. -/
def points (request : UpdateRequest) : List (PointType × Nat) :=
  request.analogs.map (fun a => (.analog, a.index.toNat)) ++
    request.binaries.map fun b => (.binary, b.index.toNat)

/-- The updates of the request carry the indices that the client sent, and in every state of the
outstation the points that the request does not name stay as they are: what has been applied to them,
with which flags and in which mode, and what their state is. -/
structure NoAliasing (request : UpdateRequest) : Prop where
  carried : (updatePoints request).1.map target = points request
  analogs_kept : ∀ (m : OutstationManager) (i : UInt16), (.analog, i.toNat) ∉ points request →
    (m.visitAll (updatePoints request).1).analogView i = m.analogView i
  binaries_kept : ∀ (m : OutstationManager) (i : UInt16), (.binary, i.toNat) ∉ points request →
    (m.visitAll (updatePoints request).1).binaryView i = m.binaryView i

/-- An update of an analog point is about this point. -/
lemma target_of_analogAt {u : PointUpdate} {i} (h : u.analogAt i ≠ none) :
    target u = (.analog, i.toNat) := by
  cases u with
  | analog u =>
    rw [PointUpdate.analogAt] at h
    split at h
    case isTrue eq => rw [target, eq]
    case isFalse => exact absurd rfl h
  | binary u => exact absurd rfl h

/-- An update of a binary point is about this point. -/
lemma target_of_binaryAt {u : PointUpdate} {i} (h : u.binaryAt i ≠ none) :
    target u = (.binary, i.toNat) := by
  cases u with
  | analog u => exact absurd rfl h
  | binary u =>
    rw [PointUpdate.binaryAt] at h
    split at h
    case isTrue eq => rw [target, eq]
    case isFalse => exact absurd rfl h

/-- The indices arrive unchanged exactly if they fit 16 bits. -/
lemma carried_iff (request : UpdateRequest) :
    (updatePoints request).1.map target = points request ↔ ∀ p ∈ points request, p.2 ≤ 65535 := by
  have analog : ∀ a : AnalogPoint, target (analogUpdate a) = (.analog, a.index.toNat) ↔
      a.index.toNat ≤ 65535 := by
    intro a
    rw [← toNat_toUInt16]
    exact ⟨fun e => congrArg Prod.snd e, fun e => congrArg (Prod.mk _) e⟩
  have binary : ∀ b : BinaryPoint, target (binaryUpdate b) = (.binary, b.index.toNat) ↔
      b.index.toNat ≤ 65535 := by
    intro b
    rw [← toNat_toUInt16]
    exact ⟨fun e => congrArg Prod.snd e, fun e => congrArg (Prod.mk _) e⟩
  rw [updatePoints, points, List.map_append, List.map_map, List.map_map]
  constructor
  · intro e p mem
    obtain ⟨ea, eb⟩ := List.append_inj e (by simp)
    rcases List.mem_append.mp mem with mem | mem
    · obtain ⟨a, ha, rfl⟩ := List.mem_map.mp mem
      exact (analog a).mp (List.map_inj_left.mp ea a ha)
    · obtain ⟨b, hb, rfl⟩ := List.mem_map.mp mem
      exact (binary b).mp (List.map_inj_left.mp eb b hb)
  · intro fits
    refine congrArg₂ _ (List.map_inj_left.mpr fun a ha => ?_) (List.map_inj_left.mpr fun b hb => ?_)
    · exact (analog a).mpr (fits _ (List.mem_append_left _ (List.mem_map_of_mem ha)))
    · exact (binary b).mpr (fits _ (List.mem_append_right _ (List.mem_map_of_mem hb)))

/-- There is no aliasing exactly if every index of the request fits 16 bits. -/
theorem noAliasing_iff (request : UpdateRequest) :
    NoAliasing request ↔ ∀ p ∈ points request, p.2 ≤ 65535 := by
  constructor
  · intro h
    exact (carried_iff request).mp h.carried
  · intro fits
    have carried := (carried_iff request).mpr fits
    have named : ∀ u ∈ (updatePoints request).1, target u ∈ points request := by
      intro u hu
      rw [← carried]
      exact List.mem_map_of_mem hu
    refine ⟨carried, fun m i other => ?_, fun m i other => ?_⟩
    · refine m.visitAll_analogView_eq fun u hu => ?_
      by_contra h
      exact other (target_of_analogAt h ▸ named u hu)
    · refine m.visitAll_binaryView_eq fun u hu => ?_
      by_contra h
      exact other (target_of_binaryAt h ▸ named u hu)

/-- A request for the analog point 65541. -/
def farPoint : UpdateRequest where
  analogs := [⟨65541, .finite 1, .good⟩]
  binaries := []
  counters := []

/-- The request for point 65541 is applied to point 5. -/
theorem farPoint_aliases :
    (.analog, 5) ∉ points farPoint ∧
      (((OutstationManager.create .documented {}).start.visitAll
        (updatePoints farPoint).1).analogView 5).log = [⟨.finite 1, 1, .force⟩] ∧
      ¬ NoAliasing farPoint := by
  have applied : (((OutstationManager.create .documented {}).start.visitAll
      (updatePoints farPoint).1).analogView 5).log = [⟨.finite 1, 1, .force⟩] := rfl
  refine ⟨by decide, applied, fun h => ?_⟩
  have kept := h.analogs_kept (OutstationManager.create .documented {}).start 5 (by decide)
  rw [kept] at applied
  cases applied

end Dnp3Bridge.Outstation
