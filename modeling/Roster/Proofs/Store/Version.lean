import Mathlib.Algebra.Group.Nat.Defs
import Mathlib.Data.Finset.Card
import Mathlib.Data.Finset.Range
import Roster.Proofs.Store.Log
import Roster.Proofs.Wire.Format

/-!
# Versions read back

A version travels as counters of 32 bits with a sign, after their number in 64
bits.  It is read back from its bytes if its counts fit.

A version only depends on which operations a log has.
-/

namespace Roster

namespace Wire.Varint

/-- A number of no more groups than allowed takes no more bytes. -/
theorem length_write_le :
    ∀ {groups value : Nat}, value < 128 ^ (groups + 1) → (write value).length ≤ groups + 1
  | groups, value, few => by
      rw [write]
      split
      · simp
      · rename_i large
        cases groups with
        | zero => omega
        | succ groups =>
            have later : value / 128 < 128 ^ (groups + 1) := by
              rw [Nat.pow_succ] at few
              exact Nat.div_lt_of_lt_mul (by rwa [Nat.mul_comm])
            rw [List.length_cons]
            exact Nat.succ_le_succ (length_write_le later)

private theorem read_write {width groups value : Nat} (enough : (width + 6) / 7 = groups + 1)
    (fits : value < 2 ^ width) (rest : Bytes) :
    read width (write value ++ rest) = some (value, rest) := by
  have covered : 2 ^ width ≤ 128 ^ (groups + 1) := by
    rw [show 128 = 2 ^ 7 from rfl, ← Nat.pow_mul]
    exact Nat.pow_le_pow_right (by decide) (by omega)
  have short := length_write_le (Nat.lt_of_lt_of_le fits covered)
  rw [read, enough, readGroups_write value _ rest short, Option.filter_some, Nat.one_shiftLeft,
    if_pos (decide_eq_true fits)]

end Wire.Varint

/-! ## Counters -/

namespace Counters

open Wire

private theorem readEntries_flatMap (rest : Bytes) :
    ∀ entries : List (ReplicaId × Int),
      (∀ entry ∈ entries, ∃ count : Nat, count < 2 ^ 31 ∧ entry.2 = count) →
        readEntries entries.length
            ((entries.flatMap fun (replica, count) =>
                Varint.write replica.value.toNat ++ Varint.write (Varint.fold count)) ++
              rest) =
          some entries
  | [], _ => rfl
  | (replica, _) :: entries, small => by
      obtain ⟨count, bounded, rfl⟩ := small _ List.mem_cons_self
      have later :=
        readEntries_flatMap rest entries fun entry member =>
          small entry (List.mem_cons_of_mem _ member)
      have fits : Varint.fold count < 2 ^ 32 := by
        change 2 * count < 2 ^ 32
        omega
      have unfolded : Varint.unfold (Varint.fold count) = count := by
        change Varint.unfold (2 * count) = count
        rw [Varint.unfold, if_pos (by omega), Nat.mul_div_cancel_left _ (by decide)]
        rfl
      rw [List.flatMap_cons, List.length_cons, List.append_assoc, List.append_assoc, readEntries,
        Varint.read_write (show (64 + 6) / 7 = 9 + 1 by decide) replica.value.toNat_lt]
      simp only [Option.bind_eq_bind, Option.bind_some,
        Varint.read_write (show (32 + 6) / 7 = 4 + 1 by decide) fits, later, unfolded,
        UInt64.ofNat_toNat, Option.pure_def]

theorem ofBytes?_toBytes {counters : Counters} (few : counters.size < 2 ^ 64)
    (small : ∀ entry ∈ counters.entries, ∃ count : Nat, count < 2 ^ 31 ∧ entry.2 = count) :
    ofBytes? counters.toBytes = some counters := by
  have entries := readEntries_flatMap [] counters.entries small
  rw [List.append_nil] at entries
  rw [toBytes, ofBytes?, Varint.read_write (show (64 + 6) / 7 = 9 + 1 by decide) few]
  simp only [Option.bind_eq_bind, Option.bind_some]
  rw [SortedMap.size, entries, Option.bind_some, SortedMap.ofList_entries]
  rfl

end Counters

namespace Version

/-- A version is read back if its counts fit into 31 bits and there are no more
than a word can count. -/
theorem ofBytes?_toBytes {version : Version} (few : version.counts.size < 2 ^ 64)
    (small : ∀ replica, version.count replica < 2 ^ 31) :
    ofBytes? version.toBytes = some version := by
  have fewCounters : version.toCounters.size < 2 ^ 64 := by
    simpa [toCounters, SortedMap.size, SortedMap.mapValues] using few
  have smallCounters :
      ∀ entry ∈ version.toCounters.entries, ∃ count : Nat, count < 2 ^ 31 ∧ entry.2 = count := by
    intro entry member
    obtain ⟨⟨replica, count⟩, inside, rfl⟩ := List.mem_map.mp member
    have counted : version.count replica = count := by
      rw [Version.count, SortedMap.get?_eq_some_iff.mpr inside]
      rfl
    exact ⟨count, counted ▸ small replica, rfl⟩
  have restored : ofCounters version.toCounters = version := by
    have same : version.toCounters.mapValues (fun _ count => count.toNat) = version.counts := by
      refine SortedMap.ext_get? fun replica => ?_
      rw [SortedMap.get?_mapValues, toCounters, SortedMap.get?_mapValues, Option.map_map]
      exact Option.map_id'
    rw [ofCounters, same]
  rw [toBytes, ofBytes?, Counters.ofBytes?_toBytes fewCounters smallCounters, Option.map_some,
    restored]

/-- A version that leaves a replica out names fewer replicas than there are. -/
theorem size_lt {version : Version} {spare : ReplicaId}
    (absent : version.counts.contains spare = false) : version.counts.size < 2 ^ 64 := by
  have distinct : (spare :: version.counts.keys).Nodup := by
    refine List.nodup_cons.mpr ⟨fun member => ?_, SortedMap.nodup_keys _⟩
    rw [SortedMap.mem_keys_iff.mp member] at absent
    cases absent
  have injective : Function.Injective fun replica : ReplicaId => replica.value.toNat := by
    rintro ⟨left⟩ ⟨right⟩ same
    exact congrArg ReplicaId.mk (UInt64.toNat_inj.mp same)
  have within :
      ((spare :: version.counts.keys).map fun replica => replica.value.toNat).toFinset ⊆
        Finset.range (2 ^ 64) := by
    intro value member
    obtain ⟨replica, _, rfl⟩ := List.mem_map.mp (List.mem_toFinset.mp member)
    exact Finset.mem_range.mpr replica.value.toNat_lt
  have bound := Finset.card_le_card within
  rw [List.toFinset_card_of_nodup (distinct.map injective), Finset.card_range, List.length_map,
    List.length_cons, SortedMap.keys, List.length_map] at bound
  exact bound

end Version

/-! ## Versions of logs -/

namespace Document

variable {log : List Operation}

/-- The version of a log names the replicas of its operations. -/
theorem contains_versionOf_iff {replica : ReplicaId} :
    (versionOf log).counts.contains replica = true ↔
      ∃ operation ∈ log, operation.replica = replica := by
  induction log using List.reverseRecOn with
  | nil => simp [versionOf, Version.empty]
  | append_singleton initial last inductionHypothesis =>
      rw [versionOf_append_singleton, Version.advance, SortedMap.contains, SortedMap.get?_insert]
      by_cases here : replica = last.replica
      · simp [here]
      · rw [if_neg here]
        refine inductionHypothesis.trans ?_
        simp [Ne.symm here]

/-- Causal logs with the same operations have the same version. -/
theorem versionOf_eq_of_mem_iff {other : List Operation} (causal : Causal log)
    (causalOther : Causal other)
    (sameMembers : ∀ operation, operation ∈ log ↔ operation ∈ other) :
    versionOf log = versionOf other := by
  have sameCount (replica : ReplicaId) :
      (versionOf log).count replica = (versionOf other).count replica :=
    Nat.le_antisymm
      (causal.count_le causalOther fun operation member _ => (sameMembers operation).mp member)
      (causalOther.count_le causal fun operation member _ => (sameMembers operation).mpr member)
  have sameNames (replica : ReplicaId) :
      (versionOf log).counts.contains replica = (versionOf other).counts.contains replica := by
    rw [Bool.eq_iff_iff, contains_versionOf_iff, contains_versionOf_iff]
    simp only [sameMembers]
  have sameCounts : (versionOf log).counts = (versionOf other).counts := by
    refine SortedMap.ext_get? fun replica => ?_
    have names := sameNames replica
    have counts := sameCount replica
    simp only [SortedMap.contains, Version.count] at names counts
    cases found : (versionOf log).counts.get? replica <;>
      cases foundOther : (versionOf other).counts.get? replica <;>
      simp_all
  calc
    versionOf log = ⟨(versionOf log).counts⟩ := rfl
    _ = versionOf other := by rw [sameCounts]

end Document

end Roster
