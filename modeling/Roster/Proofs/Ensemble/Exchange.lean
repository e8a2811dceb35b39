import Roster.Proofs.Ensemble.Coherence
import Roster.Proofs.Store.Exchange

/-!
# Stores that exchange what they lack

Two stores that make each other a batch for their digests and merge it have
both all that either had.  If nothing was waiting they are alike afterwards,
and neither lacks anything of the other.

A document counts the operations of a replica with a number of 32 bits with a
sign, and versions travel with such numbers, so the counters of an ensemble fit
into 31 bits.
-/

namespace Roster.Ensemble

universe u

variable {ι : Type u} {replica : ι → ReplicaId} {ensemble : Ensemble ι}

/-- The counters are such as documents have, which number operations with 32
bits and a sign, and some replica is no store's, as the largest one never is:
the versions of an ensemble survive the way into a digest. -/
structure Countable (replica : ι → ReplicaId) (ensemble : Ensemble ι) : Prop where
  small : ∀ member uri,
    ((ensemble.stores member).document uri).version.count (replica member) < 2 ^ 31
  spare : ∃ unused, ∀ member, replica member ≠ unused

section Exchanging

variable (coherent : Coherent replica ensemble) (distinct : Function.Injective replica)
  {left right : ι}

include coherent distinct

/-- A store of issued operations has portable versions. -/
theorem Countable.portable (countable : Countable replica ensemble) {store : Store}
    (causal : ∀ uri, Document.Causal (store.document uri).applied)
    (issued : ∀ uri, ∀ operation ∈ (store.document uri).applied,
      Issued replica ensemble uri operation) :
    store.Portable := by
  intro uri
  obtain ⟨unused, foreign⟩ := countable.spare
  have few : (store.document uri).version.counts.size < 2 ^ 64 := by
    have absent : (store.document uri).version.counts.contains unused = false := by
      refine Bool.eq_false_iff.mpr fun named => ?_
      obtain ⟨operation, held, rfl⟩ := Document.contains_versionOf_iff.mp named
      obtain ⟨author, own, _⟩ := issued uri operation held
      exact foreign author own.symm
    exact Version.size_lt absent
  refine Version.ofBytes?_toBytes few fun counted => ?_
  by_cases named : (store.document uri).version.counts.contains counted = true
  · obtain ⟨operation, held, rfl⟩ := Document.contains_versionOf_iff.mp named
    obtain ⟨author, own, _⟩ := issued uri operation held
    rw [own]
    exact
      Nat.lt_of_le_of_lt
        ((coherent.authored uri).count_le distinct (causal uri) (issued uri) author)
        (countable.small author uri)
  · have uncounted : (store.document uri).version.count counted = 0 := by
      rw [Version.count,
        SortedMap.contains_eq_false_iff.mp (Bool.eq_false_iff.mpr named)]
      rfl
    rw [uncounted]
    decide

omit distinct in
theorem issued_catchUp (uri : String) :
    ∀ operation ∈
        (((ensemble.stores right).document uri).catchUp
          ((ensemble.stores left).document uri)).applied,
      Issued replica ensemble uri operation := by
  intro operation held
  obtain ⟨more, applied, known⟩ :=
    Document.applied_catchUp ((ensemble.stores right).document uri)
      ((ensemble.stores left).document uri)
  rw [applied] at held
  rcases List.mem_append.mp held with before | added
  · exact (coherent.authored uri).written right operation before
  · exact
      (known operation added).elim (coherent.waiting_issued right uri operation)
        ((coherent.authored uri).written left operation)

private theorem identified_catchUp (uri : String) :
    Document.Identified ((ensemble.stores left).document uri).applied
      (((ensemble.stores right).document uri).catchUp
        ((ensemble.stores left).document uri)).applied := by
  intro first firstHeld second secondHeld
  exact
    (coherent.authored uri).eq_of_same_identity distinct
      ((coherent.authored uri).written left first firstHeld)
      (issued_catchUp coherent uri second secondHeld)

omit distinct in
theorem causal_stores (member : ι) (uri : String) :
    Document.Causal ((ensemble.stores member).document uri).applied :=
  (coherent.authored uri).causal member

/-- A store that has caught up with another has portable versions, too. -/
private theorem Countable.portable_catchUp (countable : Countable replica ensemble) {store : Store}
    (caughtUp : ∀ uri, store.document uri =
      ((ensemble.stores right).document uri).catchUp ((ensemble.stores left).document uri)) :
    store.Portable := by
  refine countable.portable coherent distinct (fun uri => ?_) fun uri => ?_
  · rw [caughtUp uri]
    exact Document.causal_catchUp (causal_stores coherent right uri)
  · rw [caughtUp uri]
    exact issued_catchUp coherent uri

/-- Two documents that catch up with each other include both versions from
before. -/
private theorem includes_caughtUp (left right : ι) (uri : String) :
    (((ensemble.stores right).document uri).catchUp
          ((ensemble.stores left).document uri)).version.includes
        ((ensemble.stores right).document uri).version = true ∧
      (((ensemble.stores right).document uri).catchUp
          ((ensemble.stores left).document uri)).version.includes
        ((ensemble.stores left).document uri).version = true :=
  Document.includes_catchUp (causal_stores coherent right uri) (causal_stores coherent left uri)
    (identified_catchUp coherent distinct uri)

section Idle

variable (idle : ∀ uri, ((ensemble.stores left).document uri).waiting = [] ∧
  ((ensemble.stores right).document uri).waiting = [])

include idle

/-- Two documents that catch up with each other have the same operations, if
none was waiting. -/
private theorem mem_catchUp_comm (uri : String) (operation : Operation) :
    operation ∈
        (((ensemble.stores left).document uri).catchUp
          ((ensemble.stores right).document uri)).applied ↔
      operation ∈
        (((ensemble.stores right).document uri).catchUp
          ((ensemble.stores left).document uri)).applied := by
  have leftCausal := causal_stores coherent left uri
  have rightCausal := causal_stores coherent right uri
  rw [Document.mem_catchUp_iff leftCausal rightCausal
      (identified_catchUp coherent distinct uri) (idle uri).1,
    Document.mem_catchUp_iff rightCausal leftCausal
      (identified_catchUp coherent distinct uri) (idle uri).2]
  exact or_comm

private theorem version_catchUp_comm (uri : String) :
    (((ensemble.stores left).document uri).catchUp
        ((ensemble.stores right).document uri)).version =
      (((ensemble.stores right).document uri).catchUp
        ((ensemble.stores left).document uri)).version :=
  Document.versionOf_eq_of_mem_iff
    (Document.causal_catchUp (causal_stores coherent left uri))
    (Document.causal_catchUp (causal_stores coherent right uri))
    (mem_catchUp_comm coherent distinct idle uri)

private theorem entries_catchUp_comm (uri map : String) :
    (((ensemble.stores left).document uri).catchUp
        ((ensemble.stores right).document uri)).entries map =
      (((ensemble.stores right).document uri).catchUp
        ((ensemble.stores left).document uri)).entries map := by
  refine Document.entriesOf_eq_of_mem_iff (mem_catchUp_comm coherent distinct idle uri) ?_
  intro first firstHeld second secondHeld
  exact
    (coherent.authored uri).eq_of_same_rank distinct
      (issued_catchUp coherent uri first firstHeld)
      (issued_catchUp coherent uri second secondHeld)

end Idle

end Exchanging

variable [DecidableEq ι]

/-- Two running stores that make each other a batch for their digests and then
merge what they got have versions that include both from before.  If nothing
was waiting at either they have the same versions and entries, and neither
lacks anything of the other.

The hypothesis `countable` is about the library that keeps the documents: its
counters have 31 bits, and one identity of a replica is unused. -/
theorem exchange_complete (distinct : Function.Injective replica)
    (reachable : Reachable replica ensemble) (countable : Countable replica ensemble)
    {left right : ι} (leftRunning : (ensemble.stores left).stopped = false)
    (rightRunning : (ensemble.stores right).stopped = false) :
    ∃ forLeft forRight leftUris rightUris leftAfter rightAfter,
      (ensemble.stores right).since (ensemble.stores left).digest = .ok forLeft ∧
      (ensemble.stores left).since (ensemble.stores right).digest = .ok forRight ∧
      (ensemble.stores left).merge forLeft = (.ok leftUris, leftAfter) ∧
      (ensemble.stores right).merge forRight = (.ok rightUris, rightAfter) ∧
      (∀ uri,
        ((leftAfter.document uri).version.includes
              ((ensemble.stores left).document uri).version = true ∧
            (leftAfter.document uri).version.includes
              ((ensemble.stores right).document uri).version = true) ∧
          (rightAfter.document uri).version.includes
              ((ensemble.stores right).document uri).version = true ∧
            (rightAfter.document uri).version.includes
              ((ensemble.stores left).document uri).version = true) ∧
      ((∀ uri, ((ensemble.stores left).document uri).waiting = [] ∧
          ((ensemble.stores right).document uri).waiting = []) →
        (∀ uri, (leftAfter.document uri).version = (rightAfter.document uri).version ∧
          leftAfter.entries uri = rightAfter.entries uri) ∧
        leftAfter.since rightAfter.digest = .ok SortedMap.empty ∧
        rightAfter.since leftAfter.digest = .ok SortedMap.empty) := by
  have coherent := coherent_of_reachable distinct reachable
  have portable (member : ι) : (ensemble.stores member).Portable :=
    countable.portable coherent distinct (causal_stores coherent member) fun uri =>
      (coherent.authored uri).written member
  obtain ⟨forLeft, leftUris, leftAfter, madeForLeft, leftMerged, leftCaughtUp⟩ :=
    Store.merge_since (portable left) leftRunning (ensemble.stores right)
  obtain ⟨forRight, rightUris, rightAfter, madeForRight, rightMerged, rightCaughtUp⟩ :=
    Store.merge_since (portable right) rightRunning (ensemble.stores left)
  refine
    ⟨forLeft, forRight, leftUris, rightUris, leftAfter, rightAfter, madeForLeft, madeForRight,
      leftMerged, rightMerged, fun uri => ?_, fun idle => ?_⟩
  · rw [leftCaughtUp uri, rightCaughtUp uri]
    exact
      ⟨includes_caughtUp coherent distinct right left uri,
        includes_caughtUp coherent distinct left right uri⟩
  · have sameVersion (uri : String) :
        (leftAfter.document uri).version = (rightAfter.document uri).version := by
      rw [leftCaughtUp uri, rightCaughtUp uri]
      exact version_catchUp_comm coherent distinct idle uri
    have sameEntries (uri : String) : leftAfter.entries uri = rightAfter.entries uri := by
      rw [Store.entries, Store.entries, leftCaughtUp uri, rightCaughtUp uri]
      exact entries_catchUp_comm coherent distinct idle uri uri
    have leftPortable := countable.portable_catchUp coherent distinct leftCaughtUp
    have rightPortable := countable.portable_catchUp coherent distinct rightCaughtUp
    exact
      ⟨fun uri => ⟨sameVersion uri, sameEntries uri⟩,
        Store.since_digest_of_version_eq rightPortable sameVersion,
        Store.since_digest_of_version_eq leftPortable fun uri => (sameVersion uri).symm⟩

/-! Two stores that have edited one document each for itself. -/

section Parted

def pair (member : Bool) : ReplicaId :=
  if member then ⟨2⟩ else ⟨1⟩

def parted : Ensemble Bool :=
  ((start pair).edit false "membership" [.put "10.0.0.1:7000#1" "east"]).edit true "membership"
    [.put "10.0.0.1:7000#1" "west"]

def side (member : Bool) : Document where
  applied :=
    [{ replica := pair member
       counter := 0
       lamport := 0
       needs := Version.empty
       map := "membership"
       key := "10.0.0.1:7000#1"
       value := some (if member then "west" else "east") }]

private theorem reachable_parted : Reachable pair parted :=
  .tail (.single (.edit false "membership" [.put "10.0.0.1:7000#1" "east"]))
    (.edit true "membership" [.put "10.0.0.1:7000#1" "west"])

private theorem documents_parted : ∀ member, (parted.stores member).documents =
    SortedMap.empty.insert "membership" (side member) := by
  decide +kernel

private theorem document_parted (member : Bool) (uri : String) :
    (parted.stores member).document uri = if uri = "membership" then side member else {} := by
  rw [Store.document, documents_parted, SortedMap.get?_insert]
  split <;> rfl

private theorem countable_parted : Countable pair parted where
  small member uri := by
    rw [document_parted]
    split
    · have few : ∀ member, (side member).version.count (pair member) < 2 ^ 31 := by
        decide +kernel
      exact few member
    · exact (by decide : 0 < 2 ^ 31)
  spare := ⟨⟨3⟩, by decide⟩

theorem exchange_complete_parted :
    Reachable pair parted ∧ Countable pair parted ∧
      ∃ forLeft forRight leftUris rightUris leftAfter rightAfter,
        (parted.stores true).since (parted.stores false).digest = .ok forLeft ∧
        (parted.stores false).since (parted.stores true).digest = .ok forRight ∧
        (parted.stores false).merge forLeft = (.ok leftUris, leftAfter) ∧
        (parted.stores true).merge forRight = (.ok rightUris, rightAfter) ∧
        (∀ uri, leftAfter.entries uri = rightAfter.entries uri) ∧
        leftAfter.since rightAfter.digest = .ok SortedMap.empty := by
  have distinct : Function.Injective pair := by
    decide
  have idle (member : Bool) (uri : String) :
      ((parted.stores member).document uri).waiting = [] := by
    rw [document_parted]
    split <;> rfl
  obtain ⟨forLeft, forRight, leftUris, rightUris, leftAfter, rightAfter, madeForLeft,
      madeForRight, leftMerged, rightMerged, _, alike⟩ :=
    exchange_complete distinct reachable_parted countable_parted
      (show (parted.stores false).stopped = false by decide +kernel)
      (show (parted.stores true).stopped = false by decide +kernel)
  obtain ⟨same, nothingLacked, _⟩ := alike fun uri => ⟨idle false uri, idle true uri⟩
  exact
    ⟨reachable_parted, countable_parted, forLeft, forRight, leftUris, rightUris, leftAfter,
      rightAfter, madeForLeft, madeForRight, leftMerged, rightMerged, fun uri => (same uri).2,
      nothingLacked⟩

end Parted

end Roster.Ensemble
