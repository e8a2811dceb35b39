import Roster.Proofs.Store
import Roster.Proofs.Store.Version

/-!
# Exchanges between stores

A store that gets what another holds and its digest does not name catches up
document by document.  A document that catches up with another has all the
operations of the other, for none of them is left waiting: each has all it
depends on.
-/

namespace Roster

namespace Document

variable {document source : Document}

/-- The document after it has received what another holds and its version
lacks. -/
def catchUp (document source : Document) : Document :=
  match source.since? document.version with
  | some operations => document.receive operations
  | none => document

/-- Operations with one replica and counter are one. -/
def Identified (left right : List Operation) : Prop :=
  ∀ first ∈ left, ∀ second ∈ right, first.replica = second.replica →
    first.counter = second.counter → first = second

/-- What takes effect had waited or comes from the other document. -/
theorem applied_catchUp (document source : Document) :
    ∃ more, (document.catchUp source).applied = document.applied ++ more ∧
      ∀ operation ∈ more, operation ∈ document.waiting ∨ operation ∈ source.applied := by
  unfold catchUp
  split
  · rename_i operations exported
    obtain ⟨more, applied, known, _⟩ := applied_receive document operations
    refine ⟨more, applied, fun operation added => ?_⟩
    exact (known operation added).imp_right (mem_of_since? exported)
  · exact ⟨[], by simp, by simp⟩

theorem causal_catchUp (causal : Causal document.applied) :
    Causal (document.catchUp source).applied := by
  unfold catchUp
  split
  · exact causal_receive causal _
  · exact causal

private theorem mem_of_counted {held : List Operation} {operation : Operation}
    (causal : Causal held)
    (identified : ∀ other ∈ held, operation.replica = other.replica →
      operation.counter = other.counter → operation = other)
    (counted : operation.counter < (versionOf held).count operation.replica) :
    operation ∈ held := by
  obtain ⟨other, inside, sameReplica, sameCounter⟩ := causal.exists_of_lt counted
  rwa [identified other inside sameReplica.symm sameCounter.symm]

/-- Nothing is exported exactly if nothing is lacked. -/
private theorem includes_of_since? {theirs : Version} (exported : source.since? theirs = none) :
    theirs.includes source.version = true := by
  unfold since? at exported
  split at exported
  · assumption
  · cases exported

private theorem mem_since?_iff {theirs : Version} {operations : List Operation}
    {operation : Operation}
    (exported : source.since? theirs = some operations) :
    operation ∈ operations ↔ operation ∈ source.applied ∧ containedIn theirs operation = false := by
  unfold since? at exported
  split at exported
  · cases exported
  · cases exported
    simp

/-- An operation that was there or is imported does not wait once all that
stood before it in a log are there. -/
theorem mem_receive_of_append {delta initial : List Operation} {operation : Operation}
    (causal : Causal document.applied) (causalInitial : Causal initial)
    (ready : readyAt (versionOf initial) operation = true)
    (given : containedIn document.version operation = true ∨ operation ∈ delta)
    (identified : ∀ other ∈ (document.receive delta).applied,
      operation.replica = other.replica → operation.counter = other.counter → operation = other)
    (before : ∀ earlier ∈ initial, earlier ∈ (document.receive delta).applied) :
    operation ∈ (document.receive delta).applied := by
  have causalAfter := causal_receive causal delta
  rcases given.elim Or.inl mem_receive with contained | applied | waiting
  · refine mem_of_counted causalAfter identified ?_
    obtain ⟨more, applied, _⟩ := applied_receive document delta
    rw [applied]
    exact
      Nat.lt_of_lt_of_le (of_decide_eq_true contained)
        (Version.includes_iff.mp (includes_versionOf_append document.applied more) _)
  · exact applied
  · have idle := not_readyAt_of_mem_receive waiting
    have reached (replica : ReplicaId) :
        (versionOf initial).count replica ≤
          (document.receive delta).version.count replica :=
      causalInitial.count_le causalAfter fun earlier inside _ => before earlier inside
    obtain ⟨next, seen⟩ := readyAt_iff.mp ready
    have seenAfter : (document.receive delta).version.includes operation.needs = true :=
      Version.includes_trans (Version.includes_iff.mpr reached) seen
    rcases Nat.lt_or_ge operation.counter
        ((document.receive delta).version.count operation.replica) with counted | upTo
    · exact mem_of_counted causalAfter identified counted
    · have upToDate := Nat.le_antisymm upTo (next ▸ reached operation.replica)
      rw [readyAt_iff.mpr ⟨upToDate.symm, seenAfter⟩] at idle
      cases idle

/-- A document that has caught up with another holds all its operations. -/
private theorem mem_catchUp (causal : Causal document.applied)
    (causalSource : Causal source.applied)
    (identified : Identified source.applied (document.catchUp source).applied) :
    ∀ operation ∈ source.applied, operation ∈ (document.catchUp source).applied := by
  cases exported : source.since? document.version with
  | none =>
      have unchanged : document.catchUp source = document := by
        rw [catchUp, exported]
      rw [unchanged] at identified ⊢
      intro operation held
      refine mem_of_counted causal (identified operation held) ?_
      exact
        Nat.lt_of_lt_of_le (causalSource.counter_lt held)
          (Version.includes_iff.mp (includes_of_since? exported) _)
  | some delta =>
      have received : document.catchUp source = document.receive delta := by
        rw [catchUp, exported]
      rw [received] at identified ⊢
      -- along the log of the source: what stood before an operation is there first
      have held :
          ∀ log, Causal log → (∀ operation ∈ log, operation ∈ source.applied) →
            ∀ operation ∈ log, operation ∈ (document.receive delta).applied := by
        intro log causalLog
        induction causalLog with
        | nil => simp
        | @append initial last causalInitial ready inductionHypothesis =>
            intro within
            have before :=
              inductionHypothesis fun operation inside =>
                within operation (List.mem_append_left _ inside)
            have lastHeld := within last (by simp)
            have given : containedIn document.version last = true ∨ last ∈ delta := by
              by_cases contained : containedIn document.version last = true
              · exact Or.inl contained
              · exact Or.inr ((mem_since?_iff exported).mpr ⟨lastHeld, by simpa using contained⟩)
            have lastThere :=
              mem_receive_of_append causal causalInitial ready given (identified last lastHeld)
                before
            intro operation inside
            rcases List.mem_append.mp inside with earlier | isLast
            · exact before operation earlier
            · rwa [List.mem_singleton.mp isLast]
      exact held source.applied causalSource fun _ inside => inside

private theorem includes_of_subset {log other : List Operation} (causal : Causal log)
    (causalOther : Causal other) (held : ∀ operation ∈ log, operation ∈ other) :
    (versionOf other).includes (versionOf log) = true :=
  Version.includes_iff.mpr fun _ =>
    causal.count_le causalOther fun operation inside _ => held operation inside

/-- The version of a document that has caught up includes both versions from
before. -/
theorem includes_catchUp (causal : Causal document.applied) (causalSource : Causal source.applied)
    (identified : Identified source.applied (document.catchUp source).applied) :
    (document.catchUp source).version.includes document.version = true ∧
      (document.catchUp source).version.includes source.version = true := by
  constructor
  · obtain ⟨more, applied, _⟩ := applied_catchUp document source
    rw [version_eq, version_eq, applied]
    exact includes_versionOf_append _ _
  · exact
      includes_of_subset causalSource (causal_catchUp causal)
        (mem_catchUp causal causalSource identified)

/-- A document without waiting operations holds, once it has caught up, what
either document held. -/
theorem mem_catchUp_iff (causal : Causal document.applied) (causalSource : Causal source.applied)
    (identified : Identified source.applied (document.catchUp source).applied)
    (idle : document.waiting = []) {operation : Operation} :
    operation ∈ (document.catchUp source).applied ↔
      operation ∈ document.applied ∨ operation ∈ source.applied := by
  obtain ⟨more, applied, known⟩ := applied_catchUp document source
  constructor
  · intro held
    rw [applied] at held
    rcases List.mem_append.mp held with before | added
    · exact Or.inl before
    · rcases known operation added with waited | inside
      · rw [idle] at waited
        cases waited
      · exact Or.inr inside
  · rintro (before | inside)
    · rw [applied]
      exact List.mem_append_left _ before
    · exact mem_catchUp causal causalSource identified operation inside

end Document

namespace Store

variable {store source : Store}

/-! ## Digests -/

/-- The versions of a store's documents survive the way into a digest. -/
def Portable (store : Store) : Prop :=
  ∀ uri, Version.ofBytes? (store.document uri).version.toBytes = some (store.document uri).version

/-- A digest names the version of every document, and the empty one where there
is none. -/
private theorem versionIn?_digest (portable : store.Portable) (uri : String) :
    versionIn? store.digest uri = some (store.document uri).version := by
  have readBack := portable uri
  unfold versionIn? digest
  rw [SortedMap.get?_mapValues]
  cases found : store.documents.get? uri with
  | none =>
      have new : store.document uri = {} := by
        simp [Store.document, found]
      simp only [Option.map_none, new]
      rfl
  | some document =>
      have same : store.document uri = document := by
        simp [Store.document, found]
      simpa [same] using readBack

/-- What a store holds and the sender of a digest lacks, uri by uri. -/
private theorem since_digest (portable : store.Portable) :
    ∃ batch, source.since store.digest = .ok batch ∧
      ∀ uri, batch.get? uri =
        ((source.document uri).since? (store.document uri).version).map Delta.toBytes := by
  have readable :
      (source.documents.keys.all fun uri => (versionIn? store.digest uri).isSome) = true := by
    simp [versionIn?_digest portable]
  refine ⟨_, by rw [since, if_pos readable], fun uri => ?_⟩
  rw [SortedMap.get?_filterMap]
  cases found : source.documents.get? uri with
  | none =>
      have new : source.document uri = {} := by
        simp [Store.document, found]
      rw [new]
      rfl
  | some document =>
      have same : source.document uri = document := by
        simp [Store.document, found]
      simp only [Option.bind_some, versionIn?_digest portable, same, Option.bind_eq_bind]
      cases document.since? (store.document uri).version <;> rfl

/-! ## Batches -/

/-- Deltas for different uris are imported each into its document. -/
private theorem receiveAll_documents :
    ∀ {entries : List (String × Bytes)} {store : Store},
      store.stopped = false → (entries.map (·.1)).Nodup →
        (∀ entry ∈ entries, ∃ operations, Delta.ofBytes? entry.2 = some operations) →
          ∃ uris after, receiveAll entries store = (.ok uris, after) ∧
            after.replica = store.replica ∧ after.stopped = false ∧
            (∀ uri delta operations, (uri, delta) ∈ entries →
              Delta.ofBytes? delta = some operations →
                after.document uri = (store.document uri).receive operations) ∧
            ∀ uri, uri ∉ entries.map (·.1) → after.document uri = store.document uri
  | [], store, running, _, _ => ⟨[], store, rfl, rfl, running, by simp, by simp⟩
  | (uri, delta) :: rest, store, running, distinct, readable => by
      obtain ⟨operations, read⟩ := readable _ List.mem_cons_self
      obtain ⟨absent, distinctRest⟩ := List.nodup_cons.mp distinct
      have received :
          store.receive { uri, delta } =
            (.ok
                !((store.document uri).version.includes
                    ((store.document uri).receive operations).version),
              store.keep uri ((store.document uri).receive operations)) :=
        receive_eq running read
      have stillRunning :
          (store.keep uri ((store.document uri).receive operations)).stopped = false :=
        running
      obtain ⟨uris, after, imported, sameReplica, runningAfter, inside, outside⟩ :=
        receiveAll_documents stillRunning distinctRest fun entry member =>
          readable entry (List.mem_cons_of_mem _ member)
      rw [receiveAll, received]
      simp only [imported]
      refine ⟨_, after, rfl, sameReplica, runningAfter, ?_, ?_⟩
      · intro tested other others member readOther
        rcases List.mem_cons.mp member with first | later
        · cases first
          rw [outside uri absent, document_keep_self,
            Option.some.inj (read.symm.trans readOther)]
        · have different : tested ≠ uri := by
            rintro rfl
            exact absent (List.mem_map.mpr ⟨_, later, rfl⟩)
          rw [inside tested other others later readOther, document_keep_of_ne _ _ different]
      · intro tested elsewhere
        obtain ⟨different, notLater⟩ := not_or.mp fun found => elsewhere (List.mem_cons.mpr found)
        rw [outside tested notLater, document_keep_of_ne _ _ different]

/-- Every document of a store that merges what another holds and its digest
lacks catches up. -/
theorem merge_since (portable : store.Portable) (running : store.stopped = false)
    (source : Store) :
    ∃ batch uris after, source.since store.digest = .ok batch ∧
      store.merge batch = (.ok uris, after) ∧
        ∀ uri, after.document uri = (store.document uri).catchUp (source.document uri) := by
  obtain ⟨batch, made, named⟩ := since_digest portable
  have readable :
      ∀ entry ∈ batch.entries, ∃ operations, Delta.ofBytes? entry.2 = some operations := by
    intro entry member
    obtain ⟨operations, read, _⟩ := mem_of_since made member
    exact ⟨operations, read⟩
  obtain ⟨uris, after, merged, _, _, inside, outside⟩ :=
    receiveAll_documents running (SortedMap.nodup_keys batch) readable
  refine ⟨batch, uris, after, made, merged, fun uri => ?_⟩
  have lacked := named uri
  unfold Document.catchUp
  cases exported : (source.document uri).since? (store.document uri).version with
  | none =>
      rw [exported, Option.map_none] at lacked
      have absent : uri ∉ batch.keys := by
        rw [SortedMap.mem_keys_iff, SortedMap.contains, lacked]
        simp
      exact outside uri absent
  | some operations =>
      rw [exported, Option.map_some] at lacked
      exact
        inside uri _ operations (SortedMap.get?_eq_some_iff.mp lacked)
          (Delta.ofBytes?_toBytes operations)

/-- Nothing is lacked where the versions agree. -/
theorem since_digest_of_version_eq (portable : store.Portable)
    (same : ∀ uri, (source.document uri).version = (store.document uri).version) :
    source.since store.digest = .ok SortedMap.empty := by
  obtain ⟨batch, made, named⟩ := since_digest portable
  have nothing : batch = SortedMap.empty := by
    refine SortedMap.ext_get? fun uri => ?_
    rw [named uri, Document.since?, same uri, if_pos (Version.includes_self _)]
    rfl
  rw [made, nothing]

end Store

end Roster
