import Roster.Proofs.MemberList.Log

/-!
# How a member list imports

A running list imports a delta or a batch into its store and then repairs what
the import may have removed.  A list that is stopped stays as it is.
-/

namespace Roster

namespace MemberList

variable {list after : MemberList} {offered : UInt64} {outcome : Except Fault Outcome}

/-! ## Operations of others -/

/-- The store holds what the list's store holds, and operations of others. -/
structure Absorbs (list : MemberList) (store : Store) : Prop where
  replica_eq : store.replica = list.store.replica
  stopped_eq : store.stopped = list.store.stopped
  log_eq : ∀ uri, ∃ more, (store.document uri).applied = list.log uri ++ more ∧
    ∀ operation ∈ more, operation.replica ≠ list.store.replica

namespace Absorbs

variable {store : Store}

theorem refl (list : MemberList) : Absorbs list list.store where
  replica_eq := rfl
  stopped_eq := rfl
  log_eq _ := ⟨[], (List.append_nil _).symm, by simp⟩

theorem trans {later : Store} (absorbs : Absorbs list store)
    (absorbsLater : Absorbs { list with store } later) :
    Absorbs list later where
  replica_eq := absorbsLater.replica_eq.trans absorbs.replica_eq
  stopped_eq := absorbsLater.stopped_eq.trans absorbs.stopped_eq
  log_eq uri := by
    obtain ⟨first, firstLog, firstForeign⟩ := absorbs.log_eq uri
    obtain ⟨second, secondLog, secondForeign⟩ := absorbsLater.log_eq uri
    refine ⟨first ++ second, ?_, ?_⟩
    · rw [secondLog, log, firstLog, List.append_assoc]
    · intro operation added
      rcases List.mem_append.mp added with inFirst | inSecond
      · exact firstForeign operation inFirst
      · have foreign := secondForeign operation inSecond
        rwa [← absorbs.replica_eq]

theorem log_subset (absorbs : Absorbs list store) (uri : String) (operation : Operation)
    (held : operation ∈ list.log uri) :
    operation ∈ ({ list with store } : MemberList).log uri := by
  obtain ⟨more, appended, _⟩ := absorbs.log_eq uri
  rw [log, appended]
  exact List.mem_append_left more held

/-- An operation of the list's own was there before. -/
theorem mem_log_of_own (absorbs : Absorbs list store) {uri : String} {operation : Operation}
    (held : operation ∈ (store.document uri).applied)
    (own : operation.replica = list.store.replica) :
    operation ∈ list.log uri := by
  obtain ⟨more, appended, foreign⟩ := absorbs.log_eq uri
  rw [appended] at held
  rcases List.mem_append.mp held with before | added
  · exact before
  · exact absurd own (foreign operation added)

theorem ordered (absorbs : Absorbs list store) (ordered : Ordered list)
    (causal : ∀ uri, Document.Causal (store.document uri).applied) :
    Ordered { list with store } :=
  ordered.of_foreign absorbs.replica_eq causal absorbs.log_eq

end Absorbs

/-! ## Deltas and batches -/

theorem receive_stopped {update : Update} (stopped : list.stopped = true)
    (received : list.receive offered update = .ok (outcome, after)) :
    after = list := by
  rw [receive, if_pos stopped] at received
  cases received
  rfl

theorem merge_stopped {batch : Batch} (stopped : list.stopped = true)
    (merged : list.merge offered batch = .ok (outcome, after)) :
    after = list := by
  rw [merge, if_pos stopped] at merged
  cases merged
  rfl

private theorem afterImport_ok {changed : Bool}
    (imported : list.afterImport offered (.ok changed) = .ok (outcome, after)) :
    ∃ made, list.repair offered changed = .ok (made, after) := by
  unfold afterImport at imported
  cases repaired : list.repair offered changed with
  | error overflow =>
      simp only [repaired] at imported
      cases imported
  | ok result =>
      obtain ⟨made, current⟩ := result
      simp only [repaired, Attempt.ok_bind] at imported
      cases imported
      exact ⟨made, rfl⟩

/-- A delta is imported and the list repaired. -/
theorem receive_eq_ok {update : Update} {operations : List Operation}
    (running : list.stopped = false) (storeRunning : list.store.stopped = false)
    (known : isKnownUri update.uri = true)
    (readable : Delta.ofBytes? update.delta = some operations)
    (received : list.receive offered update = .ok (outcome, after)) :
    ∃ made,
      { list with
        store :=
          list.store.keep update.uri
            ((list.store.document update.uri).receive operations) }.repair offered
          (!(list.store.document update.uri).version.includes
              ((list.store.document update.uri).receive operations).version) =
        .ok (made, after) := by
  have imported :
      list.store.receive update =
        (.ok
            !((list.store.document update.uri).version.includes
                ((list.store.document update.uri).receive operations).version),
          list.store.keep update.uri ((list.store.document update.uri).receive operations)) :=
    Store.receive_eq storeRunning readable
  rw [receive, if_neg (by simp [running]), if_neg (by simp [known])] at received
  simp only [imported] at received
  exact afterImport_ok received

/-- A batch is imported and the list repaired. -/
theorem merge_eq_ok {batch : Batch} {admitted : String → Operation → Prop}
    (running : list.stopped = false) (storeRunning : list.store.stopped = false)
    (causal : ∀ uri, Document.Causal (list.log uri))
    (honest :
      ∀ entry ∈ batch.entries, ∃ operations, Delta.ofBytes? entry.2 = some operations ∧
        ∀ operation ∈ operations, admitted entry.1 operation)
    (merged : list.merge offered batch = .ok (outcome, after)) :
    ∃ store changed made, Store.Imports admitted list.store store ∧
      (changed = false → Store.Unmoved list.store store) ∧
        { list with store }.repair offered changed = .ok (made, after) := by
  have honestKnown :
      ∀ entry ∈ (batch.filter fun uri _ => isKnownUri uri).entries,
        ∃ operations, Delta.ofBytes? entry.2 = some operations ∧
          ∀ operation ∈ operations, admitted entry.1 operation :=
    fun entry member => honest entry (List.mem_filter.mp member).1
  obtain ⟨uris, store, imported, imports, unmoved⟩ :=
    Store.receiveAll_eq storeRunning causal honestKnown
  rw [merge, if_neg (by simp [running])] at merged
  simp only [Store.merge, imported] at merged
  obtain ⟨made, repaired⟩ := afterImport_ok merged
  refine ⟨store, !uris.isEmpty, made, imports, ?_, repaired⟩
  intro nothing
  exact unmoved (by simpa using nothing)

/-! ## What an import reports -/

/-- What is reported tells whether the own endpoint was kept, or the one that
superseded it. -/
def Reports (before : MemberList) (outcome : Except Fault Outcome) (after : MemberList) :
    Prop :=
  (after.own = before.own ∧ ∀ made, outcome = .ok made → made.reincarnated = none) ∨
    ∃ changed, outcome = .ok { changed, reincarnated := some after.own } ∧
      after.own.supersedes before.own = true

theorem Reports.sameHost {before : MemberList} (reports : Reports before outcome after) :
    after.own.sameHost before.own = true := by
  rcases reports with ⟨kept, _⟩ | ⟨_, _, later⟩
  · rw [kept]
    exact Endpoint.sameHost_iff.mpr ⟨rfl, rfl⟩
  · exact (Endpoint.supersedes_iff.mp later).1

theorem repair_reports {made : Outcome} {changed : Bool}
    (repaired : list.repair offered changed = .ok (made, after)) :
    Reports list (.ok made) after := by
  cases repairs_of_eq_ok repaired with
  | unchanged => exact Or.inl ⟨rfl, fun made same => (Except.ok.inj same) ▸ rfl⟩
  | restored _ =>
      refine Or.inl ⟨?_, fun made same => (Except.ok.inj same) ▸ rfl⟩
      rw [own_restoreHosting, own_cleaned]
  | returned _ returned =>
      have later := supersedes_of_reincarnate returned
      rw [own_cleaned] at later
      rw [← own_restoreHosting] at later
      exact Or.inr ⟨true, by rw [own_restoreHosting], later⟩

private theorem afterImport_reports {changed : Except Fault Bool}
    (imported : list.afterImport offered changed = .ok (outcome, after)) :
    Reports list outcome after := by
  cases changed with
  | error fault =>
      cases imported
      exact Or.inl ⟨rfl, nofun⟩
  | ok changed =>
      obtain ⟨⟨made, repairedList⟩, repaired, same⟩ := Attempt.bind_eq_ok imported
      cases same
      exact repair_reports repaired

theorem receive_reports {update : Update}
    (received : list.receive offered update = .ok (outcome, after)) :
    Reports list outcome after := by
  unfold receive at received
  split at received
  · cases received
    exact Or.inl ⟨rfl, nofun⟩
  · split at received
    · cases received
      exact Or.inl ⟨rfl, nofun⟩
    · have reports := afterImport_reports received
      exact reports

theorem merge_reports {batch : Batch}
    (merged : list.merge offered batch = .ok (outcome, after)) :
    Reports list outcome after := by
  unfold merge at merged
  split at merged
  · cases merged
    exact Or.inl ⟨rfl, nofun⟩
  · have reports := afterImport_reports merged
    exact reports

end MemberList

end Roster
