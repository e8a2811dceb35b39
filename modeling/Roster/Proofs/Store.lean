import Roster.Proofs.Store.Document
import Roster.Proofs.Store.Operation
import Roster.Store

/-!
# Changes of a store

A batch of edits and an import each change one document.  The delta of a batch
holds exactly the operations that the batch appended.
-/

namespace Roster.Store

variable {store : Store} {uri : String}

theorem document_keep (store : Store) (uri tested : String) (document : Document) :
    (store.keep uri document).document tested =
      if tested = uri then document else store.document tested := by
  simp only [Store.document, keep, SortedMap.get?_insert]
  split <;> rfl

@[simp]
theorem document_keep_self (store : Store) (uri : String) (document : Document) :
    (store.keep uri document).document uri = document := by
  rw [document_keep, if_pos rfl]

theorem document_keep_of_ne (store : Store) {uri tested : String} (document : Document)
    (different : tested ≠ uri) :
    (store.keep uri document).document tested = store.document tested := by
  rw [document_keep, if_neg different]

/-! ## Editing -/

/-- The operations of a log that were appended to it after a shorter one. -/
theorem write_fst {more : List Operation} {edits : List Edit}
    (causal : Document.Causal (store.document uri).applied)
    (applied :
      ((store.document uri).write store.replica uri edits).applied =
        (store.document uri).applied ++ more) :
    (store.write uri edits).1 =
      if more = [] then none else some { uri, delta := Delta.toBytes more } := by
  have causalAfter := Document.causal_write causal store.replica uri edits
  rw [applied] at causalAfter
  have exported := Document.since?_versionOf causalAfter applied
  unfold write
  simp only [Document.version_eq (store.document uri), exported]
  split <;> rfl

/-! ## Importing -/

/-- A running store imports whatever is a delta. -/
theorem receive_eq {operations : List Operation} {delta : Bytes} (running : store.stopped = false)
    (readable : Delta.ofBytes? delta = some operations) :
    store.receive { uri, delta } =
      (.ok
          !((store.document uri).version.includes
              ((store.document uri).receive operations).version),
        store.keep uri ((store.document uri).receive operations)) := by
  simp [receive, running, readable]

/-- It refuses bytes that are no delta. -/
theorem receive_unreadable {delta : Bytes} (running : store.stopped = false)
    (unreadable : Delta.ofBytes? delta = none) :
    store.receive { uri, delta } = (.error .unreadable, store.keep uri (store.document uri)) := by
  simp [receive, running, unreadable]

/-- An import that does not advance the version lets nothing take effect. -/
theorem applied_receive_of_includes {operations : List Operation} {document : Document}
    (causal : Document.Causal document.applied)
    (behind : document.version.includes (document.receive operations).version = true) :
    (document.receive operations).applied = document.applied := by
  obtain ⟨more, applied, _⟩ := Document.applied_receive document operations
  have causalAfter := Document.causal_receive causal operations
  have exported := Document.since?_versionOf (applied ▸ causalAfter) applied
  rw [← Document.version_eq, Document.since?, behind, if_pos rfl] at exported
  split at exported
  · rename_i empty
    rw [applied, empty, List.append_nil]
  · cases exported

/-- A store comes from another by imports of operations that are admitted. -/
inductive Imports (admitted : String → Operation → Prop) : Store → Store → Prop
  | refl (store : Store) : Imports admitted store store
  | receive {store after : Store} {uri : String} {operations : List Operation} :
      (∀ operation ∈ operations, admitted uri operation) →
        Imports admitted (store.keep uri ((store.document uri).receive operations)) after →
          Imports admitted store after

/-- The same maps hold the same operations as before. -/
def Unmoved (before after : Store) : Prop :=
  ∀ uri, (after.document uri).applied = (before.document uri).applied

theorem causal_keep_receive (uri : String) (operations : List Operation)
    (causal : ∀ tested, Document.Causal (store.document tested).applied) (tested : String) :
    Document.Causal
      ((store.keep uri ((store.document uri).receive operations)).document tested).applied := by
  rw [document_keep]
  split
  · exact Document.causal_receive (causal uri) operations
  · exact causal tested

/-- The operation has taken effect or waits for others. -/
def Holds (store : Store) (uri : String) (operation : Operation) : Prop :=
  operation ∈ (store.document uri).applied ∨ operation ∈ (store.document uri).waiting

/-- One of the deltas says the operation about a map. -/
def Says (deltas : List (String × Bytes)) (uri : String) (operation : Operation) : Prop :=
  ∃ delta, (uri, delta) ∈ deltas ∧
    ∃ operations, Delta.ofBytes? delta = some operations ∧ operation ∈ operations

private theorem holds_of_receive {delta : Bytes} {tested : String} {operation : Operation}
    (held : (store.receive { uri, delta }).2.Holds tested operation) :
    store.Holds tested operation ∨ Says [(uri, delta)] tested operation := by
  unfold receive at held
  split at held
  · exact Or.inl held
  · split at held
    · rw [Holds, document_keep] at held
      split at held
      · rename_i here
        rw [Holds, here]
        exact Or.inl held
      · exact Or.inl held
    · rename_i operations readable
      rw [Holds, document_keep] at held
      split at held
      · rename_i here
        subst here
        obtain ⟨more, applied, taken, left⟩ :=
          Document.applied_receive (store.document tested) operations
        have said : operation ∈ operations → Says [(tested, delta)] tested operation :=
          fun member => ⟨delta, List.mem_singleton_self _, operations, readable, member⟩
        rcases held with inApplied | inWaiting
        · rw [applied] at inApplied
          rcases List.mem_append.mp inApplied with before | added
          · exact Or.inl (Or.inl before)
          · exact (taken operation added).imp Or.inr said
        · exact (left operation inWaiting).imp Or.inr said
      · exact Or.inl held

/-- A store holds what it held before and what it was told. -/
theorem holds_of_receiveAll {tested : String} {operation : Operation} :
    ∀ {deltas : List (String × Bytes)} {store : Store},
      (receiveAll deltas store).2.Holds tested operation →
        store.Holds tested operation ∨ Says deltas tested operation
  | [], _, held => Or.inl held
  | (uri, delta) :: rest, store, held => by
      have known :
          (store.receive { uri, delta }).2.Holds tested operation →
            store.Holds tested operation ∨ Says ((uri, delta) :: rest) tested operation := by
        intro received
        refine (holds_of_receive received).imp_right ?_
        rintro ⟨bytes, among, said⟩
        exact ⟨bytes, List.mem_append_left rest among, said⟩
      unfold receiveAll at held
      split at held
      · rename_i received
        rw [received] at known
        exact known held
      · rename_i received
        rw [received] at known
        rcases holds_of_receiveAll held with before | ⟨bytes, among, said⟩
        · exact known before
        · exact Or.inr ⟨bytes, List.mem_cons_of_mem _ among, said⟩

/-- Honest deltas are imported one after the other; if none advances a
document, nothing has taken effect. -/
theorem receiveAll_eq {admitted : String → Operation → Prop} :
    ∀ {entries : List (String × Bytes)} {store : Store},
      store.stopped = false →
        (∀ uri, Document.Causal (store.document uri).applied) →
          (∀ entry ∈ entries, ∃ operations, Delta.ofBytes? entry.2 = some operations ∧
            ∀ operation ∈ operations, admitted entry.1 operation) →
            ∃ uris after, receiveAll entries store = (.ok uris, after) ∧
              Imports admitted store after ∧ (uris = [] → Unmoved store after)
  | [], store, _, _, _ => ⟨[], store, rfl, Imports.refl store, fun _ _ => rfl⟩
  | (uri, delta) :: rest, store, running, causal, honest => by
      obtain ⟨operations, readable, admits⟩ := honest _ List.mem_cons_self
      have honestLater := fun entry member => honest entry (List.mem_cons_of_mem _ member)
      have received :
          store.receive { uri, delta } =
            (.ok
                !((store.document uri).version.includes
                    ((store.document uri).receive operations).version),
              store.keep uri ((store.document uri).receive operations)) :=
        receive_eq running readable
      have stillRunning :
          (store.keep uri ((store.document uri).receive operations)).stopped = false :=
        running
      obtain ⟨uris, after, imported, imports, unmoved⟩ :=
        receiveAll_eq stillRunning (causal_keep_receive uri operations causal) honestLater
      rw [receiveAll, received]
      simp only [imported]
      refine ⟨_, after, rfl, Imports.receive admits imports, ?_⟩
      intro nothing tested
      cases behind :
          (store.document uri).version.includes
            ((store.document uri).receive operations).version with
      | false => simp [behind] at nothing
      | true =>
          have none : uris = [] := by simpa [behind] using nothing
          rw [unmoved none tested, document_keep]
          split
          · rename_i here
            rw [applied_receive_of_includes (causal uri) behind, here]
          · rfl

/-- A store that refuses a series of deltas has imported those before the first
that it cannot read. -/
theorem receiveAll_eq_error {fault : Fault} :
    ∀ {entries : List (String × Bytes)} {store after : Store},
      store.stopped = false →
        receiveAll entries store = (.error fault, after) →
          ∃ earlier uri delta later between,
            entries = earlier ++ (uri, delta) :: later ∧ Delta.ofBytes? delta = none ∧
              fault = .unreadable ∧
                (∃ uris, receiveAll earlier store = (.ok uris, between)) ∧
                  after = between.keep uri (between.document uri)
  | [], _, _, _, refused => by
      cases refused
  | (uri, delta) :: rest, store, after, running, refused => by
      cases read : Delta.ofBytes? delta with
      | none =>
          rw [receiveAll, receive_unreadable running read] at refused
          cases refused
          exact ⟨[], uri, delta, rest, store, rfl, read, rfl, ⟨[], rfl⟩, rfl⟩
      | some operations =>
          have received :
              store.receive { uri, delta } =
                (.ok
                    !((store.document uri).version.includes
                        ((store.document uri).receive operations).version),
                  store.keep uri ((store.document uri).receive operations)) :=
            receive_eq running read
          have stillRunning :
              (store.keep uri ((store.document uri).receive operations)).stopped = false :=
            running
          rw [receiveAll, received] at refused
          cases restRefused :
              receiveAll rest (store.keep uri ((store.document uri).receive operations)) with
          | mk result current =>
              simp only [restRefused] at refused
              obtain ⟨failed, rfl⟩ := Prod.mk.inj refused
              cases result with
              | ok uris => cases failed
              | error other =>
                  cases failed
                  obtain ⟨earlier, badUri, bad, later, between, split, unreadable, same,
                    ⟨uris, imported⟩, kept⟩ :=
                    receiveAll_eq_error stillRunning restRefused
                  refine
                    ⟨(uri, delta) :: earlier, badUri, bad, later, between, ?_, unreadable,
                      same, ?_, kept⟩
                  · rw [split, List.cons_append]
                  · rw [receiveAll, received]
                    simp only [imported]
                    exact ⟨_, rfl⟩

/-! ## Exporting -/

/-- A batch consists of deltas of operations that the store holds. -/
theorem mem_of_since {digest : Digest} {batch : Batch} (made : store.since digest = .ok batch)
    {entry : String × Bytes} (inside : entry ∈ batch.entries) :
    ∃ operations, Delta.ofBytes? entry.2 = some operations ∧
      ∀ operation ∈ operations, operation ∈ (store.document entry.1).applied := by
  obtain ⟨uri, delta⟩ := entry
  unfold since at made
  split at made
  · cases made
    have found := SortedMap.get?_eq_some_iff.mpr inside
    rw [SortedMap.get?_filterMap, Option.bind_eq_some_iff] at found
    obtain ⟨document, kept, exported⟩ := found
    simp only [Option.bind_eq_bind, Option.bind_eq_some_iff] at exported
    obtain ⟨theirs, _, operations, lacked, bytes⟩ := exported
    cases bytes
    have sameDocument : store.document uri = document := by
      simp [Store.document, kept]
    refine ⟨operations, Delta.ofBytes?_toBytes operations, ?_⟩
    intro operation member
    rw [sameDocument]
    exact Document.mem_of_since? lacked member
  · cases made

end Roster.Store
