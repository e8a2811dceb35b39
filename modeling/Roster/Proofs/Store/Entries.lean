import Roster.Proofs.Store.Log

/-!
# The entries of a document

Of the operations on a key the one of greatest rank is in force.  Documents
that hold the same operations therefore have the same entries, in whatever
order the operations arrived.  An operation appended locally outranks all
others, so the entries after it are the entries before it, edited.
-/

namespace Roster

namespace Operation

theorem outranks_iff {left right : Operation} :
    left.outranks right = true ↔
      right.lamport < left.lamport ∨
        left.lamport = right.lamport ∧ right.replica.value < left.replica.value := by
  simp [outranks]

theorem not_outranks_iff {left right : Operation} :
    left.outranks right = false ↔
      left.lamport < right.lamport ∨
        left.lamport = right.lamport ∧ left.replica.value ≤ right.replica.value := by
  rw [← Bool.not_eq_true, outranks_iff, UInt64.le_iff_toNat_le, UInt64.lt_iff_toNat_lt]
  omega

private theorem not_outranks_self (operation : Operation) : operation.outranks operation = false :=
  not_outranks_iff.mpr (Or.inr ⟨rfl, UInt64.le_refl _⟩)

/-- Ranks are ordered: what does not outrank an operation does not outrank one
that outranks it. -/
private theorem not_outranks_of_outranks {first second third : Operation}
    (low : first.outranks second = false) (high : third.outranks second = true) :
    first.outranks third = false := by
  rw [not_outranks_iff, UInt64.le_iff_toNat_le] at low ⊢
  rw [outranks_iff, UInt64.lt_iff_toNat_lt] at high
  omega

/-- Operations that do not outrank each other are of one replica and have one
Lamport number. -/
private theorem same_rank {left right : Operation} (leftLow : left.outranks right = false)
    (rightLow : right.outranks left = false) :
    left.lamport = right.lamport ∧ left.replica = right.replica := by
  rw [not_outranks_iff, UInt64.le_iff_toNat_le] at leftLow rightLow
  have sameValue : left.replica.value = right.replica.value := by
    apply UInt64.toNat_inj.mp
    omega
  have sameReplica : left.replica = right.replica := by
    cases leftReplica : left.replica
    cases rightReplica : right.replica
    simpa [leftReplica, rightReplica] using sameValue
  exact ⟨by omega, sameReplica⟩

end Operation

namespace Document

variable {document : Document} {map key : String}

/-! ## The operation in force -/

/-- One more operation competes for its key. -/
def elect (map : String) (chosen : SortedMap String Operation) (operation : Operation) :
    SortedMap String Operation :=
  if operation.map = map then
    match chosen.get? operation.key with
    | some other =>
        if operation.outranks other then
          chosen.insert operation.key operation
        else
          chosen
    | none => chosen.insert operation.key operation
  else
    chosen

/-- The operation in force for every key of a map in a log. -/
def chosenIn (map : String) (log : List Operation) : SortedMap String Operation :=
  log.foldl (elect map) SortedMap.empty

private theorem chosenIn_append_singleton (log : List Operation) (operation : Operation) :
    chosenIn map (log ++ [operation]) = elect map (chosenIn map log) operation := by
  rw [chosenIn, List.foldl_append]
  rfl

theorem get?_chosenIn_append_of_ne {log : List Operation} {operation : Operation}
    (elsewhere : ¬ (operation.map = map ∧ operation.key = key)) :
    (chosenIn map (log ++ [operation])).get? key = (chosenIn map log).get? key := by
  rw [chosenIn_append_singleton, elect]
  by_cases sameMap : operation.map = map
  · have otherKey : key ≠ operation.key := fun same => elsewhere ⟨sameMap, same.symm⟩
    rw [if_pos sameMap]
    split
    · split
      · rw [SortedMap.get?_insert, if_neg otherKey]
      · rfl
    · rw [SortedMap.get?_insert, if_neg otherKey]
  · rw [if_neg sameMap]

theorem get?_chosenIn_append {log : List Operation} {operation : Operation}
    (sameMap : operation.map = map) :
    (chosenIn map (log ++ [operation])).get? operation.key =
      match (chosenIn map log).get? operation.key with
      | some other => some (if operation.outranks other then operation else other)
      | none => some operation := by
  rw [chosenIn_append_singleton, elect, if_pos sameMap]
  cases found : (chosenIn map log).get? operation.key with
  | none => simp [SortedMap.get?_insert]
  | some other =>
      by_cases higher : operation.outranks other = true
      · simp [higher, SortedMap.get?_insert]
      · simp [higher, found]

/-- The operation in force is one of the log on that key of that map. -/
theorem mem_of_get?_chosenIn {log : List Operation} {chosen : Operation}
    (found : (chosenIn map log).get? key = some chosen) :
    chosen ∈ log ∧ chosen.map = map ∧ chosen.key = key := by
  induction log using List.reverseRecOn generalizing chosen with
  | nil => cases found
  | append_singleton initial last inductionHypothesis =>
      by_cases here : last.map = map ∧ last.key = key
      · obtain ⟨sameMap, rfl⟩ := here
        rw [get?_chosenIn_append sameMap] at found
        split at found
        · rename_i other before
          split at found
          · cases found
            exact ⟨by simp, sameMap, rfl⟩
          · cases found
            obtain ⟨member, identity⟩ := inductionHypothesis before
            exact ⟨List.mem_append_left _ member, identity⟩
        · cases found
          exact ⟨by simp, sameMap, rfl⟩
      · rw [get?_chosenIn_append_of_ne here] at found
        obtain ⟨member, identity⟩ := inductionHypothesis found
        exact ⟨List.mem_append_left _ member, identity⟩

/-- No operation of the log outranks the one in force. -/
theorem exists_chosenIn_of_mem {log : List Operation} {operation : Operation}
    (member : operation ∈ log) (sameMap : operation.map = map) :
    ∃ chosen, (chosenIn map log).get? operation.key = some chosen ∧
      operation.outranks chosen = false := by
  induction log using List.reverseRecOn with
  | nil => exact absurd member List.not_mem_nil
  | append_singleton initial last inductionHypothesis =>
      by_cases here : last.map = map ∧ last.key = operation.key
      · obtain ⟨lastMap, sameKey⟩ := here
        rw [← sameKey, get?_chosenIn_append lastMap]
        rcases List.mem_append.mp member with earlier | final
        · obtain ⟨chosen, found, low⟩ := inductionHypothesis earlier
          rw [sameKey, found]
          by_cases higher : last.outranks chosen = true
          · exact ⟨last, by simp [higher], Operation.not_outranks_of_outranks low higher⟩
          · exact ⟨chosen, by simp [higher], low⟩
        · cases List.mem_singleton.mp final
          cases (chosenIn map initial).get? operation.key with
          | none => exact ⟨operation, rfl, operation.not_outranks_self⟩
          | some other =>
              by_cases higher : operation.outranks other = true
              · exact ⟨operation, by simp [higher], operation.not_outranks_self⟩
              · exact ⟨other, by simp [higher], by simpa using higher⟩
      · rcases List.mem_append.mp member with earlier | final
        · rw [get?_chosenIn_append_of_ne here]
          exact inductionHypothesis earlier
        · cases List.mem_singleton.mp final
          exact absurd ⟨sameMap, rfl⟩ here

/-- What is in force after more operations was in force before, or is one of
them. -/
theorem get?_chosenIn_append_list {log more : List Operation} {chosen : Operation}
    (found : (chosenIn map (log ++ more)).get? key = some chosen) :
    (chosenIn map log).get? key = some chosen ∨ chosen ∈ more := by
  induction more using List.reverseRecOn generalizing chosen with
  | nil =>
      rw [List.append_nil] at found
      exact Or.inl found
  | append_singleton initial last inductionHypothesis =>
      rw [← List.append_assoc] at found
      have earlier :
          ∀ {chosen : Operation}, (chosenIn map (log ++ initial)).get? key = some chosen →
            (chosenIn map log).get? key = some chosen ∨ chosen ∈ initial ++ [last] := by
        intro chosen before
        rcases inductionHypothesis before with inLog | inInitial
        · exact Or.inl inLog
        · exact Or.inr (List.mem_append_left _ inInitial)
      by_cases here : last.map = map ∧ last.key = key
      · obtain ⟨sameMap, rfl⟩ := here
        rw [get?_chosenIn_append sameMap] at found
        split at found
        · rename_i other before
          split at found
          · cases found
            exact Or.inr (by simp)
          · cases found
            exact earlier before
        · cases found
          exact Or.inr (by simp)
      · rw [get?_chosenIn_append_of_ne here] at found
        exact earlier found

/-! ## Entries -/

def entriesOf (map : String) (log : List Operation) : SortedMap String String :=
  (chosenIn map log).filterMap fun _ operation => operation.value

theorem entries_eq (document : Document) (map : String) :
    document.entries map = entriesOf map document.applied :=
  rfl

theorem get?_entriesOf (log : List Operation) :
    (entriesOf map log).get? key = ((chosenIn map log).get? key).bind (·.value) :=
  SortedMap.get?_filterMap _ _ _

/-- An entry is due to an operation of the log that puts it. -/
theorem exists_put_of_get?_entriesOf {log : List Operation} {value : String}
    (found : (entriesOf map log).get? key = some value) :
    ∃ operation ∈ log, operation.map = map ∧ operation.key = key ∧
      operation.value = some value := by
  rw [get?_entriesOf, Option.bind_eq_some_iff] at found
  obtain ⟨chosen, inForce, put⟩ := found
  obtain ⟨member, sameMap, sameKey⟩ := mem_of_get?_chosenIn inForce
  exact ⟨chosen, member, sameMap, sameKey, put⟩

/-- A key is absent once a delete outranks every operation that puts it. -/
theorem get?_entriesOf_eq_none {log : List Operation} {delete : Operation}
    (member : delete ∈ log) (sameMap : delete.map = map)
    (beaten :
      ∀ put ∈ log, put.map = map → put.key = delete.key → put.value.isSome = true →
        delete.outranks put = true) :
    (entriesOf map log).get? delete.key = none := by
  obtain ⟨chosen, found, low⟩ := exists_chosenIn_of_mem member sameMap
  obtain ⟨chosenMember, chosenMap, chosenKey⟩ := mem_of_get?_chosenIn found
  rw [get?_entriesOf, found, Option.bind_some]
  cases value : chosen.value with
  | none => rfl
  | some text =>
      have higher := beaten chosen chosenMember chosenMap chosenKey (by simp [value])
      rw [low] at higher
      cases higher

/-- Where none of the operations that are appended puts a key, the key is as it
was or has no entry. -/
theorem get?_entriesOf_append {log more : List Operation}
    (deletes :
      ∀ operation ∈ more, operation.map = map → operation.key = key → operation.value = none) :
    (entriesOf map (log ++ more)).get? key = (entriesOf map log).get? key ∨
      (entriesOf map (log ++ more)).get? key = none := by
  rw [get?_entriesOf, get?_entriesOf]
  cases found : (chosenIn map (log ++ more)).get? key with
  | none => exact Or.inr rfl
  | some chosen =>
      obtain ⟨_, sameMap, sameKey⟩ := mem_of_get?_chosenIn found
      rcases get?_chosenIn_append_list found with before | appended
      · rw [before]
        exact Or.inl rfl
      · exact Or.inr (deletes chosen appended sameMap sameKey)

/-- An entry was there before more operations, or one of them puts it. -/
theorem get?_entriesOf_append_eq_some {log more : List Operation} {value : String}
    (found : (entriesOf map (log ++ more)).get? key = some value) :
    (entriesOf map log).get? key = some value ∨
      ∃ put ∈ more, put.map = map ∧ put.key = key ∧ put.value = some value := by
  rw [get?_entriesOf, Option.bind_eq_some_iff] at found
  obtain ⟨chosen, inForce, put⟩ := found
  obtain ⟨_, sameMap, sameKey⟩ := mem_of_get?_chosenIn inForce
  rcases get?_chosenIn_append_list inForce with before | added
  · rw [get?_entriesOf, before]
    exact Or.inl put
  · exact Or.inr ⟨chosen, added, sameMap, sameKey, put⟩

/-- A key that has no entry after more operations had none before, or one of
them deletes it. -/
theorem get?_entriesOf_append_eq_none {log more : List Operation}
    (absent : (entriesOf map (log ++ more)).get? key = none) :
    (entriesOf map log).get? key = none ∨
      ∃ delete ∈ more, delete.map = map ∧ delete.key = key ∧ delete.value = none := by
  rw [get?_entriesOf] at absent ⊢
  cases before : (chosenIn map log).get? key with
  | none => exact Or.inl rfl
  | some earlier =>
      obtain ⟨held, sameMap, rfl⟩ := mem_of_get?_chosenIn before
      obtain ⟨chosen, inForce, _⟩ :=
        exists_chosenIn_of_mem (List.mem_append_left more held) sameMap
      rw [inForce] at absent
      obtain ⟨_, chosenMap, chosenKey⟩ := mem_of_get?_chosenIn inForce
      rcases get?_chosenIn_append_list inForce with kept | added
      · rw [before] at kept
        cases kept
        exact Or.inl absent
      · exact Or.inr ⟨chosen, added, chosenMap, chosenKey, absent⟩

/-- A key that has an operation but no entry was deleted. -/
theorem exists_delete_of_get?_entriesOf {log : List Operation} {operation : Operation}
    (held : operation ∈ log) (sameMap : operation.map = map)
    (absent : (entriesOf map log).get? operation.key = none) :
    ∃ delete ∈ log, delete.key = operation.key ∧ delete.value = none := by
  obtain ⟨chosen, inForce, _⟩ := exists_chosenIn_of_mem held sameMap
  obtain ⟨chosenHeld, _, chosenKey⟩ := mem_of_get?_chosenIn inForce
  rw [get?_entriesOf, inForce] at absent
  exact ⟨chosen, chosenHeld, chosenKey, absent⟩

/-- Logs with the same operations give the same entries, where an operation
is determined by its replica and its Lamport number. -/
theorem entriesOf_eq_of_mem_iff {left right : List Operation}
    (sameMembers : ∀ operation, operation ∈ left ↔ operation ∈ right)
    (ranked :
      ∀ first ∈ left, ∀ second ∈ left, first.lamport = second.lamport →
        first.replica = second.replica → first = second) :
    entriesOf map left = entriesOf map right := by
  have sameChosen : ∀ key, (chosenIn map left).get? key = (chosenIn map right).get? key := by
    intro key
    cases leftFound : (chosenIn map left).get? key with
    | none =>
        cases rightFound : (chosenIn map right).get? key with
        | none => rfl
        | some chosen =>
            obtain ⟨member, sameMap, rfl⟩ := mem_of_get?_chosenIn rightFound
            obtain ⟨_, found, _⟩ :=
              exists_chosenIn_of_mem ((sameMembers chosen).mpr member) sameMap
            rw [leftFound] at found
            cases found
    | some leftChosen =>
        obtain ⟨leftMember, leftMap, leftKey⟩ := mem_of_get?_chosenIn leftFound
        obtain ⟨rightChosen, rightFound, leftLow⟩ :=
          exists_chosenIn_of_mem ((sameMembers leftChosen).mp leftMember) leftMap
        rw [leftKey] at rightFound
        obtain ⟨rightMember, rightMap, rightKey⟩ := mem_of_get?_chosenIn rightFound
        obtain ⟨other, otherFound, rightLow⟩ :=
          exists_chosenIn_of_mem ((sameMembers rightChosen).mpr rightMember) rightMap
        rw [rightKey, leftFound] at otherFound
        cases otherFound
        obtain ⟨sameLamport, sameReplica⟩ := Operation.same_rank leftLow rightLow
        rw [rightFound,
          ranked leftChosen leftMember rightChosen ((sameMembers rightChosen).mpr rightMember)
            sameLamport sameReplica]
  apply SortedMap.ext_get?
  intro key
  rw [get?_entriesOf, get?_entriesOf, sameChosen]

/-! ## Local operations -/

theorem lamport_lt_nextLamport {operation : Operation} (member : operation ∈ document.applied) :
    operation.lamport < document.nextLamport := by
  unfold nextLamport
  generalize document.applied = log at member
  induction log using List.reverseRecOn with
  | nil => exact absurd member List.not_mem_nil
  | append_singleton initial last inductionHypothesis =>
      rw [List.foldl_append, List.foldl_cons, List.foldl_nil]
      rcases List.mem_append.mp member with earlier | final
      · have below := inductionHypothesis earlier
        omega
      · cases List.mem_singleton.mp final
        omega

def nextOperation (document : Document) (author : ReplicaId) (needs : Version) (map : String)
    (edit : Edit) : Operation :=
  { replica := author
    counter := document.version.count author
    lamport := document.nextLamport
    needs
    map
    key := edit.key
    value := edit.value }

theorem applied_append (author : ReplicaId) (needs : Version) (edit : Edit) :
    (document.append author needs map edit).applied =
      document.applied ++ [document.nextOperation author needs map edit] :=
  rfl

/-- A local operation decides its key and leaves all other entries. -/
theorem get?_entries_append (author : ReplicaId) (needs : Version) (edit : Edit) :
    ((document.append author needs map edit).entries map).get? key =
      if key = edit.key then edit.value else (document.entries map).get? key := by
  rw [entries_eq, entries_eq, applied_append, get?_entriesOf, get?_entriesOf]
  by_cases here : key = edit.key
  · subst here
    have appended :
        (chosenIn map
            (document.applied ++ [document.nextOperation author needs map edit])).get? edit.key =
          match (chosenIn map document.applied).get? edit.key with
          | some other =>
              some
                (if (document.nextOperation author needs map edit).outranks other then
                  document.nextOperation author needs map edit
                else other)
          | none => some (document.nextOperation author needs map edit) :=
      get?_chosenIn_append rfl
    rw [appended, if_pos rfl]
    split
    · rename_i other found
      have below := lamport_lt_nextLamport (mem_of_get?_chosenIn found).1
      have higher :
          (document.nextOperation author needs map edit).outranks other = true :=
        Operation.outranks_iff.mpr (Or.inl below)
      rw [if_pos higher]
      rfl
    · rfl
  · rw [if_neg here, get?_chosenIn_append_of_ne]
    rintro ⟨_, sameKey⟩
    exact here sameKey.symm

end Document

end Roster
