import Mathlib.Data.List.Basic
import Roster.Proofs.Store.Entries

/-!
# Changes of a document

A document changes in two ways.  An import appends operations that were given
to it and are ready, until none that waits is ready.  A batch of edits appends
one operation of the author for every edit that is not dropped.  Both keep the
log causal, and neither forgets an operation.
-/

namespace Roster.Document

variable {document : Document} {map key : String}

/-! ## Settling -/

/-- What holds of a document and is kept when a ready operation takes effect
holds once none is ready. -/
private theorem settle_induction (motive : Document → Prop)
    (takeEffect :
      ∀ (document : Document) (operation : Operation),
        motive document → operation ∈ document.waiting →
          readyAt document.version operation = true →
            motive
              { applied := document.applied ++ [operation]
                waiting := document.waiting.erase operation })
    (start : motive document) :
    motive document.settle := by
  induction document using settle.induct with
  | case1 document found =>
      rw [settle.eq_def]
      split
      · exact start
      · rename_i operation other
        rw [found] at other
        cases other
  | case2 document operation found member _ _ inductionHypothesis =>
      rw [settle.eq_def]
      split
      · rename_i none
        rw [found] at none
        cases none
      · rename_i other otherFound
        rw [found] at otherFound
        cases otherFound
        exact inductionHypothesis (takeEffect document operation start member
          (List.find?_some found))

private theorem not_readyAt_of_mem_settle {operation : Operation}
    (member : operation ∈ document.settle.waiting) :
    readyAt document.settle.version operation = false := by
  induction document using settle.induct with
  | case1 document found =>
      have unchanged : document.settle = document := by
        rw [settle.eq_def]
        split
        · rfl
        · rename_i other
          rw [found] at other
          cases other
      rw [unchanged] at member ⊢
      simpa using List.find?_eq_none.mp found operation member
  | case2 document first found _ _ _ inductionHypothesis =>
      have unfolded :
          document.settle =
            settle
              { applied := document.applied ++ [first]
                waiting := document.waiting.erase first } := by
        rw [settle.eq_def]
        split
        · rename_i none
          rw [found] at none
          cases none
        · rename_i other
          rw [found] at other
          cases other
          rfl
      rw [unfolded] at member ⊢
      exact inductionHypothesis member

/-- Operations that waited take effect or go on waiting. -/
theorem applied_settle (document : Document) :
    ∃ more, document.settle.applied = document.applied ++ more ∧
      document.waiting.Perm (more ++ document.settle.waiting) := by
  refine
    settle_induction
      (fun settled : Document =>
        ∃ more, settled.applied = document.applied ++ more ∧
          document.waiting.Perm (more ++ settled.waiting))
      ?_ ?_
  · rintro settled operation ⟨more, applied, waiting⟩ member _
    refine ⟨more ++ [operation], ?_, ?_⟩
    · rw [applied, List.append_assoc]
    · refine waiting.trans ?_
      rw [List.append_assoc, List.singleton_append]
      exact List.Perm.append_left more (List.perm_cons_erase member)
  · exact ⟨[], by simp, by simp⟩

private theorem causal_settle (causal : Causal document.applied) :
    Causal document.settle.applied := by
  refine settle_induction (fun settled : Document => Causal settled.applied) ?_ causal
  intro settled operation causalSettled _ ready
  exact causalSettled.append ready

/-! ## Importing -/

/-- Everything that takes effect had waited or was imported. -/
theorem applied_receive (document : Document) (delta : List Operation) :
    ∃ more, (document.receive delta).applied = document.applied ++ more ∧
      (∀ operation ∈ more, operation ∈ document.waiting ∨ operation ∈ delta) ∧
      ∀ operation ∈ (document.receive delta).waiting,
        operation ∈ document.waiting ∨ operation ∈ delta := by
  unfold receive
  obtain ⟨more, applied, waiting⟩ := applied_settle
    { document with
      waiting :=
        document.waiting ++
          delta.filter fun operation =>
            !containedIn document.version operation && !document.waiting.contains operation }
  have known :
      ∀ operation, operation ∈ document.waiting ++
          delta.filter (fun operation =>
            !containedIn document.version operation && !document.waiting.contains operation) →
        operation ∈ document.waiting ∨ operation ∈ delta := by
    intro operation member
    rcases List.mem_append.mp member with waited | fresh
    · exact Or.inl waited
    · exact Or.inr (List.mem_filter.mp fresh).1
  refine ⟨more, applied, ?_, ?_⟩
  · intro operation member
    exact known operation (waiting.mem_iff.mpr (List.mem_append_left _ member))
  · intro operation member
    exact known operation (waiting.mem_iff.mpr (List.mem_append_right _ member))

theorem causal_receive (causal : Causal document.applied) (delta : List Operation) :
    Causal (document.receive delta).applied :=
  causal_settle causal

theorem not_readyAt_of_mem_receive {delta : List Operation} {operation : Operation}
    (member : operation ∈ (document.receive delta).waiting) :
    readyAt (document.receive delta).version operation = false :=
  not_readyAt_of_mem_settle member

/-- No operation that waited is forgotten. -/
theorem mem_receive_of_waiting {operation : Operation} (delta : List Operation)
    (member : operation ∈ document.waiting) :
    operation ∈ (document.receive delta).applied ∨
      operation ∈ (document.receive delta).waiting := by
  unfold receive
  obtain ⟨more, applied, waiting⟩ := applied_settle
    { document with
      waiting :=
        document.waiting ++
          delta.filter fun operation =>
            !containedIn document.version operation && !document.waiting.contains operation }
  rcases List.mem_append.mp (waiting.mem_iff.mp (List.mem_append_left _ member)) with
    taken | left
  · exact Or.inl (by rw [applied]; exact List.mem_append_right _ taken)
  · exact Or.inr left

/-- No operation that is imported is forgotten, unless it was there already. -/
theorem mem_receive {delta : List Operation} {operation : Operation}
    (member : operation ∈ delta) :
    containedIn document.version operation = true ∨
      operation ∈ (document.receive delta).applied ∨
        operation ∈ (document.receive delta).waiting := by
  by_cases contained : containedIn document.version operation = true
  · exact Or.inl contained
  by_cases waited : operation ∈ document.waiting
  · exact Or.inr (mem_receive_of_waiting delta waited)
  have fresh :
      operation ∈ document.waiting ++
        delta.filter fun operation =>
          !containedIn document.version operation && !document.waiting.contains operation := by
    apply List.mem_append_right
    rw [List.mem_filter]
    exact ⟨member, by simp [contained, waited]⟩
  unfold receive
  obtain ⟨more, applied, waiting⟩ := applied_settle
    { document with
      waiting :=
        document.waiting ++
          delta.filter fun operation =>
            !containedIn document.version operation && !document.waiting.contains operation }
  rcases List.mem_append.mp (waiting.mem_iff.mp fresh) with taken | left
  · exact Or.inr (Or.inl (by rw [applied]; exact List.mem_append_right _ taken))
  · exact Or.inr (Or.inr left)

/-! ## Editing -/

/-- One edit of a batch that began at a document. -/
def edited (base : Document) (author : ReplicaId) (map : String) (written : Document)
    (edit : Edit) : Document :=
  if edit.changes (base.entries map) &&
      (edit.value.isNone || edit.changes (written.entries map)) then
    written.append author base.version map edit
  else
    written

theorem write_eq_foldl (author : ReplicaId) (edits : List Edit) :
    document.write author map edits = edits.foldl (document.edited author map) document :=
  rfl

private theorem edited_cases (base : Document) (author : ReplicaId) (map : String)
    (written : Document) (edit : Edit) :
    base.edited author map written edit = written ∨
      edit.changes (base.entries map) = true ∧
        base.edited author map written edit =
          written.append author base.version map edit := by
  unfold edited
  split
  · rename_i changes
    rw [Bool.and_eq_true] at changes
    exact Or.inr ⟨changes.1, rfl⟩
  · exact Or.inl rfl

/-- What holds of a document and is kept by every edit that changes its
entries holds after a batch of edits. -/
theorem write_induction (motive : Document → Prop) {author : ReplicaId} {edits : List Edit}
    (append :
      ∀ (written : Document), ∀ edit ∈ edits,
        edit.changes (document.entries map) = true → motive written →
          motive (written.append author document.version map edit))
    (start : motive document) :
    motive (document.write author map edits) := by
  rw [write_eq_foldl]
  have holds :
      ∀ (rest : List Edit) (written : Document), (∀ edit ∈ rest, edit ∈ edits) →
        motive written → motive (rest.foldl (document.edited author map) written) := by
    intro rest
    induction rest with
    | nil =>
        intro written _ reached
        exact reached
    | cons edit later inductionHypothesis =>
        intro written within reached
        rw [List.foldl_cons]
        apply inductionHypothesis
        · exact fun other member => within other (List.mem_cons_of_mem _ member)
        · rcases edited_cases document author map written edit with
            same | ⟨changes, appended⟩
          · rwa [same]
          · rw [appended]
            exact append written edit (within edit List.mem_cons_self) changes reached
  exact holds edits document (fun _ member => member) start

theorem waiting_write (document : Document) (author : ReplicaId) (map : String)
    (edits : List Edit) :
    (document.write author map edits).waiting = document.waiting := by
  refine
    write_induction
      (fun written : Document => written.waiting = document.waiting)
      ?_ ?_
  · intro written edit _ _ same
    exact same
  · rfl

/-- The operation is the author's, for one of the edits that change the
entries of a document. -/
structure Stems (document : Document) (author : ReplicaId) (map : String) (edits : List Edit)
    (operation : Operation) : Prop where
  replica_eq : operation.replica = author
  map_eq : operation.map = map
  needs_eq : operation.needs = document.version
  exists_edit : ∃ edit ∈ edits, edit.changes (document.entries map) = true ∧
    operation.key = edit.key ∧ operation.value = edit.value

/-- The author's operations have a greater Lamport number than all that stand
before them. -/
def Ascending (author : ReplicaId) (log : List Operation) : Prop :=
  log.Pairwise fun earlier later => later.replica = author → earlier.lamport < later.lamport

/-- The Lamport numbers of an author tell its operations apart. -/
theorem Ascending.eq_of_same_lamport {author : ReplicaId} :
    ∀ {log : List Operation}, Ascending author log →
      ∀ {left right : Operation}, left ∈ log → right ∈ log →
        left.replica = author → right.replica = author → left.lamport = right.lamport →
          left = right
  | [], _, _, _, leftMember, _, _, _, _ => absurd leftMember List.not_mem_nil
  | head :: tail, ascending, left, right, leftMember, rightMember, leftOwn, rightOwn, same => by
      have above := (List.pairwise_cons.mp ascending).1
      have ascendingTail : Ascending author tail := (List.pairwise_cons.mp ascending).2
      rcases List.mem_cons.mp leftMember with leftHere | leftLater <;>
        rcases List.mem_cons.mp rightMember with rightHere | rightLater
      · exact leftHere.trans rightHere.symm
      · have below := above right rightLater rightOwn
        rw [← leftHere, same] at below
        exact absurd below (Nat.lt_irrefl _)
      · have below := above left leftLater leftOwn
        rw [← rightHere, same] at below
        exact absurd below (Nat.lt_irrefl _)
      · exact ascendingTail.eq_of_same_lamport leftLater rightLater leftOwn rightOwn same

/-- Operations of others may follow. -/
theorem Ascending.append_foreign {author : ReplicaId} {log more : List Operation}
    (ascending : Ascending author log)
    (foreign : ∀ operation ∈ more, operation.replica ≠ author) :
    Ascending author (log ++ more) := by
  refine List.pairwise_append.mpr ⟨ascending, ?_, ?_⟩
  · exact List.pairwise_of_forall_mem_list fun _ _ later added own =>
      absurd own (foreign later added)
  · intro earlier _ later added own
    exact absurd own (foreign later added)

/-- A batch appends operations of its author, each ready in its turn. -/
theorem applied_write (document : Document) (author : ReplicaId) (map : String)
    (edits : List Edit) :
    ∃ more, (document.write author map edits).applied = document.applied ++ more ∧
      ∀ operation ∈ more, Stems document author map edits operation := by
  refine
    write_induction
      (fun written : Document =>
        ∃ more, written.applied = document.applied ++ more ∧
          ∀ operation ∈ more, Stems document author map edits operation)
      ?_ ?_
  · rintro written edit member changes ⟨more, applied, stems⟩
    refine
      ⟨more ++ [written.nextOperation author document.version map edit], ?_, ?_⟩
    · rw [applied_append, applied, List.append_assoc]
    · intro operation appended
      rcases List.mem_append.mp appended with earlier | last
      · exact stems operation earlier
      · cases List.mem_singleton.mp last
        exact
          { replica_eq := rfl
            map_eq := rfl
            needs_eq := rfl
            exists_edit := ⟨edit, member, changes, rfl, rfl⟩ }
  · exact ⟨[], by simp, by simp⟩

/-- A batch appends one operation for each edit at most. -/
theorem length_write_le (document : Document) (author : ReplicaId) (map : String)
    (edits : List Edit) :
    (document.write author map edits).applied.length ≤
      document.applied.length + edits.length := by
  rw [write_eq_foldl]
  have grows :
      ∀ (rest : List Edit) (written : Document),
        (rest.foldl (document.edited author map) written).applied.length ≤
          written.applied.length + rest.length := by
    intro rest
    induction rest with
    | nil => exact fun _ => Nat.le_refl _
    | cons edit later inductionHypothesis =>
        intro written
        rw [List.foldl_cons, List.length_cons]
        have rested := inductionHypothesis (document.edited author map written edit)
        rcases edited_cases document author map written edit with same | ⟨_, appended⟩
        · rw [same] at rested ⊢
          omega
        · rw [appended, applied_append, List.length_append, List.length_singleton] at rested
          rw [appended]
          omega
  exact grows edits document

/-- A single edit appends one operation at most. -/
theorem applied_write_singleton (document : Document) (author : ReplicaId) (map : String)
    (edit : Edit) :
    (document.write author map [edit]).applied = document.applied ∨
      (document.write author map [edit]).applied =
        document.applied ++ [document.nextOperation author document.version map edit] := by
  simp only [write, List.foldl_cons, List.foldl_nil]
  split
  · exact Or.inr rfl
  · exact Or.inl rfl

theorem causal_write (causal : Causal document.applied) (author : ReplicaId) (map : String)
    (edits : List Edit) :
    Causal (document.write author map edits).applied := by
  have kept :
      Causal (document.write author map edits).applied ∧
        (document.write author map edits).version.includes document.version = true := by
    refine
      write_induction
        (fun written : Document =>
          Causal written.applied ∧ written.version.includes document.version = true)
        ?_ ?_
    · rintro written edit _ _ ⟨causalWritten, includes⟩
      constructor
      · exact causalWritten.append (readyAt_iff.mpr ⟨rfl, includes⟩)
      · exact Version.includes_trans (includes_versionOf_append _ _) includes
    · exact ⟨causal, Version.includes_self _⟩
  exact kept.1

theorem ascending_write {author : ReplicaId} (ascending : Ascending author document.applied)
    (map : String) (edits : List Edit) :
    Ascending author (document.write author map edits).applied := by
  refine
    write_induction
      (fun written : Document => Ascending author written.applied)
      ?_ ?_
  · intro written edit _ _ ascendingWritten
    rw [applied_append]
    refine List.pairwise_append.mpr ⟨ascendingWritten, List.pairwise_singleton _ _, ?_⟩
    intro earlier member later last _
    cases List.mem_singleton.mp last
    exact lamport_lt_nextLamport member
  · exact ascending

theorem changes_eq_false_iff {edit : Edit} {entries : SortedMap String String} :
    edit.changes entries = false ↔ entries.get? edit.key = edit.value := by
  simp [Edit.changes]

/-! ## Exporting -/

/-- A version lacks exactly the operations that were appended to its log. -/
theorem since?_versionOf {log more : List Operation} (causal : Causal (log ++ more))
    (applied : document.applied = log ++ more) :
    document.since? (versionOf log) = if more = [] then none else some more := by
  have newer :
      ∀ operation ∈ more, (versionOf log).count operation.replica ≤ operation.counter := by
    intro operation member
    obtain ⟨initial, later, split⟩ := List.append_of_mem member
    have placed : log ++ more = (log ++ initial) ++ operation :: later := by
      rw [split, List.append_assoc]
    have ready := (causal.of_append placed).2
    rw [(readyAt_iff.mp ready).1]
    exact Version.includes_iff.mp (includes_versionOf_append log initial) operation.replica
  have causalLog : Causal log := by
    cases more with
    | nil => simpa using causal
    | cons first rest => exact (causal.of_append rfl).1
  unfold since?
  rw [version_eq, applied]
  by_cases empty : more = []
  · subst empty
    rw [List.append_nil, if_pos (Version.includes_self _), if_pos rfl]
  · have lacks : (versionOf log).includes (versionOf (log ++ more)) = false := by
      rw [← Bool.not_eq_true, Version.includes_iff]
      intro bounded
      obtain ⟨operation, member⟩ := List.exists_mem_of_ne_nil more empty
      have below := causal.counter_lt (List.mem_append_right log member)
      have bound := bounded operation.replica
      have lower := newer operation member
      omega
    have kept : log.filter (fun operation => !containedIn (versionOf log) operation) = [] := by
      rw [List.filter_eq_nil_iff]
      intro operation member
      simp [containedIn_of_mem causalLog member]
    have added :
        more.filter (fun operation => !containedIn (versionOf log) operation) = more := by
      rw [List.filter_eq_self]
      intro operation member
      simpa [containedIn] using newer operation member
    rw [lacks, if_neg (by decide), if_neg empty, List.filter_append, kept, added,
      List.nil_append]

/-- To delete a key leads to a delta exactly if the key had an entry. -/
theorem isSome_since?_write_delete (document : Document) (author : ReplicaId)
    (map key : String) :
    ((document.write author map [.delete key]).since? document.version).isSome =
      (document.entries map).contains key := by
  have changes :
      (Edit.delete key).changes (document.entries map) = (document.entries map).contains key := by
    simp only [Edit.changes, Edit.key, Edit.value, SortedMap.contains]
    cases (document.entries map).get? key <;> rfl
  simp only [write, List.foldl_cons, List.foldl_nil, changes]
  cases (document.entries map).contains key with
  | true =>
      rw [if_pos (by rfl), since?, version_eq, version_eq, applied_append,
        not_includes_versionOf_append_singleton]
      rfl
  | false =>
      rw [if_neg (by simp), since?, if_pos (Version.includes_self _)]
      rfl

/-- Only operations of the document are exported. -/
theorem mem_of_since? {theirs : Version} {operations : List Operation}
    (exported : document.since? theirs = some operations) {operation : Operation}
    (member : operation ∈ operations) :
    operation ∈ document.applied := by
  unfold since? at exported
  split at exported
  · cases exported
  · cases exported
    exact (List.mem_filter.mp member).1

end Roster.Document
