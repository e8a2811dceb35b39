import Roster.Proofs.Store.Document

/-!
# Batches of edits

The entries after a batch are those before it with some of its edits made one
after another: those that change what the entries held before the batch.  So a
batch that changes the value of a key and then gives it back leaves the key as
it was in between, and all other keys as if every edit had been made in turn.
-/

namespace Roster

variable {edits : List Edit} {entries : SortedMap String String} {key : String}

namespace Edit

/-! ## Edits made in turn -/

def applyTo : Edit → SortedMap String String → SortedMap String String
  | .put key value, entries => entries.insert key value
  | .delete key, entries => entries.erase key

def applyAll (edits : List Edit) (entries : SortedMap String String) :
    SortedMap String String :=
  edits.foldl (fun entries edit => edit.applyTo entries) entries

/-- The edits that change what the entries hold. -/
def changing (entries : SortedMap String String) (edits : List Edit) : List Edit :=
  edits.filter fun edit => edit.changes entries

theorem get?_applyTo (edit : Edit) :
    (edit.applyTo entries).get? key =
      if key = edit.key then edit.value else entries.get? key := by
  cases edit with
  | put _ _ => exact SortedMap.get?_insert _ _ _ _
  | delete _ => exact SortedMap.get?_erase _ _ _

theorem applyAll_append_singleton (edits : List Edit) (last : Edit) :
    applyAll (edits ++ [last]) entries = last.applyTo (applyAll edits entries) := by
  rw [applyAll, List.foldl_append]
  rfl

theorem changing_append_singleton (edits : List Edit) (last : Edit) :
    changing entries (edits ++ [last]) =
      if last.changes entries = true then changing entries edits ++ [last]
      else changing entries edits := by
  simp only [changing, List.filter_append]
  split <;> simp_all

/-- Where all edits of a key agree, they give the key what they say. -/
private theorem get?_applyAll_of_agree {value : Option String}
    (agree : ∀ edit ∈ edits, edit.key = key → edit.value = value) :
    (applyAll edits entries).get? key =
      if ∃ edit ∈ edits, edit.key = key then value else entries.get? key := by
  induction edits using List.reverseRecOn with
  | nil => simp [applyAll]
  | append_singleton initial last inductionHypothesis =>
      rw [applyAll_append_singleton, get?_applyTo]
      by_cases here : last.key = key
      · rw [if_pos here.symm, if_pos ⟨last, by simp, here⟩]
        exact agree last (by simp) here
      · rw [if_neg (Ne.symm here),
          inductionHypothesis fun edit member => agree edit (List.mem_append_left _ member)]
        simp [or_and_right, exists_or, here]

/-! ## Edits that change nothing, or too late -/

private theorem get?_applyAll_of_unchanging
    (unchanging : ∀ edit ∈ edits, edit.key = key → edit.changes entries = false) :
    (applyAll edits entries).get? key = entries.get? key := by
  have agree : ∀ edit ∈ edits, edit.key = key → edit.value = entries.get? key := by
    rintro edit member rfl
    exact (Document.changes_eq_false_iff.mp (unchanging edit member rfl)).symm
  rw [get?_applyAll_of_agree agree, ite_self]

/-- A key that some edit changes does not keep its value. -/
private theorem get?_applyAll_changing_ne {edit : Edit} (member : edit ∈ edits)
    (here : edit.key = key)
    (changes : edit.changes entries = true) :
    (applyAll (changing entries edits) entries).get? key ≠ entries.get? key := by
  induction edits using List.reverseRecOn with
  | nil => exact absurd member List.not_mem_nil
  | append_singleton initial last inductionHypothesis =>
      have earlier (different : edit ≠ last) : edit ∈ initial := by simpa [different] using member
      rw [changing_append_singleton]
      split
      · rename_i lastChanges
        rw [applyAll_append_singleton, get?_applyTo]
        split
        · rename_i lastHere
          rw [lastHere]
          intro same
          rw [Document.changes_eq_false_iff.mpr same.symm] at lastChanges
          cases lastChanges
        · rename_i elsewhere
          exact inductionHypothesis (earlier fun same => elsewhere (same ▸ here.symm))
      · rename_i idle
        exact inductionHypothesis (earlier fun same => idle (same ▸ changes))

/-- A key that ends with another value than before ends with it, too, if the edits that say
what was there before are left out. -/
private theorem get?_applyAll_changing_eq
    (moved : (applyAll edits entries).get? key ≠ entries.get? key) :
    (applyAll (changing entries edits) entries).get? key = (applyAll edits entries).get? key := by
  induction edits using List.reverseRecOn with
  | nil => exact absurd rfl moved
  | append_singleton initial last inductionHypothesis =>
      rw [applyAll_append_singleton, get?_applyTo] at moved ⊢
      rw [changing_append_singleton]
      by_cases here : key = last.key
      · rw [if_pos here] at moved ⊢
        have changes : last.changes entries = true := by
          rw [← Bool.not_eq_false, Document.changes_eq_false_iff, ← here]
          exact Ne.symm moved
        rw [if_pos changes, applyAll_append_singleton, get?_applyTo, if_pos here]
      · rw [if_neg here] at moved ⊢
        rw [← inductionHypothesis moved]
        split
        · rw [applyAll_append_singleton, get?_applyTo, if_neg here]
        · rfl

/-- To leave out the edits that say what was there before makes a difference exactly where the
edits change a value and give it back. -/
theorem get?_applyAll_changing_ne_iff :
    (applyAll (changing entries edits) entries).get? key ≠ (applyAll edits entries).get? key ↔
      (applyAll edits entries).get? key = entries.get? key ∧
        ∃ edit ∈ edits, edit.key = key ∧ edit.changes entries = true := by
  constructor
  · intro different
    have given : (applyAll edits entries).get? key = entries.get? key := by
      by_contra moved
      exact different (get?_applyAll_changing_eq moved)
    refine ⟨given, ?_⟩
    by_contra unchanging
    apply different
    rw [given]
    refine get?_applyAll_of_unchanging fun edit kept here => ?_
    rw [← Bool.not_eq_true]
    exact fun changes => unchanging ⟨edit, (List.mem_filter.mp kept).1, here, changes⟩
  · rintro ⟨given, edit, member, here, changes⟩
    rw [given]
    exact get?_applyAll_changing_ne member here changes

end Edit

namespace Document

variable {document base written : Document} {author : ReplicaId} {map : String}

/-! ## The entries after a batch -/

private theorem entries_append (document : Document) (author : ReplicaId) (needs : Version)
    (map : String) (edit : Edit) :
    (document.append author needs map edit).entries map = edit.applyTo (document.entries map) := by
  apply SortedMap.ext_get?
  intro key
  rw [get?_entries_append, Edit.get?_applyTo]

private theorem entries_edited (edit : Edit) :
    (base.edited author map written edit).entries map =
      if edit.changes (base.entries map) = true then edit.applyTo (written.entries map)
      else written.entries map := by
  unfold edited
  by_cases changes : edit.changes (base.entries map) = true
  · rw [changes, Bool.true_and, if_pos rfl]
    split
    · exact entries_append _ _ _ _ _
    · -- A put of the value that is there is made without an operation.
      rename_i idle
      rw [Bool.not_eq_true, Bool.or_eq_false_iff, changes_eq_false_iff] at idle
      apply SortedMap.ext_get?
      intro key
      rw [Edit.get?_applyTo]
      split
      · rename_i here
        rw [here, idle.2]
      · rfl
  · rw [if_neg changes, if_neg]
    simp [changes]

/-- After a batch the edits that changed the entries from before it have been made in turn. -/
theorem entries_write (document : Document) (author : ReplicaId) (map : String)
    (edits : List Edit) :
    (document.write author map edits).entries map =
      Edit.applyAll (Edit.changing (document.entries map) edits) (document.entries map) := by
  rw [write_eq_foldl]
  induction edits using List.reverseRecOn with
  | nil => rfl
  | append_singleton initial last inductionHypothesis =>
      rw [List.foldl_append, List.foldl_cons, List.foldl_nil, entries_edited,
        inductionHypothesis, Edit.changing_append_singleton]
      split
      · rw [Edit.applyAll_append_singleton]
      · rfl

/-- Where all edits of a key agree, a batch gives the key what they say. -/
theorem get?_entries_write {edits : List Edit} {value : Option String}
    (agree : ∀ edit ∈ edits, edit.key = key → edit.value = value) :
    ((document.write author map edits).entries map).get? key =
      if ∃ edit ∈ edits, edit.key = key then value
      else (document.entries map).get? key := by
  rw [entries_write, ← Edit.get?_applyAll_of_agree agree]
  by_contra different
  obtain ⟨given, edit, member, here, changes⟩ := Edit.get?_applyAll_changing_ne_iff.mp different
  rw [Edit.get?_applyAll_of_agree agree, if_pos ⟨edit, member, here⟩] at given
  have idle : (document.entries map).get? edit.key = edit.value := by
    rw [agree edit member here, here, given]
  rw [changes_eq_false_iff.mpr idle] at changes
  cases changes

end Document

end Roster
