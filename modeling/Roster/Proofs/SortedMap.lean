import Mathlib.Data.List.Induction
import Roster.SortedMap

/-!
# Looking keys up

A map is determined by what its keys are looked up to.  Every operation on maps
is described by what it does to look-ups.
-/

namespace Roster

universe u v w

namespace SortedMap

variable {κ : Type u} {α : Type v} {β : Type w} [Ord κ]

/-! ## Entries and look-ups -/

private theorem mem_of_lookup_eq_some [Std.LawfulEqOrd κ] {key : κ} {value : α} :
    ∀ {entries : List (κ × α)},
      lookup key entries = some value → (key, value) ∈ entries
  | [], found => by
      simp [lookup] at found
  | (tested, old) :: rest, found => by
      unfold lookup at found
      split at found
      · rename_i same
        have equal : tested = key := Std.LawfulEqCmp.eq_of_compare same
        have sameValue : old = value := Option.some.inj found
        rw [equal, sameValue]
        exact List.mem_cons_self
      · exact List.mem_cons_of_mem _ (mem_of_lookup_eq_some found)

private theorem lookup_eq_some_of_mem [Std.TransOrd κ] [Std.LawfulEqOrd κ] {key : κ} {value : α} :
    ∀ {entries : List (κ × α)},
      entries.Pairwise (fun left right => compare left.1 right.1 = .lt) →
        (key, value) ∈ entries → lookup key entries = some value
  | [], _, member => by
      simp at member
  | (tested, old) :: rest, ascending, member => by
      have headBelow := (List.pairwise_cons.mp ascending).1
      rcases List.mem_cons.mp member with equal | later
      · cases equal
        simp [lookup, Std.ReflOrd.compare_self]
      · have below : compare tested key = .lt := headBelow _ later
        rw [lookup, if_neg (by rw [below]; decide)]
        exact lookup_eq_some_of_mem (List.pairwise_cons.mp ascending).2 later

theorem contains_iff {map : SortedMap κ α} {key : κ} :
    map.contains key = true ↔ ∃ value, map.get? key = some value :=
  Option.isSome_iff_exists

theorem contains_eq_false_iff {map : SortedMap κ α} {key : κ} :
    map.contains key = false ↔ map.get? key = none := by
  simp [contains]

@[simp]
theorem get?_empty (key : κ) : (empty : SortedMap κ α).get? key = none :=
  rfl

@[simp]
theorem contains_empty (key : κ) : (empty : SortedMap κ α).contains key = false :=
  rfl

variable [Std.LawfulEqOrd κ]

theorem lookup_cons [DecidableEq κ] (key tested : κ) (value : α) (rest : List (κ × α)) :
    lookup key ((tested, value) :: rest) =
      if tested = key then some value else lookup key rest := by
  by_cases equal : tested = key
  · subst equal
    simp [lookup, Std.ReflOrd.compare_self]
  · simp [lookup, equal]

variable [Std.TransOrd κ]

theorem get?_eq_some_iff {map : SortedMap κ α} {key : κ} {value : α} :
    map.get? key = some value ↔ (key, value) ∈ map.entries :=
  ⟨mem_of_lookup_eq_some, lookup_eq_some_of_mem map.ascending⟩

theorem mem_keys_iff {map : SortedMap κ α} {key : κ} :
    key ∈ map.keys ↔ map.contains key = true := by
  rw [contains_iff]
  constructor
  · intro member
    obtain ⟨⟨_, value⟩, entry, rfl⟩ := List.mem_map.mp member
    exact ⟨value, get?_eq_some_iff.mpr entry⟩
  · rintro ⟨value, found⟩
    exact List.mem_map.mpr ⟨(key, value), get?_eq_some_iff.mp found, rfl⟩

omit [Std.TransOrd κ] in
/-- No key has two entries. -/
theorem nodup_keys (map : SortedMap κ α) : map.keys.Nodup := by
  refine List.pairwise_map.mpr (map.ascending.imp fun below same => ?_)
  rw [same, Std.ReflOrd.compare_self] at below
  cases below

/-- The first key is the least one. -/
theorem head?_keys_eq_some_iff {map : SortedMap κ α} {key : κ} :
    map.keys.head? = some key ↔
      map.contains key = true ∧
        ∀ other, map.contains other = true → other = key ∨ compare key other = .lt := by
  have ascending : map.keys.Pairwise fun left right => compare left right = .lt :=
    List.pairwise_map.mpr map.ascending
  simp only [← mem_keys_iff]
  cases order : map.keys with
  | nil => simp
  | cons first rest =>
      rw [order] at ascending
      have below := (List.pairwise_cons.mp ascending).1
      rw [List.head?_cons, Option.some.injEq]
      constructor
      · rintro rfl
        refine ⟨List.mem_cons_self, fun other among => ?_⟩
        rcases List.mem_cons.mp among with same | later
        · exact Or.inl same
        · exact Or.inr (below other later)
      · rintro ⟨among, least⟩
        rcases List.mem_cons.mp among with same | later
        · exact same.symm
        · rcases least first List.mem_cons_self with same | before
          · exact same
          · have after := below key later
            have swapped : compare first key = (compare key first).swap :=
              Std.OrientedCmp.eq_swap
            rw [swapped, before] at after
            cases after

/-- Strictly ascending lists with the same members are equal. -/
theorem entries_eq_of_mem_iff :
    ∀ {left right : List (κ × α)},
      left.Pairwise (fun first second => compare first.1 second.1 = .lt) →
        right.Pairwise (fun first second => compare first.1 second.1 = .lt) →
          (∀ entry, entry ∈ left ↔ entry ∈ right) → left = right
  | [], [], _, _, _ => rfl
  | [], head :: tail, _, _, sameMembers => by
      have member := (sameMembers head).mpr List.mem_cons_self
      exact absurd member List.not_mem_nil
  | head :: tail, [], _, _, sameMembers => by
      have member := (sameMembers head).mp List.mem_cons_self
      exact absurd member List.not_mem_nil
  | leftHead :: leftTail, rightHead :: rightTail, leftAscending, rightAscending,
      sameMembers => by
      have leftBelow := (List.pairwise_cons.mp leftAscending).1
      have rightBelow := (List.pairwise_cons.mp rightAscending).1
      have sameHead : leftHead = rightHead := by
        rcases List.mem_cons.mp ((sameMembers leftHead).mp List.mem_cons_self) with
          equal | leftLater
        · exact equal
        rcases List.mem_cons.mp ((sameMembers rightHead).mpr List.mem_cons_self) with
          equal | rightLater
        · exact equal.symm
        have above := rightBelow _ leftLater
        have below := leftBelow _ rightLater
        rw [Std.OrientedCmp.gt_iff_lt.mpr above] at below
        cases below
      subst sameHead
      have sameTail : leftTail = rightTail := by
        refine
          entries_eq_of_mem_iff (List.pairwise_cons.mp leftAscending).2
            (List.pairwise_cons.mp rightAscending).2 ?_
        intro entry
        have notHead :
            ∀ {tail : List (κ × α)},
              (∀ later ∈ tail, compare leftHead.1 later.1 = .lt) →
                entry ∈ tail → entry ≠ leftHead := by
          intro tail below member equal
          have irreflexive := below entry member
          rw [equal, Std.ReflOrd.compare_self] at irreflexive
          cases irreflexive
        constructor
        · intro member
          have inRight := (sameMembers entry).mp (List.mem_cons_of_mem _ member)
          exact (List.mem_cons.mp inRight).resolve_left (notHead leftBelow member)
        · intro member
          have inLeft := (sameMembers entry).mpr (List.mem_cons_of_mem _ member)
          exact (List.mem_cons.mp inLeft).resolve_left (notHead rightBelow member)
      rw [sameTail]

/-- Maps with the same look-ups are equal. -/
theorem ext_get? {left right : SortedMap κ α}
    (sameLookups : ∀ key, left.get? key = right.get? key) :
    left = right := by
  apply SortedMap.ext
  apply entries_eq_of_mem_iff left.ascending right.ascending
  rintro ⟨key, value⟩
  rw [← get?_eq_some_iff, ← get?_eq_some_iff, sameLookups]

/-! ## Operations -/

omit [Std.TransOrd κ] in
private theorem lookup_insertEntry [DecidableEq κ] (key tested : κ) (value : α) :
    ∀ entries : List (κ × α),
      lookup tested (insertEntry key value entries) =
        if tested = key then some value else lookup tested entries
  | [] => by
      rw [insertEntry, lookup_cons]
      simp only [eq_comm]
  | (other, old) :: rest => by
      unfold insertEntry
      split
      · rw [lookup_cons]
        simp only [eq_comm]
      · rename_i same
        have equal : key = other := Std.LawfulEqCmp.eq_of_compare same
        subst equal
        rw [lookup_cons, lookup_cons]
        by_cases found : key = tested
        · simp [found]
        · simp [found, Ne.symm found]
      · rename_i above
        have different : other ≠ key := by
          rintro rfl
          rw [Std.ReflOrd.compare_self] at above
          cases above
        rw [lookup_cons, lookup_insertEntry key tested value rest, lookup_cons]
        by_cases found : other = tested
        · subst found
          simp [different]
        · simp [found]

theorem get?_insert [DecidableEq κ] (map : SortedMap κ α) (key tested : κ) (value : α) :
    (map.insert key value).get? tested =
      if tested = key then some value else map.get? tested :=
  lookup_insertEntry key tested value map.entries

theorem get?_filter (map : SortedMap κ α) (kept : κ → α → Bool) (key : κ) :
    (map.filter kept).get? key = (map.get? key).filter (kept key) := by
  apply Option.ext
  intro value
  rw [get?_eq_some_iff, Option.filter_eq_some_iff, get?_eq_some_iff]
  exact List.mem_filter

theorem mem_filter_entries_iff {map : SortedMap κ α} {kept : κ → α → Bool} {key : κ} {value : α} :
    (key, value) ∈ (map.filter kept).entries ↔
      map.get? key = some value ∧ kept key value = true := by
  rw [← get?_eq_some_iff, get?_filter, Option.filter_eq_some_iff]

theorem get?_erase [DecidableEq κ] (map : SortedMap κ α) (key tested : κ) :
    (map.erase key).get? tested = if tested = key then none else map.get? tested := by
  rw [erase, get?_filter]
  by_cases equal : tested = key
  · subst equal
    cases map.get? tested <;> simp [Std.ReflOrd.compare_self]
  · have differs : (compare tested key != .eq) = true := by
      simpa [Std.LawfulEqCmp.compare_eq_iff_eq] using equal
    cases map.get? tested <;> simp [differs, equal]

theorem get?_filterMap (map : SortedMap κ α) (change : κ → α → Option β) (key : κ) :
    (map.filterMap change).get? key = (map.get? key).bind (change key) := by
  apply Option.ext
  intro value
  rw [get?_eq_some_iff, Option.bind_eq_some_iff]
  constructor
  · intro member
    obtain ⟨⟨_, old⟩, entry, kept⟩ := List.mem_filterMap.mp member
    obtain ⟨_, changed, same⟩ := Option.map_eq_some_iff.mp kept
    cases same
    exact ⟨old, get?_eq_some_iff.mpr entry, changed⟩
  · rintro ⟨old, found, changed⟩
    refine List.mem_filterMap.mpr ⟨(key, old), get?_eq_some_iff.mp found, ?_⟩
    simp [changed]

theorem get?_mapValues (map : SortedMap κ α) (change : κ → α → β) (key : κ) :
    (map.mapValues change).get? key = (map.get? key).map (change key) := by
  apply Option.ext
  intro value
  rw [get?_eq_some_iff, Option.map_eq_some_iff]
  constructor
  · intro member
    obtain ⟨⟨_, old⟩, entry, same⟩ := List.mem_map.mp member
    cases same
    exact ⟨old, get?_eq_some_iff.mpr entry, rfl⟩
  · rintro ⟨old, found, rfl⟩
    exact List.mem_map.mpr ⟨(key, old), get?_eq_some_iff.mp found, rfl⟩

@[simp]
theorem mapValues_self (map : SortedMap κ α) : map.mapValues (fun _ value => value) = map :=
  ext_get? fun key => by rw [get?_mapValues, Option.map_id']

@[simp]
theorem filter_true (map : SortedMap κ α) : map.filter (fun _ _ => true) = map :=
  ext_get? fun key => by
    rw [get?_filter]
    cases map.get? key <;> rfl

/-! ## Maps of lists -/

/-- Of two entries with one key the later counts. -/
private theorem get?_ofList [DecidableEq κ] (key : κ) (entries : List (κ × α)) :
    (ofList entries).get? key = lookup key entries.reverse := by
  induction entries using List.reverseRecOn with
  | nil => rfl
  | append_singleton initial entry inductionHypothesis =>
      have unfolded :
          ofList (initial ++ [entry]) = (ofList initial).insert entry.1 entry.2 := by
        simp [ofList]
      rw [unfolded, get?_insert, inductionHypothesis, List.reverse_append]
      obtain ⟨tested, value⟩ := entry
      rw [List.reverse_singleton, List.singleton_append, lookup_cons]
      simp only [eq_comm]

theorem mem_of_get?_ofList [DecidableEq κ] {key : κ} {value : α} {entries : List (κ × α)}
    (found : (ofList entries).get? key = some value) :
    (key, value) ∈ entries := by
  rw [get?_ofList] at found
  exact List.mem_reverse.mp (mem_of_lookup_eq_some found)

theorem exists_get?_ofList_of_mem [DecidableEq κ] {key : κ} {value : α}
    {entries : List (κ × α)} (member : (key, value) ∈ entries) :
    ∃ found, (ofList entries).get? key = some found := by
  rw [get?_ofList]
  have reversed := List.mem_reverse.mpr member
  generalize entries.reverse = reversedEntries at reversed
  induction reversedEntries with
  | nil => simp at reversed
  | cons entry rest inductionHypothesis =>
      obtain ⟨tested, old⟩ := entry
      by_cases equal : tested = key
      · exact ⟨old, by rw [lookup_cons, if_pos equal]⟩
      · have later : (key, value) ∈ rest := by
          rcases List.mem_cons.mp reversed with same | later
          · exact absurd (congrArg Prod.fst same).symm equal
          · exact later
        rw [lookup_cons, if_neg equal]
        exact inductionHypothesis later

/-- Where all entries of a key agree, the map holds what they say. -/
theorem get?_ofList_of_mem [DecidableEq κ] {key : κ} {value : α} {entries : List (κ × α)}
    (member : (key, value) ∈ entries)
    (agree : ∀ other, (key, other) ∈ entries → other = value) :
    (ofList entries).get? key = some value := by
  obtain ⟨found, holds⟩ := exists_get?_ofList_of_mem member
  rw [holds, agree found (mem_of_get?_ofList holds)]

@[simp]
theorem ofList_entries [DecidableEq κ] (map : SortedMap κ α) : ofList map.entries = map := by
  apply ext_get?
  intro key
  apply Option.ext
  intro value
  constructor
  · intro found
    exact get?_eq_some_iff.mpr (mem_of_get?_ofList found)
  · intro found
    refine get?_ofList_of_mem (get?_eq_some_iff.mp found) ?_
    intro other member
    have same := (get?_eq_some_iff.mpr member).symm.trans found
    exact Option.some.inj same

end SortedMap

namespace SortedSet

variable {κ : Type u} [Ord κ] [Std.TransOrd κ] [Std.LawfulEqOrd κ] [DecidableEq κ]

theorem contains_add (set : SortedSet κ) (member tested : κ) :
    (add set member).contains tested = true ↔
      tested = member ∨ set.contains tested = true := by
  unfold add SortedMap.contains
  rw [SortedMap.get?_insert]
  by_cases equal : tested = member <;> simp [equal]

theorem contains_erase (set : SortedSet κ) (removed tested : κ) :
    (set.erase removed).contains tested = true ↔
      tested ≠ removed ∧ set.contains tested = true := by
  unfold SortedMap.contains
  rw [SortedMap.get?_erase]
  by_cases equal : tested = removed <;> simp [equal]

theorem contains_ofList (members : List κ) (tested : κ) :
    (ofList members).contains tested = true ↔ tested ∈ members := by
  induction members using List.reverseRecOn with
  | nil => simp [ofList, SortedMap.contains]
  | append_singleton initial last inductionHypothesis =>
      have unfolded : ofList (initial ++ [last]) = add (ofList initial) last := by
        simp [ofList]
      rw [unfolded, contains_add, inductionHypothesis, List.mem_append, List.mem_singleton]
      exact or_comm

theorem keys_add_perm {set : SortedSet κ} {member : κ}
    (absent : set.contains member = false) :
    (add set member).keys.Perm (member :: set.keys) := by
  have sameMembers (tested : κ) : tested ∈ (add set member).keys ↔ tested ∈ member :: set.keys := by
    rw [SortedMap.mem_keys_iff, contains_add, List.mem_cons, SortedMap.mem_keys_iff]
  have distinct : (member :: set.keys).Nodup := by
    refine List.nodup_cons.mpr ⟨fun among => ?_, SortedMap.nodup_keys set⟩
    rw [SortedMap.mem_keys_iff, absent] at among
    cases among
  exact (List.perm_ext_iff_of_nodup (SortedMap.nodup_keys _) distinct).mpr sameMembers

/-- A new member makes a set larger by one. -/
theorem size_add {set : SortedSet κ} {member : κ} (absent : set.contains member = false) :
    (add set member).size = set.size + 1 := by
  simpa [SortedMap.size, SortedMap.keys] using (keys_add_perm absent).length_eq

omit [DecidableEq κ] in
/-- Sets with the same members are equal. -/
theorem ext_contains {left right : SortedSet κ}
    (sameMembers : ∀ member, left.contains member = true ↔ right.contains member = true) :
    left = right := by
  apply SortedMap.ext_get?
  intro member
  have same := sameMembers member
  unfold SortedMap.contains at same
  cases leftFound : left.get? member <;> cases rightFound : right.get? member <;>
    simp_all

@[simp]
theorem ofList_keys (set : SortedSet κ) : ofList set.keys = set := by
  apply ext_contains
  intro member
  rw [contains_ofList, SortedMap.mem_keys_iff]

end SortedSet

end Roster
