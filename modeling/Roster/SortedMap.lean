/-!
# Maps in key order

A map is the list of its entries in strictly ascending key order, so two maps
with the same content are equal.  A set is a map whose entries carry nothing.
-/

namespace Roster

universe u v w

/-- Entries in strictly ascending key order. -/
structure SortedMap (κ : Type u) (α : Type v) [Ord κ] where
  entries : List (κ × α)
  ascending : entries.Pairwise (fun left right => compare left.1 right.1 = .lt)

namespace SortedMap

variable {κ : Type u} {α : Type v} {β : Type w} [Ord κ]

@[ext]
theorem ext {left right : SortedMap κ α}
    (sameEntries : left.entries = right.entries) :
    left = right := by
  cases left
  cases right
  cases sameEntries
  rfl

instance [DecidableEq κ] [DecidableEq α] : DecidableEq (SortedMap κ α) :=
  fun left right =>
    if sameEntries : left.entries = right.entries then
      .isTrue (ext sameEntries)
    else
      .isFalse fun equal => sameEntries (congrArg entries equal)

def empty : SortedMap κ α :=
  { entries := []
    ascending := List.Pairwise.nil }

instance : Inhabited (SortedMap κ α) :=
  ⟨empty⟩

def keys (map : SortedMap κ α) : List κ :=
  map.entries.map (·.1)

def isEmpty (map : SortedMap κ α) : Bool :=
  map.entries.isEmpty

def size (map : SortedMap κ α) : Nat :=
  map.entries.length

/-- The value in a list of entries whose key compares equal. -/
def lookup (key : κ) : List (κ × α) → Option α
  | [] => none
  | (tested, value) :: rest =>
      if compare tested key = .eq then some value else lookup key rest

def get? (map : SortedMap κ α) (key : κ) : Option α :=
  lookup key map.entries

def contains (map : SortedMap κ α) (key : κ) : Bool :=
  (map.get? key).isSome

/-- Put an entry into its place in a list, in place of one with the same
key. -/
def insertEntry (key : κ) (value : α) : List (κ × α) → List (κ × α)
  | [] => [(key, value)]
  | (tested, old) :: rest =>
      match compare key tested with
      | .lt => (key, value) :: (tested, old) :: rest
      | .eq => (key, value) :: rest
      | .gt => (tested, old) :: insertEntry key value rest

private theorem mem_insertEntry {key : κ} {value : α} {entry : κ × α} :
    ∀ {entries : List (κ × α)},
      entry ∈ insertEntry key value entries →
        entry = (key, value) ∨ entry ∈ entries
  | [], member => by
      simpa [insertEntry] using member
  | (tested, old) :: rest, member => by
      unfold insertEntry at member
      split at member
      · simpa using member
      · rcases List.mem_cons.mp member with equal | later
        · exact Or.inl equal
        · exact Or.inr (List.mem_cons_of_mem _ later)
      · rcases List.mem_cons.mp member with equal | later
        · exact Or.inr (by simp [equal])
        · rcases mem_insertEntry later with equal | older
          · exact Or.inl equal
          · exact Or.inr (List.mem_cons_of_mem _ older)

private theorem pairwise_insertEntry [Std.TransOrd κ] [Std.LawfulEqOrd κ] (key : κ) (value : α) :
    ∀ {entries : List (κ × α)},
      entries.Pairwise (fun left right => compare left.1 right.1 = .lt) →
        (insertEntry key value entries).Pairwise
          (fun left right => compare left.1 right.1 = .lt)
  | [], _ => by
      simp [insertEntry]
  | (tested, old) :: rest, ascending => by
      have headBelow := (List.pairwise_cons.mp ascending).1
      have tailAscending := (List.pairwise_cons.mp ascending).2
      unfold insertEntry
      split
      case h_1 below =>
        refine List.pairwise_cons.mpr ⟨?_, ascending⟩
        intro entry member
        rcases List.mem_cons.mp member with equal | later
        · simpa [equal] using below
        · exact Std.TransCmp.lt_trans below (headBelow entry later)
      case h_2 same =>
        have equal : key = tested := Std.LawfulEqCmp.eq_of_compare same
        subst equal
        exact List.pairwise_cons.mpr ⟨headBelow, tailAscending⟩
      case h_3 above =>
        refine
          List.pairwise_cons.mpr
            ⟨?_, pairwise_insertEntry key value tailAscending⟩
        intro entry member
        rcases mem_insertEntry member with equal | older
        · simpa [equal] using Std.OrientedCmp.gt_iff_lt.mp above
        · exact headBelow entry older

def insert [Std.TransOrd κ] [Std.LawfulEqOrd κ] (map : SortedMap κ α) (key : κ) (value : α) :
    SortedMap κ α :=
  { entries := insertEntry key value map.entries
    ascending := pairwise_insertEntry key value map.ascending }

def filter (map : SortedMap κ α) (kept : κ → α → Bool) : SortedMap κ α :=
  { entries := map.entries.filter fun entry => kept entry.1 entry.2
    ascending := map.ascending.filter _ }

def erase (map : SortedMap κ α) (key : κ) : SortedMap κ α :=
  map.filter fun tested _ => compare tested key != .eq

def mapValues (map : SortedMap κ α) (change : κ → α → β) : SortedMap κ β :=
  { entries := map.entries.map fun entry => (entry.1, change entry.1 entry.2)
    ascending := List.pairwise_map.mpr map.ascending }

def filterMap (map : SortedMap κ α) (change : κ → α → Option β) : SortedMap κ β :=
  { entries :=
      map.entries.filterMap fun entry =>
        (change entry.1 entry.2).map fun value => (entry.1, value)
    ascending := by
      refine List.Pairwise.filterMap _ ?_ map.ascending
      intro left right below leftEntry leftKept rightEntry rightKept
      obtain ⟨_, _, rfl⟩ := Option.map_eq_some_iff.mp leftKept
      obtain ⟨_, _, rfl⟩ := Option.map_eq_some_iff.mp rightKept
      exact below }

/-- The map of a list of entries; of two with one key the later counts. -/
def ofList [Std.TransOrd κ] [Std.LawfulEqOrd κ] (entries : List (κ × α)) : SortedMap κ α :=
  entries.foldl (fun map entry => map.insert entry.1 entry.2) empty

end SortedMap

/-- A set in ascending order. -/
abbrev SortedSet (κ : Type u) [Ord κ] :=
  SortedMap κ Unit

namespace SortedSet

variable {κ : Type u} [Ord κ] [Std.TransOrd κ] [Std.LawfulEqOrd κ]

def add (set : SortedSet κ) (member : κ) : SortedSet κ :=
  set.insert member ()

def ofList (members : List κ) : SortedSet κ :=
  members.foldl add SortedMap.empty

end SortedSet

end Roster
