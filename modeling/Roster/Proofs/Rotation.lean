import Mathlib.Data.List.Nodup
import Mathlib.Data.List.Perm.Basic
import Roster.Rotation

/-!
# The members of a rotation

To visit members reorders them, and nothing else.  A rotation that follows the
membership holds exactly the members, each of them once.
-/

namespace Roster

namespace Chance

universe u

variable {α : Type u}

private theorem perm_insertAnywhere (item : α) (items : List α) (chance : Chance) :
    (insertAnywhere item items chance).1.Perm (item :: items) := by
  unfold insertAnywhere
  simp only
  generalize (chance.below (items.length + 1)).1 = place
  refine List.perm_middle.trans ?_
  rw [List.take_append_drop]

private theorem perm_shuffle :
    ∀ (items : List α) (chance : Chance), (shuffle items chance).1.Perm items
  | [], _ => .nil
  | item :: items, chance =>
      (perm_insertAnywhere item _ _).trans ((perm_shuffle items chance).cons item)

private theorem insertAnywhere_middle {before after : List α} {chance : Chance}
    (drawn : chance.source chance.drawn = before.length) (item : α) :
    (insertAnywhere item (before ++ after) chance).1 = before ++ item :: after := by
  have small : before.length < (before ++ after).length + 1 := by
    rw [List.length_append]
    omega
  simp only [insertAnywhere, below, drawn, Nat.mod_eq_of_lt small, List.take_left,
    List.drop_left]

/-- One number is drawn for each item. -/
private theorem after_shuffle : ∀ (items : List α) (chance : Chance),
    (shuffle items chance).2 = { chance with drawn := chance.drawn + items.length }
  | [], _ => rfl
  | item :: items, chance => by
      unfold shuffle
      simp only [insertAnywhere, below, after_shuffle items chance]
      rfl

private theorem shuffle_congr {source : Nat → Nat} : ∀ (items : List α) (chance : Chance),
    (∀ index < chance.drawn + items.length, source index = chance.source index) →
      (shuffle items { chance with source }).1 = (shuffle items chance).1
  | [], _, _ => rfl
  | item :: items, chance, agree => by
      have drawn := agree (chance.drawn + items.length) (Nat.lt_succ_self _)
      have shuffled := shuffle_congr items chance fun index earlier =>
        agree index (Nat.lt_succ_of_lt earlier)
      simp only [shuffle, insertAnywhere, below, after_shuffle, shuffled, drawn]

/-- Every order of the items is the outcome of some numbers, whatever was drawn before. -/
theorem exists_shuffle {items order : List α} (reordered : order.Perm items) (chance : Chance) :
    ∃ source, (∀ index < chance.drawn, source index = chance.source index) ∧
      (shuffle items { chance with source }).1 = order := by
  induction items generalizing order with
  | nil => exact ⟨chance.source, fun _ _ => rfl, reordered.symm.nil_eq⟩
  | cons item items inductionHypothesis =>
      obtain ⟨before, after, rfl⟩ :=
        List.append_of_mem (reordered.mem_iff.mpr List.mem_cons_self)
      obtain ⟨source, kept, shuffled⟩ :=
        inductionHypothesis (List.perm_middle.symm.trans reordered).cons_inv
      -- The last number drawn is the place of the first item.
      let extended := Function.update source (chance.drawn + items.length) before.length
      have agree : ∀ index < chance.drawn + items.length, extended index = source index :=
        fun index earlier => Function.update_of_ne (Nat.ne_of_lt earlier) _ _
      refine ⟨extended, fun index earlier => ?_, ?_⟩
      · rw [agree index (Nat.lt_add_right _ earlier), kept index earlier]
      · have same := shuffle_congr items { chance with source } agree
        unfold shuffle
        simp only [same, shuffled]
        apply insertAnywhere_middle
        rw [after_shuffle]
        exact Function.update_self _ _ _

end Chance

namespace Rotation

variable {resolve : Endpoint → Option SocketAddress} {rotation turned last : Rotation}
  {excluded seen : List Endpoint} {member wanted : Endpoint} {address : SocketAddress}
  {steps count : Nat} {picked : List (Endpoint × SocketAddress)}

/-! ## Visits -/

/-- The next member of the pass is visited, or the first one of another pass. -/
inductive Visits (rotation : Rotation) (member : Endpoint) (turned : Rotation) : Prop where
  | next (ahead_eq : rotation.ahead = member :: turned.ahead)
      (visited_eq : turned.visited = rotation.visited ++ [member])
  | again (ahead_eq : rotation.ahead = []) (visited_eq : turned.visited = [member])
      (shuffled : (member :: turned.ahead).Perm rotation.visited)

private theorem visits_of_advance (advanced : rotation.advance = (some member, turned)) :
    rotation.Visits member turned := by
  obtain ⟨visited, ahead, chance⟩ := rotation
  unfold advance at advanced
  cases ahead with
  | cons next rest =>
      cases advanced
      exact .next rfl rfl
  | nil =>
      have shuffled := Chance.perm_shuffle visited chance
      simp only at advanced
      split at advanced
      · rename_i next rest order
        cases advanced
        rw [order] at shuffled
        exact .again rfl rfl shuffled
      · cases advanced

private theorem members_of_advance (halted : rotation.advance = (none, turned)) :
    rotation.members = [] ∧ turned = rotation := by
  obtain ⟨visited, ahead, chance⟩ := rotation
  unfold advance at halted
  cases ahead with
  | cons next rest => cases halted
  | nil =>
      have shuffled := Chance.perm_shuffle visited chance
      simp only at halted
      split at halted
      · cases halted
      · rename_i order
        cases halted
        rw [order] at shuffled
        rw [members, List.append_nil, shuffled.symm.eq_nil]
        exact ⟨rfl, rfl⟩

theorem Visits.perm (visits : rotation.Visits member turned) :
    turned.members.Perm rotation.members := by
  cases visits with
  | next ahead visited => simp [members, ahead, visited]
  | again ahead visited shuffled => simpa [members, ahead, visited] using shuffled

theorem Visits.mem (visits : rotation.Visits member turned) : member ∈ rotation.members := by
  cases visits with
  | next ahead _ =>
      rw [members, ahead]
      exact List.mem_append_right _ List.mem_cons_self
  | again _ _ shuffled =>
      exact List.mem_append_left _ (shuffled.mem_iff.mp List.mem_cons_self)

/-! ## Picks -/

/-- How a selection goes: who is excluded or was seen is passed over, whose address is
not found is seen, and the others are picked, until there are no steps left or no more
are asked for. -/
inductive Picks (resolve : Endpoint → Option SocketAddress) (excluded : List Endpoint) :
    Nat → Nat → List Endpoint → Rotation → List (Endpoint × SocketAddress) → Rotation →
      Prop where
  | spent {count : Nat} {seen : List Endpoint} {rotation : Rotation} :
      Picks resolve excluded 0 count seen rotation [] rotation
  | served {steps : Nat} {seen : List Endpoint} {rotation : Rotation} :
      Picks resolve excluded (steps + 1) 0 seen rotation [] rotation
  | empty {steps count : Nat} {seen : List Endpoint} {rotation : Rotation}
      (none : rotation.members = []) :
      Picks resolve excluded (steps + 1) (count + 1) seen rotation [] rotation
  | pass {steps count : Nat} {seen : List Endpoint} {rotation turned last : Rotation}
      {member : Endpoint} {picked : List (Endpoint × SocketAddress)}
      (visits : rotation.Visits member turned) (barred : member ∈ excluded ∨ member ∈ seen)
      (rest : Picks resolve excluded steps (count + 1) seen turned picked last) :
      Picks resolve excluded (steps + 1) (count + 1) seen rotation picked last
  | lose {steps count : Nat} {seen : List Endpoint} {rotation turned last : Rotation}
      {member : Endpoint} {picked : List (Endpoint × SocketAddress)}
      (visits : rotation.Visits member turned) (lost : resolve member = none)
      (rest : Picks resolve excluded steps (count + 1) (member :: seen) turned picked last) :
      Picks resolve excluded (steps + 1) (count + 1) seen rotation picked last
  | take {steps count : Nat} {seen : List Endpoint} {rotation turned last : Rotation}
      {member : Endpoint} {address : SocketAddress} {picked : List (Endpoint × SocketAddress)}
      (visits : rotation.Visits member turned) (allowed : member ∉ excluded)
      (fresh : member ∉ seen) (found : resolve member = some address)
      (rest : Picks resolve excluded steps count (member :: seen) turned picked last) :
      Picks resolve excluded (steps + 1) (count + 1) seen rotation ((member, address) :: picked)
        last

theorem picks_pick (resolve : Endpoint → Option SocketAddress) (excluded : List Endpoint) :
    ∀ (steps count : Nat) (seen : List Endpoint) (rotation : Rotation),
      Picks resolve excluded steps count seen rotation
        (pick resolve excluded steps count seen rotation).1
        (pick resolve excluded steps count seen rotation).2
  | 0, _, _, _ => .spent
  | _ + 1, 0, _, _ => .served
  | steps + 1, count + 1, seen, rotation => by
      unfold pick
      cases visit : rotation.advance with
      | mk next turned =>
          cases next with
          | none =>
              obtain ⟨none, rfl⟩ := members_of_advance visit
              exact .empty none
          | some member =>
              have visits := visits_of_advance visit
              simp only
              split
              · rename_i barred
                exact .pass visits barred (picks_pick resolve excluded steps (count + 1) seen turned)
              · rename_i fresh
                rw [not_or] at fresh
                split
                · rename_i lost
                  exact .lose visits lost (picks_pick resolve excluded steps (count + 1) _ turned)
                · rename_i found
                  exact
                    .take visits fresh.1 fresh.2 found
                      (picks_pick resolve excluded steps count _ turned)

/-- To select members is to turn the rotation. -/
theorem Picks.perm (picks : Picks resolve excluded steps count seen rotation picked last) :
    last.members.Perm rotation.members := by
  induction picks with
  | spent => exact .refl _
  | served => exact .refl _
  | empty => exact .refl _
  | pass visits _ _ inductionHypothesis => exact inductionHypothesis.trans visits.perm
  | lose visits _ _ inductionHypothesis => exact inductionHypothesis.trans visits.perm
  | take visits _ _ _ _ inductionHypothesis => exact inductionHypothesis.trans visits.perm

/-- Only members are picked that are not excluded, were not seen, and whose address is
found. -/
theorem Picks.sound (picks : Picks resolve excluded steps count seen rotation picked last)
    (among : (wanted, address) ∈ picked) :
    wanted ∈ rotation.members ∧ wanted ∉ excluded ∧ wanted ∉ seen ∧
      resolve wanted = some address := by
  induction picks with
  | spent => cases among
  | served => cases among
  | empty => cases among
  | pass visits _ _ inductionHypothesis =>
      obtain ⟨known, rest⟩ := inductionHypothesis among
      exact ⟨visits.perm.mem_iff.mp known, rest⟩
  | lose visits _ _ inductionHypothesis =>
      obtain ⟨known, allowed, fresh, found⟩ := inductionHypothesis among
      exact ⟨visits.perm.mem_iff.mp known, allowed, List.not_mem_of_not_mem_cons fresh, found⟩
  | take visits allowed fresh found _ inductionHypothesis =>
      rcases List.mem_cons.mp among with same | later
      · cases same
        exact ⟨visits.mem, allowed, fresh, found⟩
      · obtain ⟨known, allowed, fresh, found⟩ := inductionHypothesis later
        exact ⟨visits.perm.mem_iff.mp known, allowed, List.not_mem_of_not_mem_cons fresh, found⟩

theorem perm_selectBy (resolve : Endpoint → Option SocketAddress) (rotation : Rotation)
    (count : Nat) (excluded : List Endpoint) :
    (rotation.selectBy resolve count excluded).2.members.Perm rotation.members :=
  (picks_pick resolve excluded (2 * rotation.size) count [] rotation).perm

theorem perm_select (rotation : Rotation) (count : Nat) (excluded : List Endpoint) :
    (rotation.select count excluded).2.members.Perm rotation.members :=
  perm_selectBy _ _ _ _

/-- Only members are picked that are not excluded and whose address is found. -/
theorem mem_of_pick (steps count : Nat) (seen : List Endpoint) (rotation : Rotation)
    (among : (member, address) ∈ (pick resolve excluded steps count seen rotation).1) :
    member ∈ rotation.members ∧ member ∉ excluded ∧ resolve member = some address := by
  obtain ⟨known, allowed, _, found⟩ :=
    (picks_pick resolve excluded steps count seen rotation).sound among
  exact ⟨known, allowed, found⟩

/-! ## Following the membership -/

private theorem enter_of_mem (present : member ∈ rotation.members) :
    rotation.enter member = rotation :=
  if_pos present

private theorem perm_enter (absent : member ∉ rotation.members) :
    (rotation.enter member).members.Perm (member :: rotation.members) := by
  have placed := Chance.perm_insertAnywhere member rotation.ahead rotation.chance
  rw [enter, if_neg absent]
  exact (placed.append_left _).trans List.perm_middle

private theorem nodup_enter (distinct : rotation.members.Nodup) (member : Endpoint) :
    (rotation.enter member).members.Nodup := by
  by_cases present : member ∈ rotation.members
  · rwa [enter_of_mem present]
  · exact (perm_enter present).nodup_iff.mpr (List.nodup_cons.mpr ⟨present, distinct⟩)

private theorem mem_enter (rotation : Rotation) (member tested : Endpoint) :
    tested ∈ (rotation.enter member).members ↔ tested = member ∨ tested ∈ rotation.members := by
  by_cases present : member ∈ rotation.members
  · rw [enter_of_mem present]
    exact (or_iff_right_of_imp fun same => same ▸ present).symm
  · exact (perm_enter present).mem_iff.trans List.mem_cons

private theorem members_foldl_enter (current : List Endpoint) :
    ∀ rotation : Rotation, rotation.members.Nodup →
      (current.foldl enter rotation).members.Nodup ∧
        ∀ tested, tested ∈ (current.foldl enter rotation).members ↔
          tested ∈ current ∨ tested ∈ rotation.members := by
  induction current with
  | nil => simp
  | cons member rest inductionHypothesis =>
      intro rotation distinct
      obtain ⟨nodup, mem⟩ :=
        inductionHypothesis (rotation.enter member) (nodup_enter distinct member)
      refine ⟨nodup, fun tested => ?_⟩
      rw [List.foldl_cons, mem tested, mem_enter, List.mem_cons]
      tauto

/-- A rotation that follows the membership holds exactly the members, each of
them once. -/
theorem members_refresh (distinct : rotation.members.Nodup) (current : List Endpoint) :
    (rotation.refresh current).members.Nodup ∧
      ∀ tested, tested ∈ (rotation.refresh current).members ↔ tested ∈ current := by
  unfold refresh
  have kept :
      ({ rotation with
          visited := rotation.visited.filter (· ∈ current)
          ahead := rotation.ahead.filter (· ∈ current) } : Rotation).members =
        rotation.members.filter (· ∈ current) :=
    (List.filter_append _ _).symm
  have distinctKept := distinct.filter fun member => decide (member ∈ current)
  rw [← kept] at distinctKept
  obtain ⟨nodup, mem⟩ := members_foldl_enter current _ distinctKept
  refine ⟨nodup, fun tested => ?_⟩
  rw [mem tested, kept, List.mem_filter]
  simp only [decide_eq_true_eq]
  tauto

end Rotation

end Roster
