import Mathlib.Data.Finset.Card
import Mathlib.Data.List.Dedup
import Roster.Proofs.Rotation

/-!
# What a selection finds

A selection visits twice as many members as there are.  That takes it to the end of
the pass and, if it has to begin another, through all of that, wherever in a pass it
begins and however the next one is shuffled.  So it stops short of the number asked
for only if it has picked everyone it could.
-/

namespace Roster

namespace Rotation

variable {resolve : Endpoint → Option SocketAddress} {rotation turned last : Rotation}
  {excluded seen current : List Endpoint} {member wanted : Endpoint} {steps count : Nat}
  {picked : List (Endpoint × SocketAddress)}

/-! ## One selection -/

theorem Picks.length_le (picks : Picks resolve excluded steps count seen rotation picked last) :
    picked.length ≤ count := by
  induction picks with
  | spent => exact Nat.zero_le _
  | served => exact Nat.zero_le _
  | empty => exact Nat.zero_le _
  | pass _ _ _ inductionHypothesis => exact inductionHypothesis
  | lose _ _ _ inductionHypothesis => exact inductionHypothesis
  | take _ _ _ _ _ inductionHypothesis => exact Nat.succ_le_succ inductionHypothesis

/-- Who was picked has been seen and is not picked again. -/
theorem Picks.nodup (picks : Picks resolve excluded steps count seen rotation picked last) :
    (picked.map (·.1)).Nodup := by
  induction picks with
  | spent => exact List.nodup_nil
  | served => exact List.nodup_nil
  | empty => exact List.nodup_nil
  | pass _ _ _ inductionHypothesis => exact inductionHypothesis
  | lose _ _ _ inductionHypothesis => exact inductionHypothesis
  | take _ _ _ _ rest inductionHypothesis =>
      refine List.nodup_cons.mpr ⟨fun again => ?_, inductionHypothesis⟩
      obtain ⟨⟨_, address⟩, among, rfl⟩ := List.mem_map.mp again
      exact (rest.sound among).2.2.1 List.mem_cons_self

/-- So many steps lead to a member: through what is ahead if the member is there, and
else through all of another pass as well. -/
def Reaches (rotation : Rotation) (steps : Nat) (wanted : Endpoint) : Prop :=
  wanted ∈ rotation.ahead ∧ rotation.ahead.length ≤ steps ∨
    wanted ∈ rotation.members ∧ rotation.ahead.length + rotation.size ≤ steps

theorem Reaches.mem (reaches : rotation.Reaches steps wanted) : wanted ∈ rotation.members := by
  rcases reaches with ⟨near, _⟩ | ⟨among, _⟩
  · exact List.mem_append_right rotation.visited near
  · exact among

private theorem reaches_twice (among : wanted ∈ rotation.members) :
    rotation.Reaches (2 * rotation.size) wanted := by
  refine Or.inr ⟨among, ?_⟩
  rw [size, members, List.length_append]
  omega

/-- Whom a visit does not meet is one step closer after it. -/
theorem Visits.reaches (visits : rotation.Visits member turned) (other : wanted ≠ member)
    (reaches : rotation.Reaches (steps + 1) wanted) : turned.Reaches steps wanted := by
  have size : turned.size = rotation.size := visits.perm.length_eq
  cases visits with
  | next ahead visited =>
      rw [Reaches, ahead, List.length_cons] at reaches
      rcases reaches with ⟨near, short⟩ | ⟨among, short⟩
      · exact Or.inl ⟨List.mem_of_ne_of_mem other near, Nat.le_of_succ_le_succ short⟩
      · refine Or.inr ⟨?_, by omega⟩
        rw [members, ahead] at among
        simpa [members, visited, other] using among
  | again ahead visited shuffled =>
      rw [Reaches, ahead] at reaches
      rcases reaches with ⟨near, _⟩ | ⟨among, short⟩
      · cases near
      -- The whole of another pass is ahead, but for the member that was visited first.
      rw [members, ahead, List.append_nil, ← shuffled.mem_iff] at among
      have count : turned.ahead.length + 1 = rotation.size := by
        rw [← List.length_cons, shuffled.length_eq, Rotation.size, members, ahead,
          List.append_nil]
      rw [List.length_nil] at short
      exact Or.inl ⟨List.mem_of_ne_of_mem other among, by omega⟩

private theorem not_reaches_zero (wanted : Endpoint) : ¬ rotation.Reaches 0 wanted := by
  rintro (⟨near, none⟩ | ⟨among, none⟩)
  · have positive := List.length_pos_of_mem near
    omega
  · have positive := List.length_pos_of_mem among
    rw [size] at none
    omega

theorem ne_of_lost (lost : resolve member = none) (found : (resolve wanted).isSome) :
    wanted ≠ member := by
  rintro rfl
  rw [lost] at found
  cases found

/-- A selection that stops short of the number asked for has picked everyone whom it
could pick and whom its steps lead to. -/
theorem Picks.complete (picks : Picks resolve excluded steps count seen rotation picked last)
    (short : picked.length < count) (reaches : rotation.Reaches steps wanted)
    (allowed : wanted ∉ excluded) (fresh : wanted ∉ seen) (found : (resolve wanted).isSome) :
    wanted ∈ picked.map (·.1) := by
  induction picks with
  | spent => exact absurd reaches (not_reaches_zero wanted)
  | served => cases short
  | empty none =>
      have among := reaches.mem
      rw [none] at among
      cases among
  | pass visits barred _ inductionHypothesis =>
      apply inductionHypothesis short (visits.reaches _ reaches) fresh
      rintro rfl
      exact barred.elim allowed fresh
  | lose visits lost _ inductionHypothesis =>
      have other := ne_of_lost lost found
      exact inductionHypothesis short (visits.reaches other reaches)
        (List.not_mem_cons_of_ne_of_not_mem other fresh)
  | @take _ _ _ _ _ _ member _ _ visits _ _ _ _ inductionHypothesis =>
      by_cases same : wanted = member
      · exact List.mem_cons.mpr (Or.inl same)
      · apply List.mem_cons_of_mem
        exact inductionHypothesis (Nat.lt_of_succ_lt_succ short) (visits.reaches same reaches)
          (List.not_mem_cons_of_ne_of_not_mem same fresh)

/-! ## Runs -/

inductive Operation where
  | refresh (current : List Endpoint)
  | select (resolve : Endpoint → Option SocketAddress) (count : Nat) (excluded : List Endpoint)

def operate (rotation : Rotation) : Operation → List (Endpoint × SocketAddress) × Rotation
  | .refresh current => ([], rotation.refresh current)
  | .select resolve count excluded => rotation.selectBy resolve count excluded

/-- What can become of a new rotation, with all that was asked of it and all who were
picked, whatever the random choices are. -/
inductive Runs : List Operation → List (Endpoint × SocketAddress) → Rotation → Prop where
  | start (chance : Chance) : Runs [] [] { chance }
  | operate {history : List Operation} {picked : List (Endpoint × SocketAddress)}
      {rotation : Rotation} (run : Runs history picked rotation) (operation : Operation) :
      Runs (history ++ [operation]) (picked ++ (rotation.operate operation).1)
        (rotation.operate operation).2

def replay (chance : Chance) (history : List Operation) :
    List (Endpoint × SocketAddress) × Rotation :=
  history.foldl
    (fun (picked, rotation) operation =>
      (picked ++ (rotation.operate operation).1, (rotation.operate operation).2))
    ([], { chance })

theorem runs_replay (chance : Chance) (history : List Operation) :
    Runs history (replay chance history).1 (replay chance history).2 := by
  induction history using List.reverseRecOn with
  | nil => exact .start chance
  | append_singleton earlier operation inductionHypothesis =>
      rw [replay, List.foldl_append]
      exact inductionHypothesis.operate operation

/-- The members at the last refresh, and none before the first. -/
def followed : List Operation → List Endpoint :=
  List.foldl (fun current operation =>
    match operation with
    | .refresh newer => newer
    | .select _ _ _ => current) []

theorem followed_append_refresh (history : List Operation) (current : List Endpoint) :
    followed (history ++ [.refresh current]) = current := by
  rw [followed, List.foldl_append]
  rfl

private theorem followed_append_select (history : List Operation)
    (resolve : Endpoint → Option SocketAddress) (count : Nat) (excluded : List Endpoint) :
    followed (history ++ [.select resolve count excluded]) = followed history := by
  rw [followed, List.foldl_append]
  rfl

variable {history : List Operation}

/-- A rotation holds exactly the members of the last refresh, each of them once. -/
theorem Runs.members (run : Runs history picked rotation) :
    rotation.members.Nodup ∧ ∀ tested, tested ∈ rotation.members ↔ tested ∈ followed history := by
  induction run with
  | start chance => exact ⟨List.nodup_nil, fun tested => Iff.rfl⟩
  | @operate history picked rotation run operation inductionHypothesis =>
      cases operation with
      | refresh current =>
          rw [followed_append_refresh]
          exact members_refresh inductionHypothesis.1 current
      | select resolve count excluded =>
          have turns := perm_selectBy resolve rotation count excluded
          rw [followed_append_select]
          exact
            ⟨turns.nodup_iff.mpr inductionHypothesis.1, fun tested =>
              turns.mem_iff.trans (inductionHypothesis.2 tested)⟩

/-! ## Selections -/

/-- Who is a member, is not excluded, and has an address. -/
def available (resolve : Endpoint → Option SocketAddress) (current excluded : List Endpoint) :
    Finset Endpoint :=
  current.toFinset.filter fun member => member ∉ excluded ∧ (resolve member).isSome

private theorem mem_available :
    member ∈ available resolve current excluded ↔
      member ∈ current ∧ member ∉ excluded ∧ (resolve member).isSome := by
  rw [available, Finset.mem_filter, List.mem_toFinset]

/-- In every run, whatever the random choices, a selection picks as many as were asked
for or, if fewer are available, all who are.  They differ, they are members of the last
refresh that are not excluded, and each comes with its own address. -/
theorem selectBy_exact (run : Runs history picked rotation)
    (resolve : Endpoint → Option SocketAddress) (count : Nat) (excluded : List Endpoint) :
    (rotation.selectBy resolve count excluded).1.length =
        min count (available resolve (followed history) excluded).card ∧
      ((rotation.selectBy resolve count excluded).1.map (·.1)).Nodup ∧
        ∀ member address, (member, address) ∈ (rotation.selectBy resolve count excluded).1 →
          member ∈ followed history ∧ member ∉ excluded ∧ resolve member = some address := by
  obtain ⟨_, known⟩ := run.members
  have picks := picks_pick resolve excluded (2 * rotation.size) count [] rotation
  rw [← selectBy] at picks
  generalize (rotation.selectBy resolve count excluded).1 = chosen at picks ⊢
  have sound : ∀ member address, (member, address) ∈ chosen →
      member ∈ followed history ∧ member ∉ excluded ∧ resolve member = some address := by
    intro member address among
    obtain ⟨present, allowed, _, found⟩ := picks.sound among
    exact ⟨(known member).mp present, allowed, found⟩
  refine ⟨?_, picks.nodup, sound⟩
  have size := List.toFinset_card_of_nodup picks.nodup
  rw [List.length_map] at size
  have onlyAvailable :
      (chosen.map (·.1)).toFinset ⊆ available resolve (followed history) excluded := by
    intro member named
    obtain ⟨⟨_, address⟩, among, rfl⟩ := List.mem_map.mp (List.mem_toFinset.mp named)
    obtain ⟨present, allowed, found⟩ := sound _ _ among
    exact mem_available.mpr ⟨present, allowed, Option.isSome_iff_exists.mpr ⟨address, found⟩⟩
  have fewer := Finset.card_le_card onlyAvailable
  have bounded := picks.length_le
  by_cases short : chosen.length < count
  · have allAvailable :
        available resolve (followed history) excluded ⊆ (chosen.map (·.1)).toFinset := by
      intro member among
      obtain ⟨present, allowed, found⟩ := mem_available.mp among
      have reaches := reaches_twice ((known member).mpr present)
      exact List.mem_toFinset.mpr (picks.complete short reaches allowed List.not_mem_nil found)
    have more := Finset.card_le_card allAvailable
    omega
  · omega

def household : List Endpoint :=
  [⟨"127.0.0.1", 7001, 10⟩, ⟨"127.0.0.1", 7002, 10⟩, ⟨"127.0.0.1", 7003, 10⟩,
    ⟨"0.example", 7009, 5⟩]

def outset : List Operation :=
  [.refresh household, .select Endpoint.socketAddress? 1 []]

private theorem card_available_household :
    (available Endpoint.socketAddress? (followed outset) [⟨"127.0.0.1", 7002, 10⟩]).card = 2 := by
  decide +kernel

/-- From the middle of a pass on, all are picked who are not excluded and can be dialled. -/
theorem selectBy_exact_midway :
    (replay { source := id } outset).2.visited.length = 1 ∧
      ((replay { source := id } outset).2.selectBy Endpoint.socketAddress? 10
        [⟨"127.0.0.1", 7002, 10⟩]).1.length = 2 := by
  obtain ⟨size, _⟩ :=
    selectBy_exact (runs_replay { source := id } outset) Endpoint.socketAddress? 10
      [⟨"127.0.0.1", 7002, 10⟩]
  refine ⟨by decide +kernel, size.trans ?_⟩
  rw [card_available_household]
  rfl

end Rotation

end Roster
