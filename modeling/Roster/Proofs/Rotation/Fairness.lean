import Mathlib.Data.List.Count
import Roster.Proofs.Rotation.Selection

/-!
# Everyone in turn

A pass visits every member once, whoever joins or leaves before it is over.  When one
member at a time is picked, whoever may be picked is picked as soon as visited.  So those
who stay members have been picked once in every pass that is over, and once more if they
were visited in this one.
-/

namespace Roster

namespace Rotation

variable {resolve : Endpoint → Option SocketAddress} {rotation turned last : Rotation}
  {excluded seen current : List Endpoint} {member left right : Endpoint} {steps count : Nat}
  {picked chosen : List (Endpoint × SocketAddress)} {history : List Operation}
  {operation : Operation} {steady fewer : Endpoint → Prop}

def times (picked : List (Endpoint × SocketAddress)) (member : Endpoint) : Nat :=
  (picked.map (·.1)).count member

private theorem times_append (picked chosen : List (Endpoint × SocketAddress)) (member : Endpoint) :
    times (picked ++ chosen) member = times picked member + times chosen member := by
  rw [times, List.map_append, List.count_append]
  rfl

/-! ## One pick at a time -/

/-- Steady members were picked once in every pass that is over, and once more if they
were visited in this one. -/
structure Level (steady : Endpoint → Prop) (picked : List (Endpoint × SocketAddress))
    (rotation : Rotation) : Prop where
  nodup : rotation.members.Nodup
  present : ∀ member, steady member → member ∈ rotation.members
  counted : ∃ passes, ∀ member, steady member →
    times picked member = passes + if member ∈ rotation.visited then 1 else 0

theorem Level.mono (level : Level steady picked rotation)
    (implies : ∀ member, fewer member → steady member) : Level fewer picked rotation where
  nodup := level.nodup
  present member stays := level.present member (implies member stays)
  counted := by
    obtain ⟨passes, counted⟩ := level.counted
    exact ⟨passes, fun member stays => counted member (implies member stays)⟩

/-- A visit counts for the one who is visited, also where a new pass begins. -/
theorem Level.visit (level : Level steady picked rotation)
    (visits : rotation.Visits member turned) {after : List (Endpoint × SocketAddress)}
    (counts : ∀ tested, steady tested →
      times after tested = times picked tested + if tested = member then 1 else 0) :
    Level steady after turned where
  nodup := visits.perm.nodup_iff.mpr level.nodup
  present tested stays := visits.perm.mem_iff.mpr (level.present tested stays)
  counted := by
    obtain ⟨passes, counted⟩ := level.counted
    have nodup := level.nodup
    cases visits with
    | next ahead visited =>
        rw [members, ahead, List.nodup_append] at nodup
        have unvisited : member ∉ rotation.visited := fun earlier =>
          nodup.2.2 member earlier member List.mem_cons_self rfl
        refine ⟨passes, fun tested stays => ?_⟩
        rw [counts tested stays, counted tested stays]
        by_cases same : tested = member
        · simp [same, unvisited, visited]
        · simp [same, visited]
    | again ahead visited _ =>
        -- Everyone was visited in the pass that ends.
        refine ⟨passes + 1, fun tested stays => ?_⟩
        have earlier := level.present tested stays
        rw [members, ahead, List.append_nil] at earlier
        simp [counts tested stays, counted tested stays, earlier, visited]

private theorem Picks.of_zero (picks : Picks resolve excluded steps 0 seen rotation chosen last) :
    chosen = [] ∧ last = rotation := by
  cases picks with
  | spent => exact ⟨rfl, rfl⟩
  | served => exact ⟨rfl, rfl⟩

theorem Level.picks (level : Level steady picked rotation)
    (picks : Picks resolve excluded steps count seen rotation chosen last) (single : count = 1)
    (fair : ∀ member, steady member → member ∉ excluded ∧ (resolve member).isSome)
    (unseen : ∀ member ∈ seen, ¬ steady member) : Level steady (picked ++ chosen) last := by
  induction picks with
  | spent => rwa [List.append_nil]
  | served => cases single
  | empty => rwa [List.append_nil]
  | pass visits barred _ inductionHypothesis =>
      refine inductionHypothesis (level.visit visits fun tested stays => ?_) single unseen
      rw [if_neg, Nat.add_zero]
      rintro rfl
      exact barred.elim (fair _ stays).1 fun before => unseen _ before stays
  | lose visits lost _ inductionHypothesis =>
      refine inductionHypothesis (level.visit visits fun tested stays => ?_) single ?_
      · rw [if_neg (ne_of_lost lost (fair tested stays).2), Nat.add_zero]
      · intro tested among stays
        rcases List.mem_cons.mp among with rfl | before
        · exact ne_of_lost lost (fair _ stays).2 rfl
        · exact unseen tested before stays
  | take visits _ _ _ rest _ =>
      cases single
      obtain ⟨rfl, rfl⟩ := rest.of_zero
      refine level.visit visits fun tested _ => ?_
      rw [times_append, times, times, List.map_singleton, List.count_singleton,
        Bool.beq_comm]
      simp only [beq_iff_eq]

/-! ## Joining and leaving -/

private theorem visited_enter (rotation : Rotation) (member : Endpoint) :
    (rotation.enter member).visited = rotation.visited := by
  unfold enter
  split
  · rfl
  · rfl

private theorem visited_foldl_enter (current : List Endpoint) (rotation : Rotation) :
    (current.foldl enter rotation).visited = rotation.visited := by
  induction current generalizing rotation with
  | nil => rfl
  | cons member rest inductionHypothesis =>
      rw [List.foldl_cons, inductionHypothesis, visited_enter]

private theorem visited_refresh (rotation : Rotation) (current : List Endpoint) :
    (rotation.refresh current).visited = rotation.visited.filter (· ∈ current) :=
  visited_foldl_enter current _

theorem Level.refresh (level : Level steady picked rotation)
    (stay : ∀ member, steady member → member ∈ current) :
    Level steady picked (rotation.refresh current) where
  nodup := (members_refresh level.nodup current).1
  present member stays := ((members_refresh level.nodup current).2 member).mpr (stay member stays)
  counted := by
    obtain ⟨passes, counted⟩ := level.counted
    refine ⟨passes, fun member stays => ?_⟩
    simp [counted member stays, visited_refresh, stay member stays]

/-! ## Runs -/

def OneByOne (history : List Operation) : Prop :=
  ∀ resolve count excluded, .select resolve count excluded ∈ history → count = 1

/-- The member may be picked at every selection. -/
structure Eligible (history : List Operation) (member : Endpoint) : Prop where
  allowed : ∀ resolve count excluded, .select resolve count excluded ∈ history → member ∉ excluded
  found : ∀ resolve count excluded, .select resolve count excluded ∈ history →
    (resolve member).isSome

/-- No refresh has brought anyone yet. -/
def Idle (history : List Operation) : Prop :=
  ∀ current, .refresh current ∈ history → current = []

/-- The member was in the first refresh that was not empty, and in every one since. -/
def Stays (history : List Operation) (member : Endpoint) : Prop :=
  ∃ idle first later, history = idle ++ .refresh first :: later ∧ Idle idle ∧ member ∈ first ∧
    ∀ current, .refresh current ∈ later → member ∈ current

theorem Eligible.of_append (eligible : Eligible (history ++ [operation]) member) :
    Eligible history member where
  allowed resolve count excluded before :=
    eligible.allowed resolve count excluded (List.mem_append_left _ before)
  found resolve count excluded before :=
    eligible.found resolve count excluded (List.mem_append_left _ before)

/-- A stay goes on, unless it begins with the last operation. -/
theorem Stays.of_append (stays : Stays (history ++ [operation]) member) :
    Stays history member ∧ (∀ current, operation = .refresh current → member ∈ current) ∨
      Idle history ∧ ∃ current, operation = .refresh current ∧ member ∈ current := by
  obtain ⟨idle, first, later, split, unmoved, among, kept⟩ := stays
  rcases List.eq_nil_or_concat later with rfl | ⟨earlier, final, rfl⟩
  · obtain ⟨rfl, same⟩ := List.append_inj' split rfl
    cases same
    exact Or.inr ⟨unmoved, first, rfl, among⟩
  · rw [List.concat_eq_append] at split kept
    rw [← List.cons_append, ← List.append_assoc] at split
    obtain ⟨rfl, same⟩ := List.append_inj' split rfl
    cases same
    refine Or.inl ⟨⟨idle, first, earlier, rfl, unmoved, among, fun current before => ?_⟩, ?_⟩
    · exact kept current (List.mem_append_left _ before)
    · rintro current rfl
      exact kept current (List.mem_append_right _ (List.mem_singleton_self _))

private theorem Idle.not_stays (idle : Idle history) : ¬ Stays history member := by
  rintro ⟨before, first, later, rfl, _, among, _⟩
  rw [idle first (List.mem_append_right _ List.mem_cons_self)] at among
  cases among

private theorem Runs.of_idle (run : Runs history picked rotation) (idle : Idle history) :
    picked = [] ∧ rotation.members = [] := by
  induction run with
  | start => exact ⟨rfl, rfl⟩
  | @operate history picked rotation run operation inductionHypothesis =>
      obtain ⟨rfl, empty⟩ :=
        inductionHypothesis fun current before => idle current (List.mem_append_left _ before)
      cases operation with
      | refresh current =>
          cases idle current (List.mem_append_right _ (List.mem_singleton_self _))
          have known := (run.operate (.refresh [])).members.2
          rw [followed_append_refresh] at known
          exact ⟨rfl, List.eq_nil_iff_forall_not_mem.mpr fun member among =>
            List.not_mem_nil ((known member).mp among)⟩
      | select resolve count excluded =>
          have turns := perm_selectBy resolve rotation count excluded
          rw [empty] at turns
          refine ⟨List.eq_nil_iff_forall_not_mem.mpr fun pair among => ?_, turns.eq_nil⟩
          have present := ((picks_pick resolve excluded _ count [] rotation).sound among).1
          rw [empty] at present
          cases present

/-- In every run that picks one member at a time, whatever the random choices. -/
theorem Runs.level (run : Runs history picked rotation) (single : OneByOne history) :
    Level (fun member => Stays history member ∧ Eligible history member) picked rotation := by
  induction run with
  | start =>
      have unmoved : Idle [] := fun current before => absurd before List.not_mem_nil
      exact
        ⟨List.nodup_nil, fun member stays => absurd stays.1 unmoved.not_stays, 0,
          fun member stays => absurd stays.1 unmoved.not_stays⟩
  | @operate history picked rotation run operation inductionHypothesis =>
      have level := inductionHypothesis fun resolve count excluded before =>
        single resolve count excluded (List.mem_append_left _ before)
      cases operation with
      | refresh current =>
          rw [Rotation.operate, List.append_nil]
          by_cases idle : Idle history
          · -- Whoever stays joins now, and nobody was picked before.
            obtain ⟨rfl, empty⟩ := run.of_idle idle
            have none : rotation.visited = [] := (List.append_eq_nil_iff.mp empty).1
            have known := members_refresh run.members.1 current
            refine ⟨known.1, fun member stays => ?_, 0, fun member stays => ?_⟩
            · rcases stays.1.of_append with ⟨stayed, _⟩ | ⟨_, joined, same, among⟩
              · exact absurd stayed idle.not_stays
              · cases same
                exact (known.2 member).mpr among
            · simp [times, visited_refresh, none]
          · have stayed : ∀ member, Stays (history ++ [.refresh current]) member →
                Stays history member ∧ member ∈ current := by
              intro member stays
              rcases stays.of_append with ⟨stayed, kept⟩ | ⟨before, _⟩
              · exact ⟨stayed, kept current rfl⟩
              · exact absurd before idle
            refine Level.refresh (level.mono fun member stays => ?_) fun member stays => ?_
            · exact ⟨(stayed member stays.1).1, stays.2.of_append⟩
            · exact (stayed member stays.1).2
      | select resolve count excluded =>
          have asked := List.mem_append_right history
            (List.mem_singleton_self (Operation.select resolve count excluded))
          have picks := picks_pick resolve excluded (2 * rotation.size) count [] rotation
          refine Level.picks (level.mono fun member stays => ?_) picks
            (single resolve count excluded asked) (fun member stays => ?_)
            fun member none => absurd none List.not_mem_nil
          · rcases stays.1.of_append with ⟨stayed, _⟩ | ⟨_, _, same, _⟩
            · exact ⟨stayed, stays.2.of_append⟩
            · cases same
          · exact
              ⟨stays.2.allowed resolve count excluded asked,
                stays.2.found resolve count excluded asked⟩

/-- In every run that picks one member at a time, whatever the random choices: two
members who may always be picked, and who were in the first refresh that was not empty
and in every one since, were picked equally often, or one of them once more. -/
theorem picked_equally_often (run : Runs history picked rotation) (single : OneByOne history)
    (leftStays : Stays history left) (leftEligible : Eligible history left)
    (rightStays : Stays history right) (rightEligible : Eligible history right) :
    times picked left ≤ times picked right + 1 ∧ times picked right ≤ times picked left + 1 := by
  obtain ⟨passes, counted⟩ := (run.level single).counted
  rw [counted left ⟨leftStays, leftEligible⟩, counted right ⟨rightStays, rightEligible⟩]
  constructor
  · split <;> split <;> omega
  · split <;> split <;> omega

/-- One selection that excludes the second host of a household. -/
def turn : Operation :=
  .select Endpoint.socketAddress? 1 [⟨"127.0.0.1", 7002, 10⟩]

/-- A household moves in, its second host leaves in the middle of a pass, and a fourth
one comes. -/
def churn : List Operation :=
  [turn, .refresh [], .refresh household, turn, turn,
    .refresh [⟨"127.0.0.1", 7003, 10⟩, ⟨"127.0.0.1", 7004, 10⟩, ⟨"127.0.0.1", 7001, 10⟩],
    turn, turn]

private theorem eq_turn_of_mem_churn (resolve : Endpoint → Option SocketAddress) (count : Nat)
    (excluded : List Endpoint) (among : .select resolve count excluded ∈ churn) :
    resolve = Endpoint.socketAddress? ∧ count = 1 ∧ excluded = [⟨"127.0.0.1", 7002, 10⟩] := by
  simpa [churn, turn] using among

private theorem stays_churn (member : Endpoint) (among : member ∈ household)
    (kept : member ∈
      [⟨"127.0.0.1", 7003, 10⟩, ⟨"127.0.0.1", 7004, 10⟩, (⟨"127.0.0.1", 7001, 10⟩ : Endpoint)]) :
    Stays churn member := by
  refine ⟨[turn, .refresh []], household, _, rfl, ?_, among, ?_⟩
  · simp [Idle, turn]
  · simpa [turn] using kept

private theorem eligible_churn (member : Endpoint) (allowed : member ≠ ⟨"127.0.0.1", 7002, 10⟩)
    (found : member.socketAddress?.isSome) : Eligible churn member where
  allowed resolve count excluded among := by
    rw [(eq_turn_of_mem_churn resolve count excluded among).2.2]
    exact List.not_mem_cons_of_ne_of_not_mem allowed List.not_mem_nil
  found resolve count excluded among := by
    rwa [(eq_turn_of_mem_churn resolve count excluded among).1]

/-- Of two hosts that stay, the one that begins another pass is picked once more. -/
theorem picked_equally_often_churn :
    times (replay { source := id } churn).1 ⟨"127.0.0.1", 7001, 10⟩ = 1 ∧
      times (replay { source := id } churn).1 ⟨"127.0.0.1", 7003, 10⟩ = 2 ∧
        times (replay { source := id } churn).1 ⟨"127.0.0.1", 7003, 10⟩ ≤
          times (replay { source := id } churn).1 ⟨"127.0.0.1", 7001, 10⟩ + 1 := by
  have fair :=
    picked_equally_often (runs_replay { source := id } churn)
      (fun resolve count excluded among => (eq_turn_of_mem_churn resolve count excluded among).2.1)
      (stays_churn ⟨"127.0.0.1", 7001, 10⟩ (by decide) (by decide))
      (eligible_churn _ (by decide) (by decide +kernel))
      (stays_churn ⟨"127.0.0.1", 7003, 10⟩ (by decide) (by decide))
      (eligible_churn _ (by decide) (by decide +kernel))
  exact ⟨by decide +kernel, by decide +kernel, fair.2⟩

end Rotation

end Roster
