import Mathlib.Logic.Relation
import Roster.Node

/-!
# Running activities

An activity stays within a step relation if it leads from every node to one
that is reached by such steps, whether it is carried out or an overflow stops
it.  It does so as soon as its parts do.
-/

namespace Roster

namespace Activity

variable {α β : Type} {step : Node → Node → Prop} {node after : Node}
  {activity : Activity α} {next : α → Activity β}

/-! ## Runs -/

theorem run_bind_of_ok {value : α} (done : activity.run node = (.ok value, after)) :
    (activity >>= next).run node = (next value).run after := by
  change ExceptT.bindCont next (activity.run node).1 (activity.run node).2 = _
  rw [done]
  rfl

theorem run_bind_of_error {overflow : Overflow}
    (stopped : activity.run node = (.error overflow, after)) :
    (activity >>= next).run node = (.error overflow, after) := by
  change ExceptT.bindCont next (activity.run node).1 (activity.run node).2 = _
  rw [stopped]
  rfl

/-- What has been carried out in two parts can be taken apart. -/
theorem run_bind_eq_ok {result : β} (done : (activity >>= next).run node = (.ok result, after)) :
    ∃ value middle, activity.run node = (.ok value, middle) ∧
      (next value).run middle = (.ok result, after) := by
  cases first : activity.run node with
  | mk outcome middle =>
      cases outcome with
      | ok value =>
          rw [run_bind_of_ok first] at done
          exact ⟨value, middle, rfl, done⟩
      | error overflow =>
          rw [run_bind_of_error first] at done
          cases done

theorem run_lift_bind_of_ok {attempt : Except Overflow α} {value : α}
    (succeeded : attempt = .ok value) :
    ((liftM attempt : Activity α) >>= next).run node = (next value).run node := by
  rw [succeeded]
  rfl

/-- What may overflow was carried out if it did not. -/
theorem run_lift_bind_eq_ok {attempt : Except Overflow α} {result : β}
    (done : ((liftM attempt : Activity α) >>= next).run node = (.ok result, after)) :
    ∃ value, attempt = .ok value ∧ (next value).run node = (.ok result, after) := by
  cases attempt with
  | ok value => exact ⟨value, rfl, done⟩
  | error overflow => cases done

theorem run_get_bind (next : Node → Activity β) :
    (get >>= next).run node = (next node).run node :=
  rfl

theorem run_forM_of_ok {item : α → Activity Unit} {value : α} {rest : List α}
    (done : (item value).run node = (.ok (), after)) :
    ((value :: rest).forM item).run node = (rest.forM item).run after :=
  run_bind_of_ok done

theorem run_forM_of_error {item : α → Activity Unit} {value : α} {rest : List α}
    {overflow : Overflow} (stopped : (item value).run node = (.error overflow, after)) :
    ((value :: rest).forM item).run node = (.error overflow, after) :=
  run_bind_of_error stopped

theorem run_forM_append_of_ok {item : α → Activity Unit} {rest : List α} :
    ∀ {front : List α} {node : Node}, (front.forM item).run node = (.ok (), after) →
      ((front ++ rest).forM item).run node = (rest.forM item).run after
  | [], _, done => by
      cases done
      rfl
  | _ :: _, _, done => by
      obtain ⟨_, _, first, others⟩ := run_bind_eq_ok done
      exact (run_forM_of_ok first).trans (run_forM_append_of_ok others)

/-- What holds where an activity ends holds after what follows, too, if that keeps it. -/
theorem holds_bind (holds : Node → Prop) (stays : holds (activity.run node).2)
    (follows :
      ∀ value after, activity.run node = (.ok value, after) → holds after →
        holds ((next value).run after).2) :
    holds ((activity >>= next).run node).2 := by
  cases result : activity.run node with
  | mk outcome middle =>
      rw [result] at stays
      cases outcome with
      | ok value =>
          rw [run_bind_of_ok result]
          exact follows value middle result stays
      | error overflow =>
          rw [run_bind_of_error result]
          exact stays

/-! ## Staying within a step relation -/

/-- However it ends, the activity takes steps only. -/
def Within (step : Node → Node → Prop) (activity : Activity α) : Prop :=
  ∀ node, Relation.ReflTransGen step node (activity.run node).2

theorem Within.mono {wider : Node → Node → Prop} (within : Within step activity)
    (implies : ∀ {before after}, step before after → wider before after) :
    Within wider activity :=
  fun node => Relation.ReflTransGen.mono (fun _ _ => implies) _ _ (within node)

theorem steps_bind (first : Relation.ReflTransGen step node (activity.run node).2)
    (second :
      ∀ value after, activity.run node = (.ok value, after) →
        Relation.ReflTransGen step after ((next value).run after).2) :
    Relation.ReflTransGen step node ((activity >>= next).run node).2 :=
  holds_bind (Relation.ReflTransGen step node) first fun value after result reached =>
    reached.trans (second value after result)

/-- What follows an activity goes on from where that has led. -/
theorem steps_rest (second : ∀ value, Within step (next value)) :
    Relation.ReflTransGen step (activity.run node).2 ((activity >>= next).run node).2 :=
  holds_bind (Relation.ReflTransGen step (activity.run node).2) .refl
    fun value after _ reached => reached.trans (second value after)

/-- What may overflow leaves the node as it is. -/
theorem steps_lift_bind {result : Except Overflow α}
    (follows :
      ∀ value, result = .ok value → Relation.ReflTransGen step node ((next value).run node).2) :
    Relation.ReflTransGen step node (((liftM result : Activity α) >>= next).run node).2 := by
  cases result with
  | ok value => exact follows value rfl
  | error overflow => exact Relation.ReflTransGen.refl

/-- Steps of a preorder add up to one of them. -/
theorem step_of_steps [IsPreorder Node step] {before : Node}
    (steps : Relation.ReflTransGen step before after) : step before after := by
  induction steps with
  | refl => exact refl_of step before
  | tail _ last inductionHypothesis => exact trans_of step inductionHypothesis last

theorem Within.of_run [IsPreorder Node step] {outcome : Except Overflow α}
    (within : Within step activity) (done : activity.run node = (outcome, after)) :
    step node after := by
  have steps := step_of_steps (within node)
  rwa [done] at steps

theorem within_pure (value : α) : Within step (pure value : Activity α) :=
  fun _ => Relation.ReflTransGen.refl

theorem within_bind (first : Within step activity) (second : ∀ value, Within step (next value)) :
    Within step (activity >>= next) :=
  fun node => steps_bind (first node) fun value after _ => second value after

theorem within_get_bind {next : Node → Activity β}
    (follows : ∀ node, Relation.ReflTransGen step node ((next node).run node).2) :
    Within step (get >>= next) :=
  follows

theorem within_modify {change : Node → Node} (related : ∀ node, step node (change node)) :
    Within step (modify change : Activity Unit) :=
  fun node => Relation.ReflTransGen.single (related node)

theorem within_modifyGet {change : Node → α × Node}
    (related : ∀ node, step node (change node).2) :
    Within step (modifyGet change : Activity α) :=
  fun node => Relation.ReflTransGen.single (related node)

theorem within_forM_of_mem {item : α → Activity Unit} :
    ∀ {values : List α}, (∀ value ∈ values, Within step (item value)) →
      Within step (values.forM item)
  | [], _ => within_pure ()
  | _ :: _, related =>
      within_bind (related _ List.mem_cons_self) fun _ =>
        within_forM_of_mem fun value among => related value (List.mem_cons_of_mem _ among)

theorem within_forM {item : α → Activity Unit} (related : ∀ value, Within step (item value))
    (values : List α) : Within step (values.forM item) :=
  within_forM_of_mem fun value _ => related value

/-! ## Results -/

/-- If the activity is carried out, its result is of a kind. -/
def Yields (kind : α → Prop) (activity : Activity α) : Prop :=
  ∀ node value after, activity.run node = (.ok value, after) → kind value

theorem Yields.mono {kind wider : α → Prop} (yields : Yields kind activity)
    (implies : ∀ value, kind value → wider value) : Yields wider activity :=
  fun node value after done => implies value (yields node value after done)

theorem yields_pure {kind : α → Prop} {value : α} (right : kind value) :
    Yields kind (pure value : Activity α) := by
  intro node result after done
  cases done
  exact right

theorem yields_bind {kind : β → Prop} (right : ∀ value, Yields kind (next value)) :
    Yields kind (activity >>= next) := by
  intro node result after done
  obtain ⟨value, middle, _, done⟩ := run_bind_eq_ok done
  exact right value middle result after done

/-! ## Certainty -/

/-- The activity never comes upon an overflow. -/
def Completes (activity : Activity α) : Prop :=
  ∀ node, ∃ value, (activity.run node).1 = .ok value

theorem completes_pure (value : α) : Completes (pure value : Activity α) :=
  fun _ => ⟨value, rfl⟩

theorem completes_modify (change : Node → Node) : Completes (modify change : Activity Unit) :=
  fun _ => ⟨(), rfl⟩

theorem completes_modifyGet (change : Node → α × Node) :
    Completes (modifyGet change : Activity α) :=
  fun node => ⟨(change node).1, rfl⟩

theorem completes_bind (first : Completes activity) (second : ∀ value, Completes (next value)) :
    Completes (activity >>= next) := by
  intro node
  obtain ⟨value, done⟩ := first node
  have ran : activity.run node = (.ok value, (activity.run node).2) := Prod.ext done rfl
  rw [run_bind_of_ok ran]
  exact second value _

theorem completes_get_bind {next : Node → Activity β} (follows : ∀ node, Completes (next node)) :
    Completes (get >>= next) :=
  fun node => follows node node

theorem completes_forM {item : α → Activity Unit} (related : ∀ value, Completes (item value)) :
    ∀ values : List α, Completes (values.forM item)
  | [] => completes_pure ()
  | value :: rest => completes_bind (related value) fun _ => completes_forM related rest

end Activity

end Roster
