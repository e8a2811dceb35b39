import Mathlib.Algebra.BigOperators.Group.Finset.Basic
import Mathlib.Algebra.Order.BigOperators.Group.Finset
import Mathlib.Data.Fintype.BigOperators
import Mathlib.Order.Iterate
import Roster.Proofs.Federation.Deletion
import Roster.Proofs.Federation.Presence
import Roster.Proofs.MemberList.Sparing
import Roster.Proofs.MemberList.Spending

/-!
# Exchange dies out

Lists answer what they import with edits of their own, which are exchanged and
imported in turn.  Once nobody hosts, evicts or stops any more this comes to
an end.  The weight of a federation counts what its lists have written and
what a repair may still find to delete or to put back; no import raises it
unless a list returns under a later endpoint.  Returns are few: a list whose
key is read back returns only if its endpoint was deleted, and nobody deletes
the endpoint that it returns under.  A list whose key is not read back may
return until no incarnation is left.

The weight does not count imports, so deltas may arrive any number of times.
-/

namespace Roster.Federation

universe u

variable {ι : Type u} {founders : ι → Founder} {federation after : Federation ι}

/-! ## Deleted endpoints -/

def Condemned (lists : ι → MemberList) (endpoint : Endpoint) : Prop :=
  ∃ author, (lists author).HasDeleted endpoint

instance [Fintype ι] (lists : ι → MemberList) (endpoint : Endpoint) :
    Decidable (Condemned lists endpoint) :=
  inferInstanceAs (Decidable (∃ author, (lists author).HasDeleted endpoint))

/-- Nobody has deleted an endpoint that a list has not had yet. -/
private theorem AllAscribed.not_condemned {member : ι} {later : Endpoint}
    (ascribed : AllAscribed founders federation) (coherent : Coherent founders federation)
    (apart : HostsApart founders)
    (supersedes : later.supersedes (federation.lists member).own = true) :
    ¬ Condemned federation.lists later := by
  rintro ⟨author, delete, held, key, absent⟩
  obtain ⟨writer, own, written⟩ :=
    (coherent.sound author).log_issued membershipUri delete held
  obtain ⟨put, putHeld, _, putKey, isPut, _⟩ :=
    (coherent.sound writer).ordered.removed membershipUri delete written own absent
  obtain ⟨announcer, name, known, _, _, named, _⟩ :=
    ascribed.exists_name coherent putHeld isPut
  have same : name = later := by
    apply Endpoint.key_injective
    rw [← named, putKey, key]
  subst same
  have home :=
    Endpoint.sameHost_trans (Endpoint.supersedes_iff.mp supersedes).1 (ascribed member).home
  have sameList := ascribed.eq_of_name apart known home
  subst sameList
  exact ascribed.not_known_of_supersedes supersedes known

/-- No list but its own puts in the name of a host. -/
theorem AllAscribed.sovereign (ascribed : AllAscribed founders federation)
    (coherent : Coherent founders federation) (apart : HostsApart founders) (member : ι) :
    (federation.lists member).Sovereign where
  announced operation held endpoint home put key :=
    ascribed.own_of_announced coherent apart
      (Endpoint.sameHost_trans home (ascribed member).home) held put key
  placed operation held endpoint home value := by
    obtain ⟨author, agent, name, known, own, _, written⟩ :=
      ascribed.exists_placed coherent held (by rw [value]; rfl)
    have same : endpoint = name :=
      Endpoint.key_injective (Option.some.inj (value.symm.trans written))
    subst same
    have sameList :=
      ascribed.eq_of_name apart known
        (Endpoint.sameHost_trans home (ascribed member).home)
    rwa [← sameList]

/-- Lists announce every endpoint that they have. -/
private theorem announced_of_reachable [DecidableEq ι] (distinct : DistinctReplicas founders)
    (reachable : Reachable founders federation) (member : ι) :
    (federation.lists member).Announced := by
  induction reachable with
  | refl => exact MemberList.Announced.announce _
  | @tail before _ earlier step inductionHypothesis =>
      have coherent := coherent_of_reachable distinct earlier
      obtain ⟨changed, list, change, sameLists, _⟩ := step.change coherent distinct
      rw [sameLists]
      by_cases here : member = changed
      · subst here
        rw [lists_put_self]
        rcases change.evolves with evolved | rfl | ⟨store, repaired⟩
        · exact inductionHypothesis.evolve evolved
        · exact inductionHypothesis.of_log_subset rfl fun _ held => held
        · have imported :
              ({ before.lists member with store } : MemberList).Announced :=
            inductionHypothesis.of_log_subset rfl (repaired.absorbs.log_subset membershipUri)
          exact imported.evolve repaired.evolves
      · rw [lists_put_of_ne _ _ here]
        exact inductionHypothesis

/-! ## Weight -/

section Weight

variable [Fintype ι]

/-- All deltas that were ever written: those that were drained and those that
are still in an outbox. -/
def produced (federation : Federation ι) : Nat :=
  federation.sent.length + ∑ member, (federation.lists member).outbox.length

/-- The hosting entries that lists have deleted or may find to delete. -/
def dismissed (lists : ι → MemberList) : Nat :=
  ∑ member, ((lists member).dismissals + (lists member).staleKeys.length)

/-- What a list has put, and what it may find to delete or to put.  Every
delete that it has not heard of yet may take an entry away from it. -/
def charge (lists : ι → MemberList) (member : ι) : Nat :=
  (lists member).notices + (lists member).homeKeys.length +
    ((lists member).placements + (lists member).bareAgents.length +
      (dismissed lists - (lists member).erasures))

/-- What all lists have written and may find to write. -/
def weight (lists : ι → MemberList) : Nat :=
  dismissed lists + ∑ member, charge lists member

def payroll (lists : ι → MemberList) : Nat :=
  ∑ member, (lists member).hosted.size

/-- How often a list may return under a later endpoint. -/
def mayReturn (lists : ι → MemberList) (member : ι) : Nat :=
  if (lists member).own.ReadsBack then
    if Condemned lists (lists member).own then 1 else 0
  else
    UInt64.size - 1 - (lists member).own.incarnation.toNat

def mayReturns (lists : ι → MemberList) : Nat :=
  ∑ member, mayReturn lists member

/-- What the weight may grow to when a list returns. -/
def grow (lists : ι → MemberList) (weight : Nat) : Nat :=
  (Fintype.card ι + 2) * weight + payroll lists + 2

/-- How many more deltas an exchange can bring about. -/
def echoBound (lists : ι → MemberList) : Nat :=
  (grow lists)^[mayReturns lists] (weight lists)

private theorem sum_written_le_weight (lists : ι → MemberList) :
    ∑ member, (lists member).written ≤ weight lists := by
  unfold weight dismissed
  rw [← Finset.sum_add_distrib]
  apply Finset.sum_le_sum
  intro member _
  unfold MemberList.written charge
  omega

private theorem placements_le_weight (lists : ι → MemberList) (member : ι) :
    (lists member).placements ≤ weight lists := by
  have within : (lists member).written ≤ ∑ member, (lists member).written :=
    Finset.single_le_sum (f := fun member => (lists member).written)
      (fun _ _ => Nat.zero_le _) (Finset.mem_univ member)
  have part : (lists member).placements ≤ (lists member).written :=
    Nat.le_add_left _ _
  exact (part.trans within).trans (sum_written_le_weight lists)

/-- Each delete that a list has heard of is one that some list has written. -/
private theorem Coherent.erasures_le (coherent : Coherent founders federation) (member : ι) :
    (federation.lists member).erasures ≤ dismissed federation.lists := by
  have nodup :
      (((federation.lists member).log hostingUri).filter (·.value.isNone)).Nodup :=
    ((coherent.sound member).ordered.causal hostingUri).nodup.filter _
  have subset :
      ((federation.lists member).log hostingUri).filter (·.value.isNone) ⊆
        Finset.univ.toList.flatMap fun author =>
          ((federation.lists author).log hostingUri).filter fun operation =>
            operation.replica == (federation.lists author).store.replica &&
              operation.value.isNone := by
    intro delete member
    obtain ⟨held, absent⟩ := List.mem_filter.mp member
    obtain ⟨author, own, written⟩ :=
      (coherent.sound _).log_issued hostingUri delete held
    refine List.mem_flatMap.mpr ⟨author, Finset.mem_toList.mpr (Finset.mem_univ author), ?_⟩
    refine List.mem_filter.mpr ⟨written, ?_⟩
    rw [Bool.and_eq_true]
    exact ⟨by simpa using own, absent⟩
  have short := (nodup.subperm subset).length_le
  rw [List.length_flatMap, ← List.countP_eq_length_filter] at short
  simp only [← List.countP_eq_length_filter] at short
  rw [Finset.sum_map_toList] at short
  refine short.trans (Finset.sum_le_sum ?_)
  intro author _
  exact Nat.le_add_right _ _

variable [DecidableEq ι]

/-- A sum in which one member may have grown. -/
private theorem sum_le_sum_add {before next : ι → Nat} (target : ι) {amount : Nat}
    (bounded :
      ∀ member, next member ≤ before member + if member = target then amount else 0) :
    ∑ member, next member ≤ ∑ member, before member + amount := by
  have total := Finset.sum_le_sum fun member (_ : member ∈ Finset.univ) => bounded member
  rw [Finset.sum_add_distrib] at total
  simpa using total

variable {lists : ι → MemberList} {target : ι} {list : MemberList}
  {announced displaced vacated : Nat}

private theorem dismissed_update_le
    (spends : (lists target).Spends list announced displaced vacated) :
    dismissed (Function.update lists target list) ≤ dismissed lists + displaced := by
  refine sum_le_sum_add target ?_
  intro member
  by_cases here : member = target
  · subst here
    rw [Function.update_self, if_pos rfl]
    exact spends.dismissals_le
  · rw [Function.update_of_ne here, if_neg here, Nat.add_zero]

/-- What a list spends raises the weight by no more than what its returns have
cost, where every list has heard of no more deletes than were written. -/
private theorem weight_update_le
    (spends : (lists target).Spends list announced displaced vacated)
    (heard :
      ∀ member, (Function.update lists target list member).erasures ≤
        dismissed (Function.update lists target list)) :
    weight (Function.update lists target list) ≤
      weight lists + (announced + vacated) + (Fintype.card ι + 1) * displaced := by
  have fewer := dismissed_update_le spends
  have charged :
      ∀ member, charge (Function.update lists target list) member ≤
        (charge lists member + displaced) +
          if member = target then announced + vacated else 0 := by
    intro member
    have heardHere := heard member
    by_cases here : member = target
    · subst here
      have := spends.notices_le
      have := spends.placements_le
      rw [Function.update_self] at heardHere
      rw [if_pos rfl]
      unfold charge
      rw [Function.update_self]
      omega
    · rw [if_neg here]
      unfold charge
      rw [Function.update_of_ne here]
      omega
  have total := sum_le_sum_add target charged
  rw [Finset.sum_add_distrib, Finset.sum_const_nat fun _ _ => rfl, Finset.card_univ] at total
  unfold weight
  rw [Nat.add_mul, Nat.one_mul]
  omega

private theorem payroll_update (sameHosted : list.hosted = (lists target).hosted) :
    payroll (Function.update lists target list) = payroll lists := by
  apply Finset.sum_congr rfl
  intro member _
  by_cases here : member = target
  · subst here
    rw [Function.update_self, sameHosted]
  · rw [Function.update_of_ne here]

end Weight

/-! ## Imports -/

section Imports

variable [DecidableEq ι] {target : ι} {store : Store} {list : MemberList}
  (repaired : Repaired founders federation target store list)

include repaired

/-- An import brings no deletes that nobody has written. -/
private theorem Repaired.condemned_of_import {endpoint : Endpoint}
    (condemned :
      Condemned
        (Function.update federation.lists target { federation.lists target with store })
        endpoint) :
    Condemned federation.lists endpoint := by
  obtain ⟨author, delete, held, key, absent⟩ := condemned
  obtain ⟨writer, own, written⟩ :=
    (repaired.coherent.sound author).log_issued membershipUri delete held
  refine ⟨writer, delete, ?_, key, absent⟩
  by_cases here : writer = target
  · subst here
    rw [lists_put_self] at own written
    exact repaired.absorbs.mem_log_of_own written (own.trans repaired.absorbs.replica_eq)
  · rwa [lists_put_of_ne _ _ here] at written

/-- A repair condemns only what its list supersedes. -/
theorem Repaired.condemned {endpoint : Endpoint}
    (condemned : Condemned (Function.update federation.lists target list) endpoint) :
    Condemned federation.lists endpoint ∨ list.own.supersedes endpoint = true := by
  obtain ⟨author, delete, held, key, absent⟩ := condemned
  by_cases here : author = target
  · subst here
    rw [Function.update_self] at held
    obtain ⟨offered, changed, made, _, mended⟩ := repaired.repaired
    rcases MemberList.Spares.repair mended delete held absent with
      imported | ⟨older, superseded, named⟩
    · refine Or.inl (repaired.condemned_of_import ⟨author, delete, ?_, key, absent⟩)
      rwa [Function.update_self]
    · have same : endpoint = older := Endpoint.key_injective (key.symm.trans named)
      rw [same]
      exact Or.inr superseded
  · rw [Function.update_of_ne here] at held
    exact Or.inl ⟨author, delete, held, key, absent⟩

/-- What an import and its repair spend. -/
theorem Repaired.spends (ascribed : AllAscribed founders federation)
    (apart : HostsApart founders) :
    list.own = (federation.lists target).own ∧
        (federation.lists target).Spends list 0 0 0 ∨
      list.own.supersedes (federation.lists target).own = true ∧
        ({ federation.lists target with store } : MemberList).members.contains
            (federation.lists target).own = false ∧
          (federation.lists target).Spends list 2 (federation.lists target).placements
            (federation.lists target).hosted.size := by
  have sovereign := (repaired.ascribed ascribed).sovereign repaired.coherent apart target
  rw [lists_put_self] at sovereign
  have absorbed := MemberList.Spends.absorb repaired.absorbs sovereign
  obtain ⟨offered, changed, made, _, mended⟩ := repaired.repaired
  rcases MemberList.Spends.repair sovereign mended with
    ⟨sameOwn, spent⟩ | ⟨later, absent, spent⟩
  · exact Or.inl ⟨sameOwn, absorbed.trans spent⟩
  · rw [MemberList.placements_absorb repaired.absorbs] at spent
    have total := absorbed.trans spent
    rw [Nat.zero_add, Nat.zero_add, Nat.zero_add] at total
    exact Or.inr ⟨later, absent, total⟩

/-- A list that returns although its key is read back was condemned. -/
private theorem Repaired.condemned_of_absent (announced : (federation.lists target).Announced)
    (readsBack : (federation.lists target).own.ReadsBack)
    (absent :
      ({ federation.lists target with store } : MemberList).members.contains
        (federation.lists target).own = false) :
    Condemned federation.lists (federation.lists target).own := by
  obtain ⟨put, held, map, key⟩ := announced
  have heldAfter := repaired.absorbs.log_subset membershipUri put held
  have missing :
      (({ federation.lists target with store } : MemberList).store.entries membershipUri).get?
        put.key = none := by
    rw [Option.eq_none_iff_forall_ne_some]
    intro value found
    rw [key] at found
    rw [MemberList.contains_members_of_entry found readsBack] at absent
    cases absent
  obtain ⟨delete, deleted, sameKey, deletes⟩ :=
    Document.exists_delete_of_get?_entriesOf heldAfter map missing
  refine repaired.condemned_of_import ⟨target, delete, ?_, sameKey.trans key, deletes⟩
  rwa [Function.update_self]

section Returns

variable [Fintype ι] (ascribed : AllAscribed founders federation) (apart : HostsApart founders)

include ascribed apart

/-- A list that keeps its endpoint may not return more often than before. -/
private theorem Repaired.mayReturn_le {member : ι}
    (home : list.own.sameHost (federation.lists target).own = true)
    (sameOwn :
      (Function.update federation.lists target list member).own =
        (federation.lists member).own) :
    mayReturn (Function.update federation.lists target list) member ≤
      mayReturn federation.lists member := by
  unfold mayReturn
  rw [sameOwn]
  split
  · split
    · rename_i condemned
      rw [if_pos]
      rcases repaired.condemned condemned with before | supersedes
      · exact before
      · exfalso
        have sameMember : member = target := by
          apply apart
          have targetHome := Endpoint.sameHost_trans home (ascribed target).home
          have memberHome := (ascribed member).home
          have between := Endpoint.sameHost_symm (Endpoint.supersedes_iff.mp supersedes).1
          exact
            Endpoint.sameHost_trans (Endpoint.sameHost_symm memberHome)
              (Endpoint.sameHost_trans between targetHome)
        subst sameMember
        rw [Function.update_self] at sameOwn
        exact Endpoint.ne_of_supersedes supersedes sameOwn
    · exact Nat.zero_le _
  · exact Nat.le_refl _

/-- A list that has returned may return less often than before. -/
private theorem Repaired.mayReturn_lt (coherent : Coherent founders federation)
    (announced : (federation.lists target).Announced)
    (later : list.own.supersedes (federation.lists target).own = true)
    (absent :
      ({ federation.lists target with store } : MemberList).members.contains
        (federation.lists target).own = false) :
    mayReturn (Function.update federation.lists target list) target <
      mayReturn federation.lists target := by
  obtain ⟨home, rises⟩ := Endpoint.supersedes_iff.mp later
  unfold mayReturn
  rw [Function.update_self]
  by_cases readsBack : (federation.lists target).own.ReadsBack
  · have spared : ¬ Condemned (Function.update federation.lists target list) list.own := by
      intro condemned
      rcases repaired.condemned condemned with before | supersedes
      · exact ascribed.not_condemned coherent apart later before
      · exact Endpoint.ne_of_supersedes supersedes rfl
    rw [if_pos (readsBack.of_sameHost home), if_neg spared, if_pos readsBack,
      if_pos (repaired.condemned_of_absent announced readsBack absent)]
    exact Nat.zero_lt_one
  · have unread : ¬ list.own.ReadsBack :=
      fun read => readsBack (read.of_sameHost (Endpoint.sameHost_symm home))
    rw [if_neg unread, if_neg readsBack]
    rw [UInt64.lt_iff_toNat_lt] at rises
    have bound := list.own.incarnation.toNat_lt_size
    omega

end Returns

end Imports

/-! ## Runs -/

section Runs

variable [Fintype ι]

private theorem grow_congr {before next : ι → MemberList}
    (samePayroll : payroll next = payroll before) :
    grow next = grow before := by
  funext weight
  rw [grow, samePayroll, grow]

private theorem monotone_grow (lists : ι → MemberList) : Monotone (grow lists) := by
  intro less more below
  unfold grow
  have := Nat.mul_le_mul_left (Fintype.card ι + 2) below
  omega

private theorem le_grow (lists : ι → MemberList) (weight : Nat) : weight ≤ grow lists weight := by
  have enlarged : weight ≤ (Fintype.card ι + 2) * weight :=
    Nat.le_mul_of_pos_left weight (by omega)
  unfold grow
  omega

/-- The weight after more returns is no less. -/
theorem monotone_iterate_grow (lists : ι → MemberList) (weight : Nat) :
    Monotone fun returns => (grow lists)^[returns] weight := by
  intro fewer more below
  exact Function.monotone_iterate_of_id_le (le_grow lists) below weight

/-- Every delta that was produced in between is paid for by an operation, and
the weight has grown by returns alone. -/
structure Subsides (before after : Federation ι) : Prop where
  payroll_eq : payroll after.lists = payroll before.lists
  produced_le :
    after.produced + ∑ member, (before.lists member).written ≤
      before.produced + ∑ member, (after.lists member).written
  returns_le : mayReturns after.lists ≤ mayReturns before.lists
  weight_le :
    weight after.lists ≤
      (grow before.lists)^[mayReturns before.lists - mayReturns after.lists]
        (weight before.lists)

namespace Subsides

theorem trans {first second third : Federation ι} (left : Subsides first second)
    (right : Subsides second third) :
    Subsides first third where
  payroll_eq := right.payroll_eq.trans left.payroll_eq
  produced_le := by
    have := left.produced_le
    have := right.produced_le
    omega
  returns_le := right.returns_le.trans left.returns_le
  weight_le := by
    have sameGrowth := grow_congr left.payroll_eq
    have rightWeight := right.weight_le
    rw [sameGrowth] at rightWeight
    have fewer := left.returns_le
    have fewest := right.returns_le
    have split :
        mayReturns first.lists - mayReturns third.lists =
          (mayReturns second.lists - mayReturns third.lists) +
            (mayReturns first.lists - mayReturns second.lists) := by
      omega
    rw [split, Function.iterate_add_apply]
    exact rightWeight.trans ((monotone_grow first.lists).iterate _ left.weight_le)

/-- Where the weight has not grown there need be no return. -/
private theorem of_weight_le {before next : Federation ι}
    (samePayroll : payroll next.lists = payroll before.lists)
    (produced_le :
      next.produced + ∑ member, (before.lists member).written ≤
        before.produced + ∑ member, (next.lists member).written)
    (returns_le : mayReturns next.lists ≤ mayReturns before.lists)
    (weight_le : weight next.lists ≤ weight before.lists) :
    Subsides before next where
  payroll_eq := samePayroll
  produced_le := produced_le
  returns_le := returns_le
  weight_le := weight_le.trans (monotone_iterate_grow before.lists _ (Nat.zero_le _))

/-- What was produced is no more than the weight has come to. -/
private theorem produced_le_echoBound {before next : Federation ι}
    (subsides : Subsides before next) :
    next.produced ≤ before.produced + echoBound before.lists := by
  have written := sum_written_le_weight next.lists
  have heavy := subsides.weight_le
  have most :=
    monotone_iterate_grow before.lists (weight before.lists)
      (Nat.sub_le (mayReturns before.lists) (mayReturns next.lists))
  have bound : weight next.lists ≤ echoBound before.lists := heavy.trans most
  have := subsides.produced_le
  omega

/-- Outboxes weigh nothing. -/
theorem of_silent {before next : Federation ι}
    (same :
      (fun member => { next.lists member with outbox := [] }) =
        fun member => { before.lists member with outbox := [] })
    (produced_eq : next.produced = before.produced) :
    Subsides before next := by
  have kept :
      ∀ measure : (ι → MemberList) → Nat,
        (∀ lists, measure (fun member => { lists member with outbox := [] }) = measure lists) →
          measure next.lists = measure before.lists := by
    intro measure silent
    rw [← silent next.lists, same, silent]
  have sameReturns := kept mayReturns fun _ => rfl
  have sameWeight := kept weight fun _ => rfl
  have sameWritten := kept (fun lists => ∑ member, (lists member).written) fun _ => rfl
  exact
    of_weight_le (kept payroll fun _ => rfl)
      (Nat.le_of_eq (congrArg₂ (· + ·) produced_eq sameWritten.symm))
      (Nat.le_of_eq sameReturns) (Nat.le_of_eq sameWeight)

end Subsides

variable [DecidableEq ι]

section Imports

variable {target : ι} {store : Store} {list : MemberList}
  (repaired : Repaired founders federation target store list)
  (sameLists : after.lists = Function.update federation.lists target list)

include repaired sameLists

/-- A repair puts no more deltas into an outbox than it writes operations. -/
theorem Repaired.produced_le (sameSent : after.sent = federation.sent) :
    after.produced + ∑ member, (federation.lists member).written ≤
      federation.produced + ∑ member, (after.lists member).written := by
  have ordered := (repaired.coherent.sound target).ordered
  rw [lists_put_self] at ordered
  have repairs := repaired.evolves.outbox_le ordered
  rw [MemberList.written_absorb repaired.absorbs] at repairs
  have each :
      ∀ member ∈ Finset.univ,
        (after.lists member).outbox.length + (federation.lists member).written ≤
          (federation.lists member).outbox.length + (after.lists member).written := by
    intro member _
    rw [sameLists]
    by_cases here : member = target
    · subst here
      rw [Function.update_self]
      exact repairs
    · rw [Function.update_of_ne here]
  have total := Finset.sum_le_sum each
  rw [Finset.sum_add_distrib, Finset.sum_add_distrib] at total
  unfold produced
  rw [sameSent]
  omega

/-- A list that imports and repairs itself lets the exchange subside. -/
theorem Repaired.subsides (distinct : DistinctReplicas founders)
    (apart : HostsApart founders) (coherent : Coherent founders federation)
    (ascribed : AllAscribed founders federation)
    (announced : (federation.lists target).Announced)
    (sameSent : after.sent = federation.sent) :
    Subsides federation after := by
  have produced_le := repaired.produced_le sameLists sameSent
  have heard :
      ∀ member, (after.lists member).erasures ≤ dismissed after.lists := by
    rw [sameLists]
    exact (repaired.coherent_after distinct).erasures_le
  have kept :
      ∀ {member : ι}, list.own.sameHost (federation.lists target).own = true →
        (after.lists member).own = (federation.lists member).own →
          mayReturn after.lists member ≤ mayReturn federation.lists member := by
    intro member home sameOwn
    rw [sameLists] at sameOwn ⊢
    exact repaired.mayReturn_le ascribed apart home sameOwn
  have others :
      ∀ member, member ≠ target → (after.lists member).own = (federation.lists member).own := by
    intro member elsewhere
    rw [sameLists, Function.update_of_ne elsewhere]
  rcases repaired.spends ascribed apart with ⟨sameOwn, spent⟩ | ⟨later, absent, spent⟩
  · have home : list.own.sameHost (federation.lists target).own = true := by
      rw [sameOwn]
      exact Endpoint.sameHost_iff.mpr ⟨rfl, rfl⟩
    refine Subsides.of_weight_le ?_ produced_le ?_ ?_
    · rw [sameLists, payroll_update spent.hosted_eq]
    · apply Finset.sum_le_sum
      intro member _
      apply kept home
      by_cases here : member = target
      · rw [sameLists, here, Function.update_self, sameOwn]
      · exact others member here
    · rw [sameLists] at heard ⊢
      simpa using weight_update_le spent heard
  · have home := (Endpoint.supersedes_iff.mp later).1
    have returned : mayReturn after.lists target < mayReturn federation.lists target := by
      rw [sameLists]
      exact repaired.mayReturn_lt ascribed apart coherent announced later absent
    have fewer : mayReturns after.lists < mayReturns federation.lists := by
      apply Finset.sum_lt_sum
      · intro member _
        by_cases here : member = target
        · rw [here]
          exact Nat.le_of_lt returned
        · exact kept home (others member here)
      · exact ⟨target, Finset.mem_univ target, returned⟩
    have grown : weight after.lists ≤ grow federation.lists (weight federation.lists) := by
      have hosted : (federation.lists target).hosted.size ≤ payroll federation.lists :=
        Finset.single_le_sum (f := fun member => (federation.lists member).hosted.size)
          (fun _ _ => Nat.zero_le _) (Finset.mem_univ target)
      have placed :=
        Nat.mul_le_mul_left (Fintype.card ι + 1)
          (placements_le_weight federation.lists target)
      rw [sameLists] at heard ⊢
      have bounded := weight_update_le spent heard
      unfold grow
      rw [Nat.succ_mul]
      omega
    exact
      { payroll_eq := by rw [sameLists, payroll_update spent.hosted_eq]
        produced_le
        returns_le := Nat.le_of_lt fewer
        weight_le :=
          grown.trans
            (monotone_iterate_grow federation.lists (weight federation.lists)
              (Nat.sub_pos_of_lt fewer)) }

end Imports

/-- What was drained is still counted. -/
private theorem subsides_drain (federation : Federation ι) (member : ι) :
    Subsides federation (federation.drain member) := by
  apply Subsides.of_silent
  · funext other
    simp only [drain, MemberList.takeOutbox, lists_put]
    split
    · rename_i here
      rw [here]
    · rfl
  · have drained :
        ∀ other ∈ Finset.univ,
          ((federation.drain member).lists other).outbox.length +
              (if other = member then (federation.lists member).outbox.length else 0) =
            (federation.lists other).outbox.length := by
      intro other _
      simp only [drain, MemberList.takeOutbox, lists_put]
      split
      · rename_i here
        rw [here]
        exact Nat.zero_add _
      · rfl
    have total := Finset.sum_congr rfl drained
    rw [Finset.sum_add_distrib, Finset.sum_ite_eq', if_pos (Finset.mem_univ member)] at total
    have passed :
        (federation.drain member).sent.length =
          federation.sent.length + (federation.lists member).outbox.length := by
      simp [drain, MemberList.takeOutbox]
    unfold produced
    omega

theorem Relay.subsides (relay : Relay federation after) (distinct : DistinctReplicas founders)
    (apart : HostsApart founders) (reachable : Reachable founders federation) :
    Subsides federation after := by
  have coherent := coherent_of_reachable distinct reachable
  have ascribed := ascribed_of_reachable distinct reachable
  have announced := announced_of_reachable distinct reachable
  have unchanged :
      after.lists = federation.lists → after.sent = federation.sent →
        Subsides federation after := by
    intro sameLists sameSent
    exact Subsides.of_silent (by rw [sameLists]) (by rw [produced, sameLists, sameSent, produced])
  cases relay with
  | drain member => exact subsides_drain federation member
  | offer member digest =>
      apply unchanged
      · unfold Federation.offer
        split <;> rfl
      · unfold Federation.offer
        split <;> rfl
  | @deliver source update target offered passed =>
      have sameSent := sent_deliver federation target offered update
      rcases coherent.deliver_cases distinct passed target offered with
        ⟨sameLists, _⟩ | ⟨store, list, repaired, sameLists, _⟩
      · exact unchanged sameLists sameSent
      · exact
          repaired.subsides sameLists distinct apart coherent ascribed (announced target)
            sameSent
  | @merge batch target offered held =>
      have sameSent := sent_merge federation target offered batch
      rcases coherent.merge_cases distinct held target offered with
        ⟨sameLists, _⟩ | ⟨store, list, repaired, sameLists, _⟩
      · exact unchanged sameLists sameSent
      · exact
          repaired.subsides sameLists distinct apart coherent ascribed (announced target)
            sameSent

/-- Once no list hosts, evicts or stops any more, the exchange of what was
written produces no more deltas than the lists allow for by then, in whatever
order and however often deltas arrive. -/
theorem exchange_dies_out (distinct : DistinctReplicas founders) (apart : HostsApart founders)
    (reachable : Reachable founders federation)
    (relayed : Relation.ReflTransGen Relay federation after) :
    after.produced ≤ federation.produced + echoBound federation.lists := by
  have subsides : Subsides federation after := by
    induction relayed with
    | refl => exact Subsides.of_silent rfl rfl
    | tail earlier last inductionHypothesis =>
        exact
          inductionHypothesis.trans
            (last.subsides distinct apart (reachable.trans (leads_of_relay earlier)))
  exact subsides.produced_le_echoBound

end Runs

/-- The eviction of a list that hosts two agents leaves room for 48 deltas. -/
example : echoBound evicted.lists = 48 := by decide +kernel

/-- The first list hears of its eviction and returns. -/
theorem exchange_dies_out_returned :
    DistinctReplicas pair ∧ HostsApart pair ∧ Reachable pair evicted ∧
      Relation.ReflTransGen Relay evicted returned ∧
        returned.produced ≤ evicted.produced + echoBound evicted.lists := by
  have relayed : Relation.ReflTransGen Relay evicted returned :=
    Relation.ReflTransGen.head (Relay.drain true) (relay_deliverAll _ _ _)
  exact
    ⟨distinctReplicas_pair, distinctHosts_pair.apart, reachable_evicted, relayed,
      exchange_dies_out distinctReplicas_pair distinctHosts_pair.apart reachable_evicted relayed⟩

end Roster.Federation
