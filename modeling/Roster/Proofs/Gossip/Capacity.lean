import Roster.Proofs.Gossip.Queue

/-!
# What an overfull queue drops

The queue keeps its items in the order in which they were queued, until it is
overfull.  Then it is put in the order of transmits and the last item goes, so
nothing that stays was sent more often than what goes.  A new item was never
sent.  It stays if there is room for it or if anything else was sent at all,
and otherwise it is the one that goes.
-/

namespace Roster

namespace GossipQueue

variable {queue : GossipQueue} {item other : Pending} {items : List Pending}
  {peer : SocketAddress} {most : Nat}

/-! ## The order of transmits -/

theorem perm_leastSentFirst (items : List Pending) : (leastSentFirst items).Perm items :=
  List.mergeSort_perm items _

theorem pairwise_leastSentFirst (items : List Pending) :
    (leastSentFirst items).Pairwise fun left right => left.transmits ≤ right.transmits := by
  have ordered :
      (leastSentFirst items).Pairwise fun left right =>
        decide (left.transmits ≤ right.transmits) = true := by
    apply List.pairwise_mergeSort
    · intro left middle right first second
      rw [decide_eq_true_eq] at first second ⊢
      omega
    · intro left right
      rw [Bool.or_eq_true, decide_eq_true_eq, decide_eq_true_eq]
      omega
  exact ordered.imp fun least => of_decide_eq_true least

private theorem leastSentFirst_of_unsent (unsent : ∀ item ∈ items, item.transmits = 0) :
    leastSentFirst items = items := by
  apply List.mergeSort_of_pairwise
  apply List.pairwise_of_forall_mem_list
  intro left leftMember right _
  rw [decide_eq_true_eq, unsent left leftMember]
  exact Nat.zero_le right.transmits

/-! ## Pushing -/

/-- There is room for one item that was never sent. -/
def HasRoom (queue : GossipQueue) : Prop :=
  queue.size < capacity ∨ ∃ item ∈ queue.pending, 0 < item.transmits

theorem pending_push (queue : GossipQueue) (item : Pending) :
    (queue.push item).pending =
      if capacity < queue.size + 1 then
        (leastSentFirst (queue.pending ++ [item])).take capacity
      else
        queue.pending ++ [item] := by
  have grown : (queue.pending ++ [item]).length = queue.size + 1 := List.length_append
  unfold push
  simp only [grown]
  split
  · rfl
  · rfl

theorem size_push_le (queue : GossipQueue) (item : Pending) :
    (queue.push item).size ≤ capacity := by
  rw [size, pending_push]
  split
  · exact List.length_take_le capacity _
  · rename_i fits
    have grown : (queue.pending ++ [item]).length = queue.size + 1 := List.length_append
    omega

/-- A full queue that takes in one item loses one, which stood last in the order of
transmits. -/
private theorem exists_dropped (full : queue.size = capacity) (item : Pending) :
    ∃ dropped,
      leastSentFirst (queue.pending ++ [item]) = (queue.push item).pending ++ [dropped] := by
  have count : (leastSentFirst (queue.pending ++ [item])).length = capacity + 1 := by
    rw [(perm_leastSentFirst _).length_eq, List.length_append, List.length_singleton, ← full,
      size]
  have single : ((leastSentFirst (queue.pending ++ [item])).drop capacity).length = 1 := by
    rw [List.length_drop, count, Nat.add_sub_cancel_left]
  obtain ⟨dropped, last⟩ := List.length_eq_one_iff.mp single
  refine ⟨dropped, ?_⟩
  rw [pending_push, if_pos (by omega), ← last, List.take_append_drop]

theorem mem_push_of_hasRoom (bounded : queue.size ≤ capacity) (room : queue.HasRoom)
    (unsent : item.transmits = 0) : item ∈ (queue.push item).pending := by
  have offered : item ∈ queue.pending ++ [item] :=
    List.mem_append_right queue.pending (List.mem_singleton_self item)
  rcases Nat.lt_or_eq_of_le bounded with fits | full
  · rw [pending_push, if_neg (by omega)]
    exact offered
  rcases room with room | ⟨sent, queued, transmitted⟩
  · omega
  obtain ⟨dropped, cut⟩ := exists_dropped full item
  have ordered := pairwise_leastSentFirst (queue.pending ++ [item])
  have among : ∀ other ∈ queue.pending ++ [item],
      other ∈ (queue.push item).pending ∨ other = dropped := by
    intro other member
    rw [← (perm_leastSentFirst _).mem_iff, cut] at member
    rcases List.mem_append.mp member with stays | goes
    · exact Or.inl stays
    · exact Or.inr (List.mem_singleton.mp goes)
  rw [cut] at ordered
  have most : ∀ kept ∈ (queue.push item).pending, kept.transmits ≤ dropped.transmits :=
    fun kept stays => (List.pairwise_append.mp ordered).2.2 kept stays dropped (by simp)
  rcases among item offered with stays | rfl
  · exact stays
  -- The item itself would go, although the one that was sent stands behind it.
  rcases among sent (List.mem_append_left [item] queued) with stays | rfl
  · have least := most sent stays
    omega
  · omega

private theorem unsent_of_not_hasRoom (crowded : ¬ queue.HasRoom) (queued : other ∈ queue.pending) :
    other.transmits = 0 := by
  by_contra sent
  exact crowded (Or.inr ⟨other, queued, Nat.pos_of_ne_zero sent⟩)

/-- As long as nothing was sent, what is queued first stays. -/
theorem pending_push_of_unsent (unsentAll : ∀ other ∈ queue.pending, other.transmits = 0)
    (unsent : item.transmits = 0) :
    (queue.push item).pending = (queue.pending ++ [item]).take capacity := by
  have ordered : leastSentFirst (queue.pending ++ [item]) = queue.pending ++ [item] := by
    apply leastSentFirst_of_unsent
    intro other among
    rcases List.mem_append.mp among with queued | new
    · exact unsentAll other queued
    · rw [List.mem_singleton.mp new]
      exact unsent
  rw [pending_push, ordered]
  split
  · rfl
  · rename_i fits
    have grown : (queue.pending ++ [item]).length = queue.size + 1 := List.length_append
    rw [List.take_of_length_le]
    omega

theorem pending_push_of_not_hasRoom (crowded : ¬ queue.HasRoom)
    (bounded : queue.size ≤ capacity) (unsent : item.transmits = 0) :
    (queue.push item).pending = queue.pending := by
  have full : queue.pending.length = capacity := by
    apply Nat.le_antisymm bounded
    by_contra room
    exact crowded (Or.inl (Nat.lt_of_not_le room))
  rw [pending_push_of_unsent (fun other => unsent_of_not_hasRoom crowded) unsent, ← full,
    List.take_left]

/-! ## Selecting -/

theorem exists_of_mem_select {gossip : Gossip} (selected : gossip ∈ queue.select peer most) :
    ∃ item ∈ queue.pending, peer ∉ item.known ∧ item.gossip = gossip := by
  obtain ⟨item, taken, rfl⟩ := List.mem_map.mp selected
  have lacking := (perm_leastSentFirst _).mem_iff.mp (List.mem_of_mem_take taken)
  obtain ⟨queued, lacks⟩ := List.mem_filter.mp lacking
  exact ⟨item, queued, of_decide_eq_true lacks, rfl⟩

/-- All items that an address lacks are selected if there may be enough. -/
theorem perm_select (enough : queue.size ≤ most) (peer : SocketAddress) :
    (queue.select peer most).Perm
      ((queue.pending.filter fun item => peer ∉ item.known).map (·.gossip)) := by
  apply List.Perm.map
  rw [List.take_of_length_le]
  · exact perm_leastSentFirst _
  · rw [(perm_leastSentFirst _).length_eq]
    exact Nat.le_trans (List.length_filter_le _ _) enough

theorem mem_select (queued : item ∈ queue.pending) (lacks : peer ∉ item.known)
    (enough : queue.size ≤ most) : item.gossip ∈ queue.select peer most := by
  rw [(perm_select enough peer).mem_iff]
  exact List.mem_map_of_mem (List.mem_filter.mpr ⟨queued, decide_eq_true lacks⟩)

theorem select_ne_nil (queued : item ∈ queue.pending) (lacks : peer ∉ item.known)
    (allowed : 0 < most) : queue.select peer most ≠ [] := by
  have lacking : item ∈ queue.pending.filter fun item => peer ∉ item.known :=
    List.mem_filter.mpr ⟨queued, decide_eq_true lacks⟩
  have ordered := (perm_leastSentFirst _).mem_iff.mpr lacking
  rw [select, Ne, List.map_eq_nil_iff, List.take_eq_nil_iff]
  rintro (none | empty)
  · omega
  · exact List.ne_nil_of_mem ordered empty

end GossipQueue

end Roster
