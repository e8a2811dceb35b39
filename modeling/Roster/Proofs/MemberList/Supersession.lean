import Roster.Proofs.MemberList.Removal

/-!
# Earlier incarnations of the own host

A host that was restarted may still be a member under the incarnation it had before.
After an import the list withdraws all members that its own endpoint supersedes, with
what they host.  If it was evicted itself it then returns under a later endpoint.  What
that one supersedes is not looked for again, so a member of the own host from between
the two incarnations stays until the next merge.

What others say of the own host has to name its endpoints by their keys: a text that is
read as an endpoint but is not its key cannot be withdrawn.
-/

namespace Roster

namespace Endpoint

variable {host other : Endpoint} {text : String}

/-- Where the text is read as an endpoint of the host, it is the key of that endpoint. -/
def Spells (host : Endpoint) (text : String) : Prop :=
  ∀ endpoint, ofKey? text = some endpoint → endpoint.sameHost host = true →
    text = endpoint.key

theorem Spells.of_sameHost (spells : host.Spells text) (same : other.sameHost host = true) :
    other.Spells text :=
  fun endpoint read home => spells endpoint read (sameHost_trans home same)

/-- Such is every key that is read back. -/
theorem ReadsBack.spells (readsBack : other.ReadsBack) (host : Endpoint) :
    host.Spells other.key := by
  intro endpoint read _
  have found : some other = some endpoint := readsBack.symm.trans read
  rw [Option.some.inj found]

private theorem spells_key (same : other.sameHost host = true) : host.Spells other.key := by
  intro endpoint read home
  rw [eq_of_ofKey?_key read (sameHost_trans same (sameHost_symm home))]

end Endpoint

/-- If the operation puts a member of the host, it names it by its key. -/
def Operation.Spelled (host : Endpoint) (operation : Operation) : Prop :=
  operation.map = membershipUri → operation.value.isSome = true → host.Spells operation.key

theorem Operation.Spelled.of_sameHost {host other : Endpoint} {operation : Operation}
    (spelled : operation.Spelled host) (same : other.sameHost host = true) :
    operation.Spelled other :=
  fun sameMap put => (spelled sameMap put).of_sameHost same

namespace MemberList

variable {list after next : MemberList} {offered : UInt64} {made : Outcome}
  {outcome : Except Fault Outcome} {endpoint older own : Endpoint} {uri key value : String}

/-! ## What others say -/

/-- A delta or a batch of another list. -/
inductive News where
  | single (update : Update)
  | several (batch : Batch)

def News.deltas : News → List (String × Bytes)
  | .single update => [(update.uri, update.delta)]
  | .several batch => (batch.filter fun uri _ => isKnownUri uri).entries

/-- All that is said about members of the host names them by their keys. -/
def News.Spelled (host : Endpoint) (news : News) : Prop :=
  ∀ operation, Store.Says news.deltas membershipUri operation → operation.Spelled host

/-- The list with the news in its store, before any repair. -/
def imported (list : MemberList) (news : News) : MemberList :=
  { list with store := (Store.receiveAll news.deltas list.store).2 }

def learn (list : MemberList) (offered : UInt64) :
    News → Except Overflow (Except Fault Outcome × MemberList)
  | .single update => list.receive offered update
  | .several batch => list.merge offered batch

/-- The ways in which news are merged: they are refused outright, a delta cannot be read,
or the list is repaired after the import. -/
inductive Learns (list : MemberList) (offered : UInt64) (news : News) :
    Except Fault Outcome → MemberList → Prop
  | refused (fault : Fault) : Learns list offered news (.error fault) list
  | unreadable (fault : Fault) : Learns list offered news (.error fault) (list.imported news)
  | repaired {made : Outcome} {after : MemberList} {changed : Bool} :
      (list.imported news).repair offered changed = .ok (made, after) →
        Learns list offered news (.ok made) after

private theorem imported_single (list : MemberList) (update : Update) :
    list.imported (.single update) = { list with store := (list.store.receive update).2 } := by
  unfold imported News.deltas Store.receiveAll
  split <;> simp_all [Store.receiveAll]

private theorem learns_of_afterImport {news : News} {changed : Except Fault Bool}
    (learnt : (list.imported news).afterImport offered changed = .ok (outcome, after)) :
    Learns list offered news outcome after := by
  cases changed with
  | error fault =>
      cases learnt
      exact .unreadable fault
  | ok changed =>
      obtain ⟨⟨made, next⟩, repaired, same⟩ := Attempt.bind_eq_ok learnt
      cases same
      exact .repaired repaired

theorem learns_of_eq_ok {news : News} (learnt : list.learn offered news = .ok (outcome, after)) :
    Learns list offered news outcome after := by
  cases news with
  | single update =>
      rw [learn, receive] at learnt
      split at learnt
      · cases learnt
        exact .refused _
      · split at learnt
        · cases learnt
          exact .refused _
        · have imports :
              (list.imported (.single update)).afterImport offered
                  ((list.store.receive update).1.mapError .store) =
                .ok (outcome, after) := by
            rw [imported_single]
            exact learnt
          exact learns_of_afterImport imports
  | several batch =>
      rw [learn, merge] at learnt
      split at learnt
      · cases learnt
        exact .refused _
      · have imports :
            (list.imported (.several batch)).afterImport offered
                (((list.store.merge (batch.filter fun uri _ => isKnownUri uri)).1.map
                  fun uris => !uris.isEmpty).mapError .store) =
              .ok (outcome, after) :=
          learnt
        exact learns_of_afterImport imports

/-! ## Keys of the own host -/

/-- Members of the own host go by their keys, and so will they once all operations that
wait have taken effect. -/
def Spelled (list : MemberList) : Prop :=
  ∀ operation, list.store.Holds membershipUri operation → operation.Spelled list.own

namespace Spelled

theorem spells (spelled : list.Spelled)
    (found : (list.store.entries membershipUri).get? key = some value) :
    list.own.Spells key := by
  rw [entries_eq] at found
  obtain ⟨operation, held, sameMap, rfl, put⟩ := Document.exists_put_of_get?_entriesOf found
  exact spelled operation (Or.inl held) sameMap (by rw [put]; rfl)

theorem write (spelled : list.Spelled) {edits : List Edit}
    (puts : uri = membershipUri → ∀ edit ∈ edits, edit.value.isSome = true →
      list.own.Spells edit.key) :
    (list.write uri edits).2.Spelled := by
  intro operation held sameMap put
  rw [own_write]
  rcases held with applied | waiting
  · by_cases here : uri = membershipUri
    · subst here
      obtain ⟨more, appended, _, stems⟩ := exists_log_write list membershipUri edits
      rw [← log, appended] at applied
      rcases List.mem_append.mp applied with before | added
      · exact spelled operation (Or.inl before) sameMap put
      · obtain ⟨edit, member, _, sameKey, sameValue⟩ := (stems operation added).exists_edit
        rw [sameKey]
        rw [sameValue] at put
        exact puts rfl edit member put
    · rw [← log, log_write_of_ne (Ne.symm here)] at applied
      exact spelled operation (Or.inl applied) sameMap put
  · rw [waiting_write] at waiting
    exact spelled operation (Or.inr waiting) sameMap put

theorem rejoin (spelled : list.Spelled) (same : own.sameHost list.own = true) :
    (announce { list with own }).Spelled := by
  have renamed : ({ list with own } : MemberList).Spelled :=
    fun operation held => (spelled operation held).of_sameHost same
  refine renamed.write fun _ edit member _ => ?_
  rw [List.mem_singleton.mp member]
  exact Endpoint.spells_key (Endpoint.sameHost_iff.mpr ⟨rfl, rfl⟩)

/-- Whatever a list does of its own accord keeps to the keys. -/
theorem evolve {start : MemberList} {known : List Endpoint} (spelled : start.Spelled)
    (evolved : Evolves start [] list known) : list.Spelled := by
  induction evolved with
  | refl => exact spelled
  | erase _ _ deletes spelledBefore =>
      refine spelledBefore.write fun _ edit member put => ?_
      rw [deletes edit member] at put
      cases put
  | place _ _ spelledBefore =>
      exact spelledBefore.write fun membership => absurd membership (by decide)
  | rejoin _ later spelledBefore =>
      exact spelledBefore.rejoin (Endpoint.supersedes_iff.mp later).1
  | employ _ _ spelledBefore => exact spelledBefore
  | leave _ spelledBefore => exact spelledBefore

theorem imported (spelled : list.Spelled) {news : News} (told : news.Spelled list.own) :
    (list.imported news).Spelled := by
  intro operation held
  rcases Store.holds_of_receiveAll held with before | said
  · exact spelled operation before
  · exact told operation said

theorem learn (spelled : list.Spelled) {news : News} (told : news.Spelled list.own)
    (learnt : list.learn offered news = .ok (outcome, after)) : after.Spelled := by
  cases learns_of_eq_ok learnt with
  | refused => exact spelled
  | unreadable => exact spelled.imported told
  | repaired repaired => exact (spelled.imported told).evolve (Evolves.refl.repair repaired)

end Spelled

/-- What can become of the list of a host, whatever it is asked and told, if its own host
is told of by keys. -/
inductive Reachable (first : Endpoint) (tags : Tags) (replica : ReplicaId) : MemberList → Prop
  | new : Reachable first tags replica (new first tags replica)
  | host {list : MemberList} (agent : String) :
      Reachable first tags replica list → Reachable first tags replica (list.host agent).2
  | stopHosting {list : MemberList} (agent : String) :
      Reachable first tags replica list → Reachable first tags replica (list.stopHosting agent).2
  | remove {list : MemberList} (endpoint : Endpoint) :
      Reachable first tags replica list → Reachable first tags replica (list.remove endpoint).2
  | takeOutbox {list : MemberList} :
      Reachable first tags replica list → Reachable first tags replica list.takeOutbox.2
  | stop {list : MemberList} :
      Reachable first tags replica list → Reachable first tags replica list.stop
  | learn {list after : MemberList} {offered : UInt64} {news : News}
      {outcome : Except Fault Outcome} :
      Reachable first tags replica list → news.Spelled first →
        list.learn offered news = .ok (outcome, after) → Reachable first tags replica after

theorem spelled_new (first : Endpoint) (tags : Tags) (replica : ReplicaId) :
    (new first tags replica).Spelled := by
  have blank : ({ own := first, tags, store := { replica } } : MemberList).Spelled := by
    rintro operation (applied | waiting)
    · cases applied
    · cases waiting
  exact blank.rejoin (Endpoint.sameHost_iff.mpr ⟨rfl, rfl⟩)

private theorem sameHost_of_learn {news : News}
    (learnt : list.learn offered news = .ok (outcome, after)) :
    after.own.sameHost list.own = true := by
  cases learns_of_eq_ok learnt with
  | refused | unreadable => exact Endpoint.sameHost_iff.mpr ⟨rfl, rfl⟩
  | repaired repaired => exact (repair_reports repaired).sameHost

theorem Reachable.spelled {first : Endpoint} {tags : Tags} {replica : ReplicaId}
    (reachable : Reachable first tags replica list) :
    list.Spelled ∧ list.own.sameHost first = true := by
  induction reachable with
  | new =>
      refine ⟨spelled_new first tags replica, ?_⟩
      rw [own_new]
      exact Endpoint.sameHost_iff.mpr ⟨rfl, rfl⟩
  | host agent _ before =>
      rw [own_host]
      exact ⟨before.1.evolve (Evolves.refl.host agent), before.2⟩
  | stopHosting agent _ before =>
      rw [own_stopHosting]
      exact ⟨before.1.evolve (Evolves.refl.stopHosting agent), before.2⟩
  | remove endpoint _ before =>
      rw [own_remove]
      exact ⟨before.1.evolve (Evolves.refl.remove endpoint), before.2⟩
  | takeOutbox _ before => exact before
  | stop _ before =>
      rw [own_stop]
      exact ⟨before.1.evolve Evolves.refl.stop, before.2⟩
  | learn _ told learnt before =>
      obtain ⟨spelled, home⟩ := before
      have toldHere := fun operation said => (told operation said).of_sameHost home
      exact ⟨spelled.learn toldHere learnt, Endpoint.sameHost_trans (sameHost_of_learn learnt) home⟩

/-! ## Members that the own endpoint supersedes -/

private theorem get?_hosting_withdrawOlder :
    ∀ {older : List Endpoint} {list : MemberList},
      ((list.withdrawOlder older).store.entries hostingUri).get? key = some value ↔
        (list.store.entries hostingUri).get? key = some value ∧
          ∀ endpoint ∈ older, value ≠ endpoint.key
  | [], list => by simp [withdrawOlder]
  | endpoint :: rest, list => by
      rw [withdrawOlder, get?_hosting_withdrawOlder, get?_hosting_withdraw_eq,
        Option.filter_eq_some_iff, List.forall_mem_cons, and_assoc, decide_eq_true_iff]

/-- The members that are withdrawn are those that the own endpoint supersedes. -/
private theorem mem_older_iff :
    endpoint ∈ list.members.keys.filter list.own.supersedes ↔
      list.members.contains endpoint = true ∧ list.own.supersedes endpoint = true := by
  rw [List.mem_filter, SortedMap.mem_keys_iff]

private theorem Spelled.contains_members_cleaned (spelled : list.Spelled)
    (home : endpoint.sameHost list.own = true) :
    list.cleaned.members.contains endpoint = true ↔
      list.members.contains endpoint = true ∧ list.own.supersedes endpoint = false := by
  constructor
  · intro member
    obtain ⟨key, value, found, read⟩ := exists_entry_of_contains_members member
    obtain ⟨before, left⟩ := get?_membership_withdrawOlder.mp found
    have memberBefore := contains_members_of_entry before read
    refine ⟨memberBefore, ?_⟩
    rw [← Bool.not_eq_true]
    intro superseded
    exact left endpoint (mem_older_iff.mpr ⟨memberBefore, superseded⟩)
      (spelled.spells before endpoint read home)
  · rintro ⟨member, kept⟩
    obtain ⟨key, value, found, read⟩ := exists_entry_of_contains_members member
    refine contains_members_of_entry
      (get?_membership_withdrawOlder.mpr ⟨found, fun other withdrawn same => ?_⟩) read
    -- A key that is deleted is read as the member that is withdrawn.
    subst same
    obtain ⟨_, superseded⟩ := mem_older_iff.mp withdrawn
    have sameHost : other.sameHost endpoint = true :=
      Endpoint.sameHost_trans (Endpoint.sameHost_symm (Endpoint.supersedes_iff.mp superseded).1)
        (Endpoint.sameHost_symm home)
    rw [Endpoint.eq_of_ofKey?_key read sameHost, kept] at superseded
    cases superseded

private theorem get?_hosting_cleaned :
    (list.cleaned.store.entries hostingUri).get? key = some endpoint.key ↔
      (list.store.entries hostingUri).get? key = some endpoint.key ∧
        ¬ (list.members.contains endpoint = true ∧ list.own.supersedes endpoint = true) := by
  rw [cleaned, get?_hosting_withdrawOlder, ← mem_older_iff]
  refine and_congr_right fun _ => ⟨fun others member => others endpoint member rfl, ?_⟩
  intro absent other member same
  rw [Endpoint.key_injective same] at absent
  exact absent member

/-! ## Returning and restoring -/

private theorem members_restoreHosting : list.restoreHosting.members = list.members :=
  members_congr (entries_write_of_ne (by decide))

/-- To restore hosting entries concerns the own endpoint alone. -/
private theorem get?_hosting_restoreHosting (other : endpoint ≠ list.own) :
    (list.restoreHosting.store.entries hostingUri).get? key = some endpoint.key ↔
      (list.store.entries hostingUri).get? key = some endpoint.key := by
  have agree : ∀ edit ∈ list.missingPuts, edit.key = key → edit.value = some list.own.key := by
    intro edit member _
    obtain ⟨_, _, _, rfl⟩ := mem_missingPuts_iff.mp member
    rfl
  rw [restoreHosting_eq, get?_entries_write agree]
  split
  · rename_i restored
    obtain ⟨edit, member, rfl⟩ := restored
    obtain ⟨_, _, absent, rfl⟩ := mem_missingPuts_iff.mp member
    refine iff_of_false (fun same => other ?_) ?_
    · exact (Endpoint.key_injective (Option.some.inj same)).symm
    · rw [Edit.key, absent]
      simp
  · rfl

/-- To return leaves the members that were earlier incarnations as they are. -/
private theorem contains_members_of_reincarnate (returned : list.reincarnate offered = .ok next)
    (earlier : next.own.supersedes older = true) :
    next.members.contains older = true ↔ list.members.contains older = true := by
  obtain ⟨own, _, rfl⟩ := reincarnate_eq_ok returned
  simp only [announce, own_write] at earlier
  have otherKey : ∀ key, Endpoint.ofKey? key = some older → key ≠ own.key := by
    rintro key read rfl
    refine Endpoint.ne_of_supersedes earlier (Endpoint.eq_of_ofKey?_key read ?_)
    exact (Endpoint.supersedes_iff.mp earlier).1
  have kept : ∀ key, Endpoint.ofKey? key = some older →
      (((announce { list with own }).write hostingUri
            ((announce { list with own }).hostingDeletes list.own)).2.store.entries
          membershipUri).get? key =
        (list.store.entries membershipUri).get? key := by
    intro key read
    rw [entries_write_of_ne (by decide), announce, get?_entries_write_singleton]
    exact if_neg (otherKey key read)
  constructor
  · intro member
    obtain ⟨key, value, found, read⟩ := exists_entry_of_contains_members member
    rw [kept key read] at found
    exact contains_members_of_entry found read
  · intro member
    obtain ⟨key, value, found, read⟩ := exists_entry_of_contains_members member
    rw [← kept key read] at found
    exact contains_members_of_entry found read

/-- The hosting entries of the endpoint that it had are deleted, and no others. -/
private theorem get?_hosting_of_reincarnate (returned : list.reincarnate offered = .ok next)
    (other : endpoint ≠ list.own) :
    (next.store.entries hostingUri).get? key = some endpoint.key ↔
      (list.store.entries hostingUri).get? key = some endpoint.key := by
  obtain ⟨own, _, rfl⟩ := reincarnate_eq_ok returned
  have otherKey : endpoint.key ≠ list.own.key := fun same => other (Endpoint.key_injective same)
  rw [get?_write_hostingDeletes, announce, entries_write_of_ne (by decide),
    Option.filter_eq_some_iff, decide_eq_true_iff]
  exact and_iff_left otherKey

/-! ## What a repair leaves of the own host -/

/-- A repair leaves, of the earlier incarnations of the own host, those members that
supersede the endpoint the list had before, with all hosting entries of theirs. -/
theorem Spelled.repair (spelled : list.Spelled)
    (repaired : list.repair offered true = .ok (made, after))
    (earlier : after.own.supersedes older = true) :
    (after.members.contains older = true ↔
        list.members.contains older = true ∧ older.supersedes list.own = true) ∧
      (list.members.contains older = true → ∀ key,
        (after.store.entries hostingUri).get? key = some older.key ↔
          (list.store.entries hostingUri).get? key = some older.key ∧
            older.supersedes list.own = true) := by
  have home : older.sameHost list.own = true :=
    Endpoint.sameHost_trans (Endpoint.sameHost_symm (Endpoint.supersedes_iff.mp earlier).1)
      (repair_reports repaired).sameHost
  have cleanedMember := spelled.contains_members_cleaned home
  cases repairs_of_eq_ok repaired with
  | restored present =>
      rw [own_restoreHosting, own_cleaned] at earlier
      have different : older ≠ list.own := (Endpoint.ne_of_supersedes earlier).symm
      have kept := Endpoint.supersedes_eq_false_iff home different
      rw [members_restoreHosting, cleanedMember, kept]
      refine ⟨Iff.rfl, fun member key => ?_⟩
      rw [get?_hosting_restoreHosting (by rwa [own_cleaned]), get?_hosting_cleaned,
        and_iff_right member, Bool.not_eq_true, kept]
  | @returned next absent returned =>
      rw [own_restoreHosting] at earlier
      -- The list was evicted, so a member is not the endpoint that it had.
      have kept (member : list.members.contains older = true) :
          older ≠ list.own ∧ (list.own.supersedes older = false ↔
            older.supersedes list.own = true) := by
        have different : older ≠ list.own := by
          rintro rfl
          rw [absent] at member
          cases member
        exact ⟨different, Endpoint.supersedes_eq_false_iff home different⟩
      rw [members_restoreHosting, contains_members_of_reincarnate returned earlier, cleanedMember]
      refine ⟨and_congr_right fun member => (kept member).2, fun member key => ?_⟩
      obtain ⟨different, stays⟩ := kept member
      rw [get?_hosting_restoreHosting (Endpoint.ne_of_supersedes earlier).symm,
        get?_hosting_of_reincarnate returned (by rwa [own_cleaned]), get?_hosting_cleaned,
        and_iff_right member, Bool.not_eq_true, stays]

/-- After a merge that changed something, an earlier incarnation of the own host is a member
exactly if it was one after the import and supersedes the endpoint that the list had until
then.  So none is unless the list has returned.  If it was a member after the import, its
hosting entries stay if it stays, and else none of them does. -/
theorem earlier_selves_after_merge {first : Endpoint} {tags : Tags} {replica : ReplicaId}
    {news : News} (reachable : Reachable first tags replica list) (told : news.Spelled first)
    (learnt : list.learn offered news = .ok (.ok made, after)) (changed : made.changed = true) :
    (made.reincarnated = none → after.own = list.own) ∧
      ∀ older, after.own.supersedes older = true →
        (after.members.contains older = true ↔
            (list.imported news).members.contains older = true ∧
              older.supersedes list.own = true) ∧
          ((list.imported news).members.contains older = true → ∀ key,
            (after.store.entries hostingUri).get? key = some older.key ↔
              ((list.imported news).store.entries hostingUri).get? key = some older.key ∧
                older.supersedes list.own = true) := by
  obtain ⟨spelled, home⟩ := reachable.spelled
  have toldHere : news.Spelled list.own :=
    fun operation said => (told operation said).of_sameHost home
  cases learns_of_eq_ok learnt with
  | @repaired _ _ advanced repaired =>
      have moved : advanced = true := by
        cases repairs_of_eq_ok repaired with
        | unchanged => exact changed
        | restored | returned => rfl
      subst moved
      refine ⟨fun kept => ?_, fun older earlier => (spelled.imported toldHere).repair repaired earlier⟩
      cases repairs_of_eq_ok repaired with
      | restored => rw [own_restoreHosting, own_cleaned, imported]
      | returned => cases kept

def home : Endpoint :=
  ⟨"127.0.0.1", 7000, 10⟩

def between : Endpoint :=
  home.atIncarnation 15

def founder : MemberList :=
  new home SortedMap.empty ⟨1⟩

/-- Another list puts the later start and evicts the earlier. -/
def usurpation : List Operation :=
  [{ replica := ⟨2⟩
     counter := 0
     lamport := 1
     needs := Version.empty
     map := membershipUri
     key := between.key
     value := some "[]" },
   { replica := ⟨2⟩
     counter := 1
     lamport := 2
     needs := Version.empty
     map := membershipUri
     key := home.key
     value := none }]

def usurped : News :=
  .single { uri := membershipUri, delta := Delta.toBytes usurpation }

private theorem spelled_usurped : usurped.Spelled home := by
  rintro operation ⟨delta, among, operations, readable, member⟩
  cases List.mem_singleton.mp among
  rw [Delta.ofBytes?_toBytes] at readable
  cases readable
  simp only [usurpation, List.mem_cons, List.not_mem_nil, or_false] at member
  rcases member with rfl | rfl
  · intro _ _
    exact Endpoint.ReadsBack.spells (by decide : between.ReadsBack) home
  · intro _ put
    cases put

/-- The list returns under what its clock offers. -/
private theorem learn_usurped :
    ∃ made after, founder.learn 20 usurped = .ok (.ok made, after) ∧ made.changed = true ∧
      after.own = home.atIncarnation 20 ∧ after.members.contains between = true := by
  have seen :
      (founder.learn 20 usurped).toOption.any (fun result =>
        result.1.toOption.any (·.changed) && result.2.own = home.atIncarnation 20 &&
          result.2.members.contains between) = true := by
    decide +kernel
  obtain ⟨⟨outcome, after⟩, learnt, checked⟩ := Attempt.exists_ok_of_any seen
  simp only [Bool.and_eq_true, decide_eq_true_eq] at checked
  obtain ⟨⟨succeeded, own⟩, member⟩ := checked
  obtain ⟨made, rfl, changed⟩ := Attempt.exists_ok_of_any succeeded
  exact ⟨made, after, learnt, changed, own, member⟩

theorem earlier_selves_after_merge_usurped :
    Reachable home SortedMap.empty ⟨1⟩ founder ∧ usurped.Spelled home ∧
      ∃ made after, founder.learn 20 usurped = .ok (.ok made, after) ∧ made.changed = true ∧
        after.own.supersedes between = true ∧
          (founder.imported usurped).members.contains between = true ∧
            after.members.contains between = true := by
  obtain ⟨made, after, learnt, changed, own, _⟩ := learn_usurped
  obtain ⟨_, earlier⟩ :=
    earlier_selves_after_merge Reachable.new spelled_usurped learnt changed
  have later : after.own.supersedes between = true := by
    rw [own]
    decide
  have member : (founder.imported usurped).members.contains between = true := by
    decide +kernel
  have stays : after.members.contains between = true :=
    (earlier between later).1.mpr ⟨member, by decide +kernel⟩
  exact
    ⟨Reachable.new, spelled_usurped, made, after, learnt, changed, later, member, stays⟩

/-- An earlier incarnation of the own host can be a member after a merge. -/
theorem earlier_self_left_by_merge :
    Reachable home SortedMap.empty ⟨1⟩ founder ∧ usurped.Spelled home ∧
      ∃ made after, founder.learn 20 usurped = .ok (.ok made, after) ∧ made.changed = true ∧
        after.own.supersedes between = true ∧ after.members.contains between = true := by
  obtain ⟨made, after, learnt, changed, own, member⟩ := learn_usurped
  refine ⟨Reachable.new, spelled_usurped, made, after, learnt, changed, ?_, member⟩
  rw [own]
  decide

end MemberList

end Roster
