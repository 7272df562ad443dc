import Concord.Collaboration.Presence

/-!
Contract: the laws of the awareness store.

Owns:
- the clock rule as a comparison of ranks;
- `Kept`, the invariant of the store: one state for each client, and an owner
  for exactly the active states;
- `Advance`, what an update or a withdrawal does to the store, and which entries
  tell of it;
- `Mirrors`, what a receiver of entries holds in whatever order they arrive.

Does not own: the frames that carry the entries.
-/

set_option autoImplicit false

namespace Concord.Collaboration

open Asyncio

variable {P : Platform} {states after : AwarenessStates P} {stored : StoredAwareness P}
  {entry : AwarenessEntry P}

namespace AwarenessStates

/-! ### Ranks -/

/-- The rank of the state of a client. No state ranks as a removal at clock zero. -/
def heldRank (current : Option (StoredAwareness P)) : Nat :=
  (current.map (·.entry.rank)).getD 1

theorem shouldApply_iff (current : Option (StoredAwareness P)) (entry : AwarenessEntry P) :
    shouldApply current entry = true ↔ heldRank current < entry.rank := by
  unfold shouldApply heldRank AwarenessEntry.rank
  cases current with
  | none =>
      cases entry.state <;> simp
      omega
  | some stored =>
      cases old : stored.entry.state <;> cases entry.state <;> simp [old] <;> omega

private theorem rank_removal (active : entry.state.isSome) : entry.rank < (removal entry).rank := by
  unfold AwarenessEntry.rank removal
  cases state : entry.state with
  | none => simp [state] at active
  | some value => simp

/-! ### The dictionary -/

theorem mem_of_lookup {clientId : Nat} (found : states.lookup clientId = some stored) :
    stored ∈ states ∧ stored.entry.clientId = clientId :=
  ⟨List.mem_of_find?_eq_some found, by simpa using List.find?_some found⟩

private theorem lookup_eq_none {clientId : Nat} :
    states.lookup clientId = none ↔ ∀ stored ∈ states, stored.entry.clientId ≠ clientId := by
  simp [lookup, List.find?_eq_none]

theorem lookup_put (stored : StoredAwareness P) (states : AwarenessStates P) (clientId : Nat) :
    (states.put stored).lookup clientId =
      if stored.entry.clientId = clientId then some stored else states.lookup clientId := by
  induction states with
  | nil => by_cases own : stored.entry.clientId = clientId <;> simp [put, lookup, own]
  | cons current rest inductionHypothesis =>
      unfold lookup at inductionHypothesis ⊢
      by_cases same : current.entry.clientId = stored.entry.clientId
      · simp only [put, if_pos same, List.find?_cons]
        by_cases own : stored.entry.clientId = clientId
        · simp [own]
        · have other : ¬current.entry.clientId = clientId := fun equal => own (same.symm.trans equal)
          simp [own, other]
      · simp only [put, if_neg same, List.find?_cons]
        by_cases found : current.entry.clientId = clientId
        · have other : ¬stored.entry.clientId = clientId := fun equal => same (found.trans equal.symm)
          simp [found, other]
        · simp only [found, decide_false]
          exact inductionHypothesis

def Distinct (states : AwarenessStates P) : Prop :=
  (states.map (·.entry.clientId)).Nodup

theorem Distinct.eq_of_clientId (distinct : Distinct states) {first second : StoredAwareness P}
    (left : first ∈ states) (right : second ∈ states)
    (same : first.entry.clientId = second.entry.clientId) : first = second :=
  List.inj_on_of_nodup_map distinct left right same

theorem Distinct.lookup (distinct : Distinct states) (member : stored ∈ states) :
    states.lookup stored.entry.clientId = some stored := by
  cases found : states.lookup stored.entry.clientId with
  | none => exact absurd rfl (lookup_eq_none.mp found stored member)
  | some other =>
      obtain ⟨present, same⟩ := mem_of_lookup found
      rw [distinct.eq_of_clientId present member same]

private theorem map_put (stored : StoredAwareness P) (states : AwarenessStates P) :
    (states.put stored).map (·.entry.clientId) =
      if stored.entry.clientId ∈ states.map (·.entry.clientId) then states.map (·.entry.clientId)
      else states.map (·.entry.clientId) ++ [stored.entry.clientId] := by
  induction states with
  | nil => rfl
  | cons current rest inductionHypothesis =>
      by_cases same : current.entry.clientId = stored.entry.clientId
      · simp [put, same]
      · have different : stored.entry.clientId ≠ current.entry.clientId := fun equal => same equal.symm
        simp only [put, if_neg same, List.map_cons, inductionHypothesis, List.mem_cons, different,
          false_or]
        split <;> rfl

theorem Distinct.put (distinct : Distinct states) (stored : StoredAwareness P) :
    Distinct (states.put stored) := by
  unfold Distinct
  rw [map_put]
  split
  · exact distinct
  · next absent =>
      exact List.nodup_append.mpr ⟨distinct, List.nodup_singleton _, fun first left second right => by
        rw [List.mem_singleton.mp right]
        rintro rfl
        exact absent left⟩

theorem Distinct.mem_put (distinct : Distinct states) {other : StoredAwareness P}
    (member : other ∈ states.put stored) :
    other = stored ∨ other ∈ states ∧ other.entry.clientId ≠ stored.entry.clientId := by
  have found := (distinct.put stored).lookup member
  rw [lookup_put] at found
  split at found
  · exact .inl (Option.some.inj found).symm
  · next different => exact .inr ⟨(mem_of_lookup found).1, fun equal => different equal.symm⟩

private theorem mem_put_self (stored : StoredAwareness P) (states : AwarenessStates P) :
    stored ∈ states.put stored := by
  have found : (states.put stored).lookup stored.entry.clientId = some stored := by
    rw [lookup_put, if_pos rfl]
  exact (mem_of_lookup found).1

theorem mem_activeEntries :
    entry ∈ activeEntries states ↔ (∃ stored ∈ states, stored.entry = entry) ∧ entry.state.isSome := by
  unfold activeEntries
  rw [(List.perm_insertionSort _ _).mem_iff, List.mem_filter, List.mem_map]

/-! ### The loop of a withdrawal -/

def leaves (selected : StoredAwareness P → Bool) (stored : StoredAwareness P) : Bool :=
  stored.entry.state.isSome && selected stored

/-- What a withdrawal makes of a state. -/
def withdrawn (selected : StoredAwareness P → Bool) (timestamp : Nat)
    (stored : StoredAwareness P) : StoredAwareness P :=
  if leaves selected stored then ⟨removal stored.entry, none, timestamp⟩ else stored

private theorem withdraw_eq (selected : StoredAwareness P → Bool) (timestamp : Nat)
    (states : AwarenessStates P) :
    withdraw selected timestamp states = (states.map (withdrawn selected timestamp),
      (states.filter (leaves selected)).map fun stored => removal stored.entry) := by
  induction states with
  | nil => rfl
  | cons stored rest inductionHypothesis =>
      simp only [withdraw, inductionHypothesis, List.map_cons, List.filter_cons, withdrawn]
      cases left : leaves selected stored with
      | true =>
          have condition : (stored.entry.state.isSome && selected stored) = true := left
          simp [condition]
      | false =>
          have condition : (stored.entry.state.isSome && selected stored) = false := left
          simp [condition]

private theorem withdrawn_clientId (selected : StoredAwareness P → Bool) (timestamp : Nat)
    (stored : StoredAwareness P) :
    (withdrawn selected timestamp stored).entry.clientId = stored.entry.clientId := by
  unfold withdrawn
  split <;> rfl

/-! ### The invariant of the store -/

/-- The invariant of the store, where `present` are the tasks that may own a
state. -/
structure Kept (present : TaskId → Prop) (states : AwarenessStates P) : Prop where
  distinct : Distinct states
  above : ∀ stored ∈ states, 1 < stored.entry.rank
  owned : ∀ stored ∈ states, stored.owner.isSome = stored.entry.state.isSome
  owner : ∀ stored ∈ states, ∀ owner, stored.owner = some owner → present owner

theorem Kept.nil (present : TaskId → Prop) : Kept present ([] : AwarenessStates P) :=
  ⟨List.nodup_nil, nofun, nofun, nofun⟩

theorem Kept.mono {present present' : TaskId → Prop} (kept : Kept present states)
    (more : ∀ owner, present owner → present' owner) : Kept present' states :=
  ⟨kept.distinct, kept.above, kept.owned, fun stored member owner owns =>
    more owner (kept.owner stored member owner owns)⟩

theorem Kept.one_le_heldRank {present : TaskId → Prop} (kept : Kept present states)
    (clientId : Nat) : 1 ≤ heldRank (states.lookup clientId) := by
  cases found : states.lookup clientId with
  | none => exact le_rfl
  | some stored => exact (kept.above stored (mem_of_lookup found).1).le

/-- The entry is the state of its client, or below it. -/
def Covers (states : AwarenessStates P) (entry : AwarenessEntry P) : Prop :=
  ∃ stored ∈ states, stored.entry.clientId = entry.clientId ∧
    (entry.rank < stored.entry.rank ∨ entry = stored.entry)

theorem covers_of_mem (member : stored ∈ states) : Covers states stored.entry :=
  ⟨stored, member, rfl, .inr rfl⟩

/-- The store has changed, and `news` tells of every change. -/
structure Advance (before after : AwarenessStates P) (news : List (AwarenessEntry P)) : Prop where
  covers : ∀ entry, Covers before entry → Covers after entry
  noted : ∀ entry ∈ news, Covers after entry
  told : ∀ stored ∈ after, stored.entry ∈ news ∨
    (∃ earlier ∈ before, earlier.entry = stored.entry) ∧
      ∀ entry ∈ news, entry.clientId ≠ stored.entry.clientId

theorem Advance.refl (states : AwarenessStates P) : Advance states states [] :=
  ⟨fun _ => id, nofun, fun stored member => .inr ⟨⟨stored, member, rfl⟩, nofun⟩⟩

theorem Advance.trans {first second third : AwarenessStates P} {earlier later : List (AwarenessEntry P)}
    (one : Advance first second earlier) (two : Advance second third later) :
    Advance first third (earlier ++ later) where
  covers entry covered := two.covers entry (one.covers entry covered)
  noted entry member := by
    rcases List.mem_append.mp member with old | new
    · exact two.covers entry (one.noted entry old)
    · exact two.noted entry new
  told stored member := by
    rcases two.told stored member with new | ⟨⟨middle, present, same⟩, noneLater⟩
    · exact .inl (List.mem_append_right _ new)
    · rcases one.told middle present with old | ⟨⟨start, stays, equal⟩, noneEarlier⟩
      · exact .inl (List.mem_append_left _ (same ▸ old))
      · refine .inr ⟨⟨start, stays, equal.trans same⟩, fun entry told => ?_⟩
        rcases List.mem_append.mp told with old | new
        · rw [← same]
          exact noneEarlier entry old
        · exact noneLater entry new

/-- A state that ranks above what the store holds. -/
theorem advance_put (distinct : Distinct states)
    (higher : heldRank (states.lookup stored.entry.clientId) < stored.entry.rank) :
    Advance states (states.put stored) [stored.entry] where
  covers entry covered := by
    obtain ⟨current, member, same, rank⟩ := covered
    by_cases own : current.entry.clientId = stored.entry.clientId
    · have held : states.lookup stored.entry.clientId = some current := own ▸ distinct.lookup member
      have below : current.entry.rank < stored.entry.rank := by
        rw [held] at higher
        exact higher
      refine ⟨stored, mem_put_self _ _, own.symm.trans same, .inl ?_⟩
      rcases rank with lower | rfl
      · exact lower.trans below
      · exact below
    · have found : (states.put stored).lookup current.entry.clientId = some current := by
        rw [lookup_put, if_neg fun equal => own equal.symm]
        exact distinct.lookup member
      exact ⟨current, (mem_of_lookup found).1, same, rank⟩
  noted entry member := by
    rw [List.mem_singleton.mp member]
    exact covers_of_mem (mem_put_self _ _)
  told other member := by
    rcases distinct.mem_put member with rfl | ⟨earlier, different⟩
    · exact .inl (List.mem_singleton_self _)
    · refine .inr ⟨⟨other, earlier, rfl⟩, fun entry told => ?_⟩
      rw [List.mem_singleton.mp told]
      exact fun equal => different equal.symm

/-- `apply_update` for an owner that may own states. -/
theorem applyUpdate_spec {present : TaskId → Prop} {owner : TaskId} (owns : present owner)
    (timestamp : Nat) (entries : List (AwarenessEntry P)) (kept : Kept present states) :
    Kept present (applyUpdate owner timestamp entries states).1 ∧
      Advance states (applyUpdate owner timestamp entries states).1
        (applyUpdate owner timestamp entries states).2 := by
  induction entries generalizing states with
  | nil => exact ⟨kept, .refl states⟩
  | cons entry rest inductionHypothesis =>
      unfold applyUpdate
      split
      · next newer =>
          have higher := (shouldApply_iff _ _).mp newer
          let stored : StoredAwareness P := {
            entry := entry
            owner := if entry.state.isNone then none else some owner
            lastSeen := timestamp }
          have owned : stored.owner.isSome = entry.state.isSome := by
            change (if entry.state.isNone then none else some owner).isSome = _
            cases entry.state <;> rfl
          have mine : ∀ other, stored.owner = some other → present other := by
            intro other is
            change (if entry.state.isNone then none else some owner) = some other at is
            split at is
            · cases is
            · exact Option.some.inj is ▸ owns
          have kept' : Kept present (states.put stored) := by
            refine ⟨kept.distinct.put stored, ?_, ?_, ?_⟩
            · intro other member
              rcases kept.distinct.mem_put member with rfl | ⟨earlier, _⟩
              · exact (kept.one_le_heldRank _).trans_lt higher
              · exact kept.above other earlier
            · intro other member
              rcases kept.distinct.mem_put member with rfl | ⟨earlier, _⟩
              · exact owned
              · exact kept.owned other earlier
            · intro other member
              rcases kept.distinct.mem_put member with rfl | ⟨earlier, _⟩
              · exact mine
              · exact kept.owner other earlier
          obtain ⟨keptAfter, advance⟩ := inductionHypothesis kept'
          exact ⟨keptAfter, (@advance_put _ _ stored kept.distinct higher).trans advance⟩
      · exact inductionHypothesis kept

theorem mem_withdraw {selected : StoredAwareness P → Bool} {timestamp : Nat} :
    stored ∈ (withdraw selected timestamp states).1 ↔
      ∃ earlier ∈ states, withdrawn selected timestamp earlier = stored := by
  rw [withdraw_eq, List.mem_map]

private theorem mem_withdraw_removed {selected : StoredAwareness P → Bool} {timestamp : Nat} :
    entry ∈ (withdraw selected timestamp states).2 ↔
      ∃ earlier ∈ states, leaves selected earlier = true ∧ removal earlier.entry = entry := by
  rw [withdraw_eq]
  simp [and_assoc]

/-- `remove_owner` and `prune_stale` keep the store. -/
theorem kept_withdraw {present : TaskId → Prop} (selected : StoredAwareness P → Bool)
    (timestamp : Nat) (kept : Kept present states) :
    Kept present (withdraw selected timestamp states).1 where
  distinct := by
    rw [withdraw_eq]
    unfold Distinct
    rw [List.map_map]
    have same : (fun stored : StoredAwareness P => stored.entry.clientId) ∘
        withdrawn selected timestamp = fun stored => stored.entry.clientId :=
      funext (withdrawn_clientId selected timestamp)
    rw [same]
    exact kept.distinct
  above after member := by
    obtain ⟨stored, earlier, rfl⟩ := mem_withdraw.mp member
    unfold withdrawn
    split
    · next left =>
        have active : stored.entry.state.isSome = true := (Bool.and_eq_true_iff.mp left).1
        exact (kept.above stored earlier).trans (rank_removal active)
    · exact kept.above stored earlier
  owned after member := by
    obtain ⟨stored, earlier, rfl⟩ := mem_withdraw.mp member
    unfold withdrawn
    split
    · rfl
    · exact kept.owned stored earlier
  owner after member := by
    obtain ⟨stored, earlier, rfl⟩ := mem_withdraw.mp member
    unfold withdrawn
    split
    · exact nofun
    · exact kept.owner stored earlier

/-- The removals that `remove_owner` and `prune_stale` return tell of what they
have changed. -/
theorem advance_withdraw (selected : StoredAwareness P → Bool) (timestamp : Nat)
    (distinct : Distinct states) :
    Advance states (withdraw selected timestamp states).1 (withdraw selected timestamp states).2 where
  covers entry covered := by
    obtain ⟨stored, member, same, rank⟩ := covered
    refine ⟨withdrawn selected timestamp stored, mem_withdraw.mpr ⟨stored, member, rfl⟩,
      (withdrawn_clientId _ _ _).trans same, ?_⟩
    unfold withdrawn
    split
    · next left =>
        have active : stored.entry.state.isSome = true := (Bool.and_eq_true_iff.mp left).1
        rcases rank with lower | rfl
        · exact .inl (lower.trans (rank_removal active))
        · exact .inl (rank_removal active)
    · exact rank
  noted entry removed := by
    obtain ⟨stored, member, left, rfl⟩ := mem_withdraw_removed.mp removed
    have after : (withdrawn selected timestamp stored).entry = removal stored.entry := by
      unfold withdrawn
      rw [if_pos left]
    rw [← after]
    exact covers_of_mem (mem_withdraw.mpr ⟨stored, member, rfl⟩)
  told after member := by
    obtain ⟨stored, earlier, rfl⟩ := mem_withdraw.mp member
    cases left : leaves selected stored with
    | true =>
        refine .inl (mem_withdraw_removed.mpr ⟨stored, earlier, left, ?_⟩)
        unfold withdrawn
        rw [if_pos left]
    | false =>
        have stays : withdrawn selected timestamp stored = stored := by
          unfold withdrawn
          rw [left]
          rfl
        rw [stays]
        refine .inr ⟨⟨stored, earlier, rfl⟩, fun entry removed same => ?_⟩
        obtain ⟨other, present, leaving, rfl⟩ := mem_withdraw_removed.mp removed
        have equal : other = stored := distinct.eq_of_clientId present earlier same
        rw [equal, left] at leaving
        cases leaving

/-- After `remove_owner` the owner has no state. -/
theorem kept_removeOwner {present : TaskId → Prop} (owner : TaskId) (timestamp : Nat)
    (kept : Kept present states) :
    Kept (fun other => present other ∧ other ≠ owner) (removeOwner owner timestamp states).1 := by
  have after := kept_withdraw (fun stored => stored.owner = some owner) timestamp kept
  refine ⟨after.distinct, after.above, after.owned, fun stored member other owns => ?_⟩
  refine ⟨after.owner stored member other owns, ?_⟩
  rintro rfl
  obtain ⟨earlier, present', rfl⟩ := mem_withdraw.mp member
  unfold withdrawn at owns
  split at owns
  · cases owns
  · next stays =>
      have active : earlier.entry.state.isSome = true := by
        rw [← kept.owned earlier present', owns]
        rfl
      exact stays (Bool.and_eq_true_iff.mpr ⟨active, decide_eq_true owns⟩)

/-! ### A receiver of entries -/

/-- What a receiver holds for a client, of the entries that it has heard: the
highest of them, unless they are no higher than nothing. -/
structure Mirrors (clientId : Nat) (heard : AwarenessEntry P → Prop) (states : AwarenessStates P) :
    Prop where
  came : ∀ stored, states.lookup clientId = some stored → heard stored.entry
  highest : ∀ entry, heard entry → entry.clientId = clientId →
    entry.rank ≤ heldRank (states.lookup clientId)

theorem Mirrors.nothing {clientId : Nat} (unknown : states.lookup clientId = none) :
    Mirrors clientId (fun _ => False) states :=
  ⟨fun _ found => (nomatch unknown.symm.trans found), nofun⟩

theorem Mirrors.congr {clientId : Nat} {heard heard' : AwarenessEntry P → Prop}
    (mirrors : Mirrors clientId heard states) (same : ∀ entry, heard entry ↔ heard' entry) :
    Mirrors clientId heard' states :=
  ⟨fun stored found => (same _).mp (mirrors.came stored found),
    fun entry told => mirrors.highest entry ((same entry).mpr told)⟩

theorem Mirrors.put {clientId : Nat} {heard : AwarenessEntry P → Prop}
    (mirrors : Mirrors clientId heard states)
    (higher : heldRank (states.lookup stored.entry.clientId) < stored.entry.rank) :
    Mirrors clientId (fun entry => heard entry ∨ entry = stored.entry) (states.put stored) := by
  constructor
  · intro current found
    rw [lookup_put] at found
    split at found
    · obtain rfl := Option.some.inj found
      exact .inr rfl
    · exact .inl (mirrors.came current found)
  · intro entry told own
    rw [lookup_put]
    split
    · next mine =>
        rcases told with older | rfl
        · rw [mine] at higher
          exact (mirrors.highest entry older own).trans higher.le
        · exact le_rfl
    · next other =>
        rcases told with older | rfl
        · exact mirrors.highest entry older own
        · exact absurd own other

/-- An entry that a receiver passes over. -/
theorem Mirrors.pass {clientId : Nat} {heard : AwarenessEntry P → Prop}
    (mirrors : Mirrors clientId heard states)
    (lower : entry.rank ≤ heldRank (states.lookup entry.clientId)) :
    Mirrors clientId (fun other => heard other ∨ other = entry) states := by
  refine ⟨fun stored found => .inl (mirrors.came stored found), ?_⟩
  rintro other (older | rfl) own
  · exact mirrors.highest other older own
  · rw [← own]
    exact lower

/-- A receiver of more entries. -/
theorem Mirrors.applyUpdate {clientId : Nat} {heard : AwarenessEntry P → Prop} (owner : TaskId)
    (timestamp : Nat) (entries : List (AwarenessEntry P)) (mirrors : Mirrors clientId heard states) :
    Mirrors clientId (fun entry => heard entry ∨ entry ∈ entries)
      (applyUpdate owner timestamp entries states).1 := by
  induction entries generalizing heard states with
  | nil => exact mirrors.congr fun _ => by simp
  | cons entry rest inductionHypothesis =>
      have same : ∀ other, (heard other ∨ other = entry) ∨ other ∈ rest ↔
          heard other ∨ other ∈ entry :: rest := by
        intro other
        rw [List.mem_cons, or_assoc]
      unfold AwarenessStates.applyUpdate
      split
      · next newer =>
          let stored : StoredAwareness P := {
            entry := entry
            owner := if entry.state.isNone then none else some owner
            lastSeen := timestamp }
          have higher := (shouldApply_iff _ _).mp newer
          exact (inductionHypothesis (@Mirrors.put _ _ stored _ _ mirrors higher)).congr same
      · next notNewer =>
          have lower : entry.rank ≤ heldRank (states.lookup entry.clientId) :=
            Nat.le_of_not_lt fun higher => notNewer ((shouldApply_iff _ _).mpr higher)
          exact (inductionHypothesis (mirrors.pass lower)).congr same

/-- The clock and the state that a store shows for a client. -/
def active (states : AwarenessStates P) (clientId : Nat) : Option (Nat × P.Json) :=
  (states.lookup clientId).bind fun stored =>
    stored.entry.state.map fun state => (stored.entry.clock, state)

/-- A receiver that has heard every active state, nothing of a client whose state
it has not heard, and nothing that the store does not hold or surpass, shows
what the store shows. -/
theorem Mirrors.active_eq {present : TaskId → Prop} {clientId : Nat}
    {heard : AwarenessEntry P → Prop} {mirror : AwarenessStates P} (kept : Kept present states)
    (mirrors : Mirrors clientId heard mirror) (covered : ∀ entry, heard entry → Covers states entry)
    (told : ∀ stored ∈ states, heard stored.entry ∨
      ∀ entry, heard entry → entry.clientId ≠ stored.entry.clientId)
    (shown : ∀ stored ∈ states, stored.entry.state.isSome → heard stored.entry) :
    mirror.active clientId = states.active clientId := by
  unfold active
  cases held : states.lookup clientId with
  | none =>
      cases found : mirror.lookup clientId with
      | none => rfl
      | some mine =>
          obtain ⟨stored, member, same, _⟩ := covered mine.entry (mirrors.came mine found)
          exact absurd (same.trans (mem_of_lookup found).2) (lookup_eq_none.mp held stored member)
  | some stored =>
      obtain ⟨member, own⟩ := mem_of_lookup held
      rcases told stored member with heardStored | unheard
      · have below := mirrors.highest stored.entry heardStored own
        cases found : mirror.lookup clientId with
        | none =>
            rw [found] at below
            exact absurd below (Nat.not_le.mpr (kept.above stored member))
        | some mine =>
            rw [found] at below
            obtain ⟨other, present, same, rank⟩ := covered mine.entry (mirrors.came mine found)
            have equal : other = stored := kept.distinct.eq_of_clientId present member
              (same.trans ((mem_of_lookup found).2.trans own.symm))
            rw [equal] at rank
            have sameEntry : mine.entry = stored.entry := by
              rcases rank with lower | sameEntry
              · exact absurd below (Nat.not_le.mpr lower)
              · exact sameEntry
            change mine.entry.state.map _ = stored.entry.state.map _
            rw [sameEntry]
      · have inactive : stored.entry.state = none := by
          cases state : stored.entry.state with
          | none => rfl
          | some value =>
              have heardStored := shown stored member (by rw [state]; rfl)
              exact absurd rfl (unheard stored.entry heardStored)
        have nothing : mirror.lookup clientId = none := by
          cases found : mirror.lookup clientId with
          | none => rfl
          | some mine =>
              exact absurd ((mem_of_lookup found).2.trans own.symm)
                (unheard mine.entry (mirrors.came mine found))
        rw [nothing]
        change none = stored.entry.state.map _
        rw [inactive]
        rfl

end AwarenessStates

end Concord.Collaboration
