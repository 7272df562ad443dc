import Concord.Collaboration.DocumentProtocol

/-!
Contract: `_serialized` gives its body the session guard.

Owns:
- the rely and invariant lemmas of the four guard steps;
- `wp_serialized`, the specification of a guarded method from that of its body.

A guard object retires and another takes its place, so the argument is about
the current guard: it cannot retire while a task is counted in it.
-/

set_option autoImplicit false

namespace Concord.Collaboration

open Asyncio Platform DocStore

variable {P : Platform} {α : Type} {recoverable evicts edits : Prop} {task : TaskId}
  {users : GuardUsers} {store : DocStore P}

/-! ### Who holds the guard -/

theorem HoldsGuard.unique {id id' : GuardId} {other : TaskId}
    (held : HoldsGuard task id users store) (heldToo : HoldsGuard other id' users store) :
    other = task := by
  have same : id' = id := Option.some.inj (heldToo.1.1.symm.trans held.1.1)
  have owner := heldToo.2
  rw [same, held.2] at owner
  exact (Option.some.inj owner).symm

/-- While a task holds the guard, its own steps are invisible to the others, as
long as documents evolve and the registry stays. -/
theorem rely_of_holdsGuard {id : GuardId} {after : DocStore P}
    (held : HoldsGuard task id users store) {other : TaskId} (different : task ≠ other)
    (registry : after.registry = store.registry)
    (nextRef_le : store.nextRef ≤ after.nextRef)
    (live : ∀ ref, ref < store.nextRef → Evolves (store.live ref) (after.live ref))
    (accesses : after.unloadedAccesses = store.unloadedAccesses)
    (saved : after.unloadedAccesses = 0 → SavedGrows store after) :
    Rely other users store users after where
  nextRef_le := nextRef_le
  live := live
  accesses_le := accesses.ge
  saved := saved
  outside counted := counted
  inside id inside := by rwa [Inside, registry]
  holds id' heldToo := absurd (held.unique heldToo).symm different

/-- A step outside the guard leaves a guarded task its assumptions. -/
theorem rely_of_frozen {other : TaskId} {after : DocStore P}
    (frozen : Frozen store after)
    (registry : after.registry = store.registry)
    (nextRef_le : store.nextRef ≤ after.nextRef)
    (live : ∀ ref, ref < store.nextRef → Evolves (store.live ref) (after.live ref))
    (accesses_le : store.unloadedAccesses ≤ after.unloadedAccesses)
    (returned : after.returned = store.returned) :
    Rely other users store users after where
  nextRef_le := nextRef_le
  live := live
  accesses_le := accesses_le
  saved _ := .of_same frozen.saved returned
  outside counted := counted
  inside id inside := by rwa [Inside, registry]
  holds id held := ⟨frozen, by rw [registry]; exact held.2⟩

/-- Nobody loads when the lock of the current guard is free. -/
theorem not_loading_of_free (inv : GuardInv users store) {id : GuardId}
    (current : store.registry.current = some id)
    (free : (store.registry.guard id).owner = none) : store.loading = false := by
  by_contra loading
  obtain ⟨_, id', holder, owner⟩ := inv.loading (by simpa using loading)
  have same : id' = id := Option.some.inj ((inv.owner id' holder owner).1.symm.trans current)
  rw [same, free] at owner
  cases owner

/-! ### Registry changes -/

private theorem frozen_withRegistry (registry : GuardRegistry) (store : DocStore P) :
    Frozen store (withRegistry registry store) :=
  ⟨rfl, rfl, rfl, fun _ => rfl, fun _ _ => rfl, rfl⟩

/-- A registry change keeps the invariant when it keeps the guard part of it. -/
theorem Inv.withRegistry {users' : GuardUsers} {registry : GuardRegistry}
    (inv : Inv recoverable users store)
    (guard : GuardInv users' (withRegistry registry store)) :
    Inv recoverable users' (withRegistry registry store) where
  guard := guard
  document := ⟨inv.document.allocated, inv.document.checkpointed_le, inv.document.tracks,
    inv.document.evicted⟩
  loaded := inv.loaded
  recovery possible clean :=
    ⟨(inv.recovery possible clean).stored, (inv.recovery possible clean).checkpoint_le⟩
  writes := inv.writes.of_same rfl rfl le_rfl fun _ _ present => ⟨present, le_rfl⟩

/-- A registry change owes the others only their place in the guard. -/
theorem guar_withRegistry {users' : GuardUsers} {registry : GuardRegistry}
    (outside : ∀ other, task ≠ other → other ∈ users' → other ∈ users)
    (inside : ∀ other, task ≠ other → ∀ id, Inside other id users store →
      Inside other id users' (withRegistry registry store))
    (owner : ∀ other, task ≠ other → ∀ id, HoldsGuard other id users store →
      (registry.guard id).owner = some other) :
    Guar evicts edits task users store users' (withRegistry registry store) where
  rely other different :=
    { nextRef_le := le_rfl
      live := fun _ _ => Evolves.refl _
      accesses_le := le_rfl
      saved := fun _ => .of_same rfl rfl
      outside := outside other different
      inside := inside other different
      holds := fun id held => ⟨frozen_withRegistry _ _, owner other different id held⟩ }
  keeps _ _ present := present
  quiet _ := ⟨rfl, fun _ _ => rfl⟩

/-! ### The four guard steps -/

/-- Entry counts the task in the current guard. -/
theorem enterGuard_spec (evicts edits : Prop) (inv : Inv recoverable users store) (outside : task ∉ users) :
    Guar evicts edits task users store (insert task users) store.enterGuard.2 ∧
      Inv recoverable (insert task users) store.enterGuard.2 ∧
      Inside task store.enterGuard.1 (insert task users) store.enterGuard.2 := by
  have mine : ∀ other, task ≠ other → other ∈ insert task users → other ∈ users := by
    intro other different counted
    exact (Finset.mem_insert.mp counted).resolve_left different.symm
  cases current : store.registry.current with
  | some id =>
      have shape : store.enterGuard = (id, withRegistry { store.registry with
          guard := Function.update store.registry.guard id
            { store.registry.guard id with users := (store.registry.guard id).users + 1 } }
          store) := by
        simp only [DocStore.enterGuard, current, withRegistry]
      rw [shape]
      have owner : ∀ id', (Function.update store.registry.guard id
          { store.registry.guard id with users := (store.registry.guard id).users + 1 } id').owner =
            (store.registry.guard id').owner := by
        intro id'
        by_cases same : id' = id
        · subst same
          simp
        · simp [same]
      refine ⟨guar_withRegistry mine ?_ ?_, inv.withRegistry ⟨?_, ?_, ?_, ?_⟩, current,
        Finset.mem_insert_self _ _⟩
      · exact fun other _ id' inside => ⟨inside.1, Finset.mem_insert_of_mem inside.2⟩
      · exact fun other _ id' held => (owner id').trans held.2
      · intro none
        exact absurd (current.symm.trans none) (Option.some_ne_none _)
      · intro id' current'
        obtain rfl := Option.some.inj (current.symm.trans current')
        simp [withRegistry, Finset.card_insert_of_notMem outside, inv.guard.counted id current]
      · intro id' holder held
        have before := inv.guard.owner id' holder ((owner id').symm.trans held)
        exact ⟨before.1, Finset.mem_insert_of_mem before.2⟩
      · intro loading
        obtain ⟨empty, id', holder, held⟩ := inv.guard.loading loading
        exact ⟨empty, id', holder, (owner id').trans held⟩
  | none =>
      have empty : users = ∅ := inv.guard.retired current
      have noOwner : ∀ id', (store.registry.guard id').owner = none := by
        intro id'
        by_contra owned
        obtain ⟨holder, held⟩ := Option.ne_none_iff_exists'.mp owned
        have := (inv.guard.owner id' holder held).1
        rw [current] at this
        cases this
      have shape : store.enterGuard = (store.registry.nextGuard, withRegistry
          { current := some store.registry.nextGuard
            guard := Function.update store.registry.guard store.registry.nextGuard ⟨none, 1⟩
            nextGuard := store.registry.nextGuard + 1 } store) := by
        simp only [DocStore.enterGuard, current, withRegistry]
      rw [shape]
      have stillNoOwner : ∀ id', (Function.update store.registry.guard store.registry.nextGuard
          ⟨none, 1⟩ id').owner = none := by
        intro id'
        by_cases same : id' = store.registry.nextGuard
        · subst same
          simp
        · simp [same, noOwner]
      refine ⟨guar_withRegistry mine ?_ ?_, inv.withRegistry ⟨?_, ?_, ?_, ?_⟩, rfl,
        Finset.mem_insert_self _ _⟩
      · intro other _ id' inside
        rw [Inside, empty] at inside
        exact absurd inside.2 (Finset.notMem_empty _)
      · intro other _ id' held
        have := held.1.2
        rw [empty] at this
        exact absurd this (Finset.notMem_empty _)
      · intro none
        cases none
      · intro id' current'
        obtain rfl := Option.some.inj current'
        simp [withRegistry, empty]
      · intro id' holder held
        rw [withRegistry, stillNoOwner id'] at held
        cases held
      · intro loading
        obtain ⟨_, id', holder, held⟩ := inv.guard.loading loading
        rw [noOwner id'] at held
        cases held

/-- Acquisition gives a counted task the guard, and finds nobody loading. -/
theorem acquireGuard_spec (evicts edits : Prop) {id : GuardId} {after : DocStore P}
    (inv : Inv recoverable users store) (inside : Inside task id users store)
    (taken : store.acquireGuard id task = some ((), after)) :
    Guar evicts edits task users store users after ∧ Inv recoverable users after ∧
      HoldsGuard task id users after ∧ after.loading = false := by
  unfold DocStore.acquireGuard at taken
  cases free : (store.registry.guard id).owner with
  | some holder => simp [free] at taken
  | none =>
      have notLoading := not_loading_of_free inv.guard inside.1 free
      simp only [free, Option.some.injEq, Prod.mk.injEq, true_and] at taken
      have shape : after = withRegistry { store.registry with
          guard := Function.update store.registry.guard id
            { store.registry.guard id with owner := some task } } store := taken.symm
      rw [shape]
      refine ⟨guar_withRegistry (fun _ _ counted => counted) ?_ ?_,
        inv.withRegistry ⟨?_, ?_, ?_, ?_⟩, ⟨inside, ?_⟩, notLoading⟩
      · exact fun other _ id' insideToo => insideToo
      · intro other _ id' held
        have same : id' = id := Option.some.inj (held.1.1.symm.trans inside.1)
        have owner := held.2
        rw [same, free] at owner
        cases owner
      · exact inv.guard.retired
      · intro id' current
        obtain rfl := Option.some.inj (inside.1.symm.trans current)
        simp [withRegistry, inv.guard.counted id current]
      · intro id' holder held
        by_cases same : id' = id
        · subst same
          simp only [withRegistry, Function.update_self, Option.some.injEq] at held
          exact held ▸ inside
        · simp only [withRegistry, Function.update_of_ne same] at held
          exact inv.guard.owner id' holder held
      · intro loading
        rw [withRegistry, notLoading] at loading
        cases loading
      · simp [withRegistry]

/-- Release gives up the guard of a task that does not load. -/
theorem releaseGuard_spec (evicts edits : Prop) {id : GuardId} (inv : Inv recoverable users store)
    (held : HoldsGuard task id users store) (notLoading : store.loading = false) :
    Guar evicts edits task users store users (store.releaseGuard id) ∧
      Inv recoverable users (store.releaseGuard id) ∧
      Inside task id users (store.releaseGuard id) := by
  have shape : store.releaseGuard id = withRegistry { store.registry with
      guard := Function.update store.registry.guard id
        { store.registry.guard id with owner := none } } store := rfl
  rw [shape]
  refine ⟨guar_withRegistry (fun _ _ counted => counted) ?_ ?_,
    inv.withRegistry ⟨?_, ?_, ?_, ?_⟩, held.1⟩
  · exact fun other _ id' inside => inside
  · intro other different id' heldToo
    exact absurd (held.unique heldToo).symm different
  · exact inv.guard.retired
  · intro id' current
    obtain rfl := Option.some.inj (held.1.1.symm.trans current)
    simp [withRegistry, inv.guard.counted id current]
  · intro id' holder owner
    by_cases same : id' = id
    · subst same
      simp [withRegistry] at owner
    · simp only [withRegistry, Function.update_of_ne same] at owner
      exact inv.guard.owner id' holder owner
  · intro loading
    rw [withRegistry, notLoading] at loading
    cases loading

/-- Leaving uncounts the task; the guard retires only when nobody is left. -/
theorem leaveGuard_spec (evicts edits : Prop) {id : GuardId} (inv : Inv recoverable users store)
    (inside : Inside task id users store)
    (free : (store.registry.guard id).owner = none) :
    Guar evicts edits task users store (users.erase task) (store.leaveGuard id) ∧
      Inv recoverable (users.erase task) (store.leaveGuard id) := by
  have counted := inv.guard.counted id inside.1
  have card := Finset.card_erase_of_mem inside.2
  have notLoading := not_loading_of_free inv.guard inside.1 free
  have shape : store.leaveGuard id = withRegistry { store.registry with
      guard := Function.update store.registry.guard id
        { store.registry.guard id with users := (store.registry.guard id).users - 1 }
      current := if (store.registry.guard id).users - 1 = 0 ∧ store.docs = none ∧
        store.registry.current = some id then none else store.registry.current } store := rfl
  rw [shape]
  have keepsCurrent : users.erase task ≠ ∅ →
      (if (store.registry.guard id).users - 1 = 0 ∧ store.docs = none ∧
        store.registry.current = some id then none else store.registry.current) = some id := by
    intro others
    have positive : 0 < (users.erase task).card :=
      Finset.card_pos.mpr (Finset.nonempty_iff_ne_empty.mpr others)
    rw [if_neg (by omega), inside.1]
  have noOwner : ∀ id' holder, (Function.update store.registry.guard id
      { store.registry.guard id with users := (store.registry.guard id).users - 1 } id').owner ≠
        some holder := by
    intro id' holder owner
    by_cases same : id' = id
    · subst same
      simp [free] at owner
    · simp only [Function.update_of_ne same] at owner
      have current := (inv.guard.owner id' holder owner).1
      exact same (Option.some.inj (current.symm.trans inside.1))
  refine ⟨guar_withRegistry ?_ ?_ ?_, inv.withRegistry ⟨?_, ?_, ?_, ?_⟩⟩
  · exact fun other _ counted => Finset.mem_of_mem_erase counted
  · intro other different id' insideToo
    obtain rfl := Option.some.inj (inside.1.symm.trans insideToo.1)
    have still : other ∈ users.erase task := Finset.mem_erase.mpr ⟨different.symm, insideToo.2⟩
    exact ⟨keepsCurrent (Finset.ne_empty_of_mem still), still⟩
  · intro other _ id' held
    have same : id' = id := Option.some.inj (held.1.1.symm.trans inside.1)
    have owner := held.2
    rw [same, free] at owner
    cases owner
  · intro retired
    by_contra others
    rw [withRegistry, keepsCurrent others] at retired
    cases retired
  · intro id' current
    have same : id' = id := by
      simp only [withRegistry] at current
      split at current
      · cases current
      · exact Option.some.inj (current.symm.trans inside.1)
    subst same
    simp only [withRegistry, Function.update_self]
    omega
  · intro id' holder owner
    exact absurd owner (noOwner id' holder)
  · intro loading
    rw [withRegistry, notLoading] at loading
    cases loading

/-! ### Guarded methods -/

/-- What a guarded body starts from and must leave behind. -/
structure Guarded (recoverable : Prop) (task : TaskId) (id : GuardId) (users : GuardUsers)
    (store : DocStore P) : Prop where
  inv : Inv recoverable users store
  held : HoldsGuard task id users store
  notLoading : store.loading = false

theorem acquireGuard_eq {id : GuardId} {after : DocStore P}
    (taken : store.acquireGuard id task = some ((), after)) :
    ∃ registry, after = withRegistry registry store := by
  unfold DocStore.acquireGuard at taken
  cases free : (store.registry.guard id).owner with
  | some holder => simp [free] at taken
  | none =>
      simp only [free, Option.some.injEq, Prod.mk.injEq, true_and] at taken
      exact ⟨_, taken.symm⟩

/-- The specification of a guarded method from that of its body, which begins
where the caller's knowledge of the state holds. -/
theorem wp_serialized_known {allows : DocStore P → Call → Event P → Prop} {body : Program P α}
    {known : DocStore P → Prop} {post : Except Exn α → DocStore P → Prop}
    (inv : Inv recoverable users store) (outside : task ∉ users)
    (stable : ∀ result store registry, post result store → post result (withRegistry registry store))
    (bodySpec : ∀ id users store registry, known store →
      Guarded recoverable task id users (withRegistry registry store) →
      wp { protocol P recoverable evicts edits with known := known } allows task body
        (fun result users store => Guarded recoverable task id users store ∧ post result store)
        users (withRegistry registry store)) :
    wp { protocol P recoverable evicts edits with known := known } allows task (serialized task body)
      (fun result users store => Inv recoverable users store ∧ task ∉ users ∧ post result store)
      users store := by
  obtain ⟨guar, invEntered, inside⟩ :=
    enterGuard_spec evicts edits inv outside
  unfold serialized
  rw [wp_bind]
  refine wp_modifyGet (insert task users) guar ?_
  simp only [thenPost_ok, wp_tryFinally, wp_bind]
  refine wp_awaitUntil invEntered trivial ?_
  intro users₁ store₁ rely inv₁ known₁ _ store₂ taken
  obtain ⟨guar₂, inv₂, held, notLoading⟩ :=
    acquireGuard_spec evicts edits inv₁ (rely.inside _ inside) taken
  obtain ⟨registry, rfl⟩ := acquireGuard_eq taken
  refine ⟨users₁, guar₂, ?_⟩
  simp only [thenPost_ok, wp_tryFinally]
  refine wp_mono ?_ (bodySpec _ _ _ registry known₁ ⟨inv₂, held, notLoading⟩)
  rintro result users₃ store₃ ⟨guarded, holds⟩
  obtain ⟨guar₃, inv₃, inside₃⟩ := releaseGuard_spec evicts edits
    guarded.inv guarded.held guarded.notLoading
  refine wp_modify users₃ guar₃ ?_
  have released : ((store₃.releaseGuard store.enterGuard.1).registry.guard
      store.enterGuard.1).owner = none := by
    simp [DocStore.releaseGuard]
  obtain ⟨guar₄, inv₄⟩ := leaveGuard_spec evicts edits inv₃ inside₃ released
  have left : post result ((store₃.releaseGuard store.enterGuard.1).leaveGuard
      store.enterGuard.1) := stable result _ _ (stable result _ _ holds)
  cases result with
  | ok value => exact wp_modify _ guar₄ ⟨inv₄, Finset.notMem_erase _ _, left⟩
  | error exn => exact wp_modify _ guar₄ ⟨inv₄, Finset.notMem_erase _ _, left⟩

/-- The specification of a guarded method from that of its body. -/
theorem wp_serialized {allows : DocStore P → Call → Event P → Prop} {body : Program P α}
    {post : Except Exn α → DocStore P → Prop}
    (inv : Inv recoverable users store) (outside : task ∉ users)
    (stable : ∀ result store registry, post result store → post result (withRegistry registry store))
    (bodySpec : ∀ id users store, Guarded recoverable task id users store →
      wp (protocol P recoverable evicts edits) allows task body
        (fun result users store => Guarded recoverable task id users store ∧ post result store)
        users store) :
    wp (protocol P recoverable evicts edits) allows task (serialized task body)
      (fun result users store => Inv recoverable users store ∧ task ∉ users ∧ post result store)
      users store := by
  change wp { protocol P recoverable evicts edits with known := fun _ => True } allows task _ _
    users store
  exact wp_serialized_known inv outside stable
    fun id users store registry _ guarded => bodySpec id users (withRegistry registry store) guarded

/-- A guarded method whose body promises nothing more keeps the invariant. -/
theorem wp_serialized_inv {allows : DocStore P → Call → Event P → Prop} {body : Program P α}
    (inv : Inv recoverable users store) (outside : task ∉ users)
    (bodySpec : ∀ id users store, Guarded recoverable task id users store →
      wp (protocol P recoverable evicts edits) allows task body
        (fun _ users store => Guarded recoverable task id users store) users store) :
    wp (protocol P recoverable evicts edits) allows task (serialized task body)
      (fun _ users store => Inv recoverable users store ∧ task ∉ users) users store := by
  have stable : ∀ (result : Except Exn α) (store : DocStore P) registry,
      True → (fun _ _ => True : Except Exn α → DocStore P → Prop) result
        (withRegistry registry store) := fun _ _ _ _ => trivial
  refine wp_mono ?_ (wp_serialized inv outside stable fun id users store guarded =>
    wp_mono (fun _ _ _ guarded => ⟨guarded, trivial⟩) (bodySpec id users store guarded))
  rintro _ _ _ ⟨inv, outside, _⟩
  exact ⟨inv, outside⟩

end Concord.Collaboration
