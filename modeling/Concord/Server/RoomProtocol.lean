import Concord.Collaboration.DocumentService
import Concord.Server.HandlerRules

/-!
Contract: the protocol of the room and its document.

Owns:
- `RoomInv`: a room with connections has a loaded document in memory;
- `RoomRely`: the room lock protects the room and the presence of its document;
- the rules for operations, for guarded methods of the manager, and for a
  section under the room lock.

Does not own: the handlers that follow the protocol.
-/

set_option autoImplicit false

namespace Concord.Server

open Asyncio Collaboration ServerState

variable {P : Platform} {α : Type} {recoverable : Prop} {task : TaskId}
  {users users' : GuardUsers} {server server' : ServerState P}
  {allows : ServerState P → Call → Event P → Prop}

def InRoom (websocket : WebSocket) (server : ServerState P) : Prop :=
  ∃ connection ∈ server.connections, connection.websocket = websocket

structure RoomInv (recoverable : Prop) (users : GuardUsers) (server : ServerState P) : Prop where
  manager : Inv recoverable users server.store
  accesses : server.store.unloadedAccesses = 0
  present : server.connections ≠ [] → server.store.docs ≠ none

/-- The document in memory stays there and grows. -/
structure DocsKept (before after : DocStore P) : Prop where
  docs : ∀ ref, before.docs = some ref → after.docs = some ref
  nextRef_le : before.nextRef ≤ after.nextRef
  doc_le : ∀ ref, ref < before.nextRef → (before.live ref).doc ≤ (after.live ref).doc

theorem DocsKept.of_same {before after : DocStore P} (docs : after.docs = before.docs)
    (nextRef : after.nextRef = before.nextRef) (live : after.live = before.live) :
    DocsKept before after :=
  ⟨fun _ present => docs.trans present, nextRef.ge, fun _ _ => by rw [live]⟩

theorem DocsKept.trans {first second third : DocStore P} (earlier : DocsKept first second)
    (later : DocsKept second third) : DocsKept first third where
  docs ref present := later.docs ref (earlier.docs ref present)
  nextRef_le := earlier.nextRef_le.trans later.nextRef_le
  doc_le ref known := (earlier.doc_le ref known).trans
    (later.doc_le ref (lt_of_lt_of_le known earlier.nextRef_le))

theorem DocsKept.present {before after : DocStore P} (kept : DocsKept before after)
    (present : before.docs ≠ none) : after.docs ≠ none := by
  obtain ⟨ref, current⟩ := Option.ne_none_iff_exists'.mp present
  rw [kept.docs ref current]
  exact Option.some_ne_none ref

/-- What `task` may find changed by the other tasks. -/
structure RoomRely (task : TaskId) (users : GuardUsers) (before : ServerState P)
    (users' : GuardUsers) (after : ServerState P) : Prop where
  store : Rely task users before.store users' after.store
  lock : before.roomLock = some task → after.roomLock = some task ∧ after.rooms = before.rooms ∧
    DocsKept before.store after.store
  inRoom : InRoom task before → InRoom task after

def roomProtocol (P : Platform) (recoverable : Prop) :
    Logic GuardUsers (ServerState P) Call where
  inv := RoomInv recoverable
  rely := RoomRely
  guar task users before users' after :=
    ∀ other, task ≠ other → RoomRely other users before users' after
  done task users _ := task ∉ users

theorem RoomRely.refl (task : TaskId) (users : GuardUsers) (server : ServerState P) :
    RoomRely task users server users server :=
  ⟨Rely.refl _ _ _, fun held => ⟨held, rfl, .of_same rfl rfl rfl⟩, fun member => member⟩

theorem roomProtocol_lawful (recoverable : Prop) : (roomProtocol P recoverable).Lawful where
  rely_refl := RoomRely.refl
  rely_trans earlier later :=
    { store := earlier.store.trans later.store
      lock := fun held => by
        obtain ⟨held₁, rooms₁, docs₁⟩ := earlier.lock held
        obtain ⟨held₂, rooms₂, docs₂⟩ := later.lock held₁
        exact ⟨held₂, rooms₂.trans rooms₁, docs₁.trans docs₂⟩
      inRoom := fun member => later.inRoom (earlier.inRoom member) }
  guar_rely different guar := guar _ different
  parked_stable _ _ := trivial
  done_stable rely outside counted := outside (rely.store.outside counted)
  fresh_stable rely outside counted := outside (rely.store.outside counted)

/-! ### Facts of a task -/

/-- A fact of a task that the protocol keeps for it. It depends on the room, the
room lock and what the document in memory contains at least. -/
structure RoomFact (recoverable : Prop) (task : TaskId) (fact : ServerState P → Prop) : Prop where
  stable : ∀ {users server users' server'}, RoomRely task users server users' server' →
    RoomInv recoverable users' server' → fact server → fact server'
  respects : ∀ {server server' : ServerState P}, server'.roomLock = server.roomLock →
    server'.rooms = server.rooms → DocsKept server.store server'.store → fact server → fact server'

/-- The room lock is held, over a room that does not change meanwhile. -/
def LockHeld (task : TaskId) (rooms : Option (List ConnectionInfo)) (server : ServerState P) :
    Prop :=
  server.roomLock = some task ∧ server.rooms = rooms

/-- The room lock is held, and there is a document in memory. -/
def DocumentHeld (task : TaskId) (rooms : Option (List ConnectionInfo))
    (server : ServerState P) : Prop :=
  LockHeld task rooms server ∧ server.store.docs ≠ none

theorem roomFact_true : RoomFact recoverable task (fun _ : ServerState P => True) :=
  ⟨fun _ _ _ => trivial, fun _ _ _ _ => trivial⟩

theorem roomFact_inRoom : RoomFact recoverable task (InRoom task : ServerState P → Prop) where
  stable rely _ member := rely.inRoom member
  respects _ rooms _ member := by
    unfold InRoom connections at member ⊢
    rw [rooms]
    exact member

theorem roomFact_lockHeld (rooms : Option (List ConnectionInfo)) :
    RoomFact recoverable task (LockHeld task rooms : ServerState P → Prop) where
  stable rely _ held := by
    obtain ⟨lock, same, _⟩ := rely.lock held.1
    exact ⟨lock, same.trans held.2⟩
  respects lock rooms _ held := ⟨lock.trans held.1, rooms.trans held.2⟩

theorem roomFact_documentHeld (rooms : Option (List ConnectionInfo)) :
    RoomFact recoverable task (DocumentHeld task rooms : ServerState P → Prop) where
  stable rely inv held :=
    ⟨(roomFact_lockHeld rooms).stable rely inv held.1, (rely.lock held.1.1).2.2.present held.2⟩
  respects lock same docs held := ⟨⟨lock.trans held.1.1, same.trans held.1.2⟩, docs.present held.2⟩

/-- What a task knows between two of its steps. -/
structure At (recoverable : Prop) (task : TaskId) (fact : ServerState P → Prop)
    (users : GuardUsers) (server : ServerState P) : Prop where
  inv : RoomInv recoverable users server
  outside : task ∉ users
  fact : fact server

theorem At.of_rely {fact : ServerState P → Prop} (kept : RoomFact recoverable task fact)
    (before : At recoverable task fact users server)
    (rely : RoomRely task users server users' server') (inv : RoomInv recoverable users' server') :
    At recoverable task fact users' server' :=
  ⟨inv, fun counted => before.outside (rely.store.outside counted),
    kept.stable rely inv before.fact⟩

/-! ### Steps that leave the room alone -/

/-- A step that leaves the manager, the room and its lock alone. -/
structure SameRoom (before after : ServerState P) : Prop where
  store : after.store = before.store
  roomLock : after.roomLock = before.roomLock
  rooms : after.rooms = before.rooms

theorem SameRoom.refl (server : ServerState P) : SameRoom server server := ⟨rfl, rfl, rfl⟩

/-- A step that changes the store within the protocol of the manager, and keeps
its document in memory. -/
theorem roomRely_of_store {other : TaskId} (store : Rely other users server.store users' server'.store)
    (roomLock : server'.roomLock = server.roomLock) (rooms : server'.rooms = server.rooms)
    (docs : DocsKept server.store server'.store) :
    RoomRely other users server users' server' where
  store := store
  lock held := ⟨roomLock.trans held, rooms, docs⟩
  inRoom member := by
    unfold InRoom connections at member ⊢
    rw [rooms]
    exact member

private theorem roomInv_of_store (inv : RoomInv recoverable users server)
    (manager : Inv recoverable users' server'.store)
    (accesses : server'.store.unloadedAccesses = server.store.unloadedAccesses)
    (rooms : server'.rooms = server.rooms) (docs : DocsKept server.store server'.store) :
    RoomInv recoverable users' server' where
  manager := manager
  accesses := accesses.trans inv.accesses
  present nonempty := by
    apply docs.present
    apply inv.present
    unfold connections at nonempty ⊢
    rwa [rooms] at nonempty

theorem SameRoom.rely (same : SameRoom server server') (other : TaskId) :
    RoomRely other users server users server' := by
  refine roomRely_of_store ?_ same.roomLock same.rooms (by rw [same.store]; exact .of_same rfl rfl rfl)
  rw [same.store]
  exact Rely.refl _ _ _

theorem At.of_same {fact : ServerState P → Prop} (kept : RoomFact recoverable task fact)
    (before : At recoverable task fact users server) (same : SameRoom server server') :
    At recoverable task fact users server' where
  inv := roomInv_of_store before.inv (by rw [same.store]; exact before.inv.manager)
    (by rw [same.store]) same.rooms (by rw [same.store]; exact .of_same rfl rfl rfl)
  outside := before.outside
  fact := kept.respects same.roomLock same.rooms (by rw [same.store]; exact .of_same rfl rfl rfl) before.fact

theorem preserves_modifyGet {fact : ServerState P → Prop} (kept : RoomFact recoverable task fact)
    {update : ServerState P → α × ServerState P}
    (same : ∀ server, SameRoom server (update server).2) :
    Preserves (roomProtocol P recoverable) allows task (At recoverable task fact)
      (modifyGet update : ServerProgram P α) :=
  .modifyGet fun users server before =>
    ⟨users, fun other _ => (same server).rely other, before.of_same kept (same server)⟩

theorem preserves_modify {fact : ServerState P → Prop} (kept : RoomFact recoverable task fact)
    {update : ServerState P → ServerState P} (same : ∀ server, SameRoom server (update server)) :
    Preserves (roomProtocol P recoverable) allows task (At recoverable task fact)
      (modify update : ServerProgram P PUnit) :=
  preserves_modifyGet kept same

theorem preserves_query {fact : ServerState P → Prop} (kept : RoomFact recoverable task fact) :
    Queries (roomProtocol P recoverable) allows task (At recoverable task fact) := by
  intro β value
  refine .awaitCall (fun users server before => ⟨before.inv, trivial⟩) ?_
  intro users server users₁ server₁ before rely inv _ event result server₂ _ taken
  have after := before.of_rely kept rely inv
  cases event with
  | received message => cases taken
  | done | raised | raisedAfter =>
      obtain ⟨-, rfl⟩ := Prod.mk.inj (Option.some.inj taken)
      exact ⟨users₁, fun other _ => RoomRely.refl _ _ _, after⟩

/-- An awaited operation that leaves the room alone. -/
theorem preserves_operation {fact : ServerState P → Prop} (kept : RoomFact recoverable task fact)
    (call : Call) {effect : ServerState P → ServerState P}
    (same : ∀ server, SameRoom server (effect server)) :
    Preserves (roomProtocol P recoverable) allows task (At recoverable task fact)
      (operation call effect) := by
  refine .awaitCall (fun users server before => ⟨before.inv, trivial⟩) ?_
  intro users server users₁ server₁ before rely inv _ event result server₂ _ taken
  have after := before.of_rely kept rely inv
  cases event with
  | received message => cases taken
  | raised =>
      obtain ⟨-, rfl⟩ := Prod.mk.inj (Option.some.inj taken)
      exact ⟨users₁, fun other _ => RoomRely.refl _ _ _, after⟩
  | done | raisedAfter =>
      obtain ⟨-, rfl⟩ := Prod.mk.inj (Option.some.inj taken)
      exact ⟨users₁, fun other _ => (same server₁).rely other, after.of_same kept (same server₁)⟩

theorem preserves_send {fact : ServerState P → Prop} (kept : RoomFact recoverable task fact) :
    Sends (roomProtocol P recoverable) allows task (At recoverable task fact) where
  frame _ _ _ := .bind (preserves_modify kept fun _ => ⟨rfl, rfl, rfl⟩) fun _ =>
    preserves_operation kept _ fun _ => ⟨rfl, rfl, rfl⟩
  broadcast _ _ := preserves_modify kept fun _ => ⟨rfl, rfl, rfl⟩
  note _ := preserves_modify kept fun _ => ⟨rfl, rfl, rfl⟩

theorem preserves_close {fact : ServerState P → Prop} (kept : RoomFact recoverable task fact) :
    Closes (roomProtocol P recoverable) allows task (At recoverable task fact) :=
  fun _ _ _ => preserves_operation kept _ fun _ => ⟨rfl, rfl, rfl⟩

/-- What a committed transaction may change: rows, and the time of the document
row. -/
structure RowsOnly (before after : ServerState P) : Prop where
  store : ∃ savedAt, after.store = { before.store with
    saved := { before.store.saved with savedAt := savedAt } }
  roomLock : after.roomLock = before.roomLock
  rooms : after.rooms = before.rooms

/-- The time of the document row is no part of the protocol of the manager. -/
theorem inv_withSavedAt {store : DocStore P} (inv : Inv recoverable users store)
    (savedAt : Option Nat) :
    Inv recoverable users { store with saved := { store.saved with savedAt := savedAt } } where
  guard := ⟨inv.guard.retired, inv.guard.counted, inv.guard.owner, inv.guard.loading⟩
  document := ⟨inv.document.allocated, inv.document.checkpointed_le, inv.document.tracks,
    inv.document.evicted⟩
  loaded := inv.loaded
  recovery possible clean :=
    ⟨(inv.recovery possible clean).stored, (inv.recovery possible clean).checkpoint_le⟩
  writes := inv.writes.of_same rfl rfl le_rfl fun _ _ present => ⟨present, le_rfl⟩

theorem preserves_commit {fact : ServerState P → Prop} (kept : RoomFact recoverable task fact)
    {effect : ServerState P → Option (ServerState P)}
    (rows : ∀ server after, effect server = some after → RowsOnly server after) :
    Preserves (roomProtocol P recoverable) allows task (At recoverable task fact)
      (commit effect) := by
  refine .awaitCall (fun users server before => ⟨before.inv, trivial⟩) ?_
  intro users server users₁ server₁ before rely inv _ event result server₂ _ taken
  have after := before.of_rely kept rely inv
  -- The transaction either took effect or changed nothing.
  have outcome : server₂ = server₁ ∨ effect server₁ = some server₂ := by
    cases event <;> cases effected : effect server₁ <;> simp only [effected] at taken <;>
      first
      | cases taken; done
      | (obtain ⟨-, rfl⟩ := Prod.mk.inj (Option.some.inj taken); simp)
  rcases outcome with rfl | effected
  · exact ⟨users₁, fun other _ => RoomRely.refl _ _ _, after⟩
  · obtain ⟨⟨savedAt, store⟩, roomLock, rooms⟩ := rows _ _ effected
    have docs : DocsKept server₁.store server₂.store := by
      rw [store]
      exact .of_same rfl rfl rfl
    refine ⟨users₁, fun other _ => roomRely_of_store ?_ roomLock rooms docs, ⟨?_, after.outside,
      kept.respects roomLock rooms docs after.fact⟩⟩
    · rw [store]
      exact rely_of_frozen ⟨rfl, rfl, rfl, fun _ => rfl, fun _ _ => rfl, rfl⟩ rfl le_rfl
        (fun _ _ => Evolves.refl _) le_rfl rfl
    · refine roomInv_of_store after.inv ?_ (by rw [store]) rooms docs
      rw [store]
      exact inv_withSavedAt after.inv.manager savedAt

/-! ### Methods of the manager -/

/-- What is allowed for a method of the manager inside the server. -/
def managerAllows (allows : ServerState P → Call → Event P → Prop) (store : DocStore P)
    (call : Call) (event : Event P) : Prop :=
  ∃ server, server.store = store ∧ allows server call event

/-- A read of the checkpoint fails only where PostgreSQL holds its content. -/
def ServerReadable (recoverable : Prop) (allows : ServerState P → Call → Event P → Prop) : Prop :=
  recoverable → ∀ server event, event ≠ .done → allows server .checkpointGet event →
    server.store.checkpointContent ≤ server.store.savedContent

theorem ServerReadable.manager (readable : ServerReadable recoverable allows) :
    CheckpointReadable recoverable (managerAllows allows) := by
  rintro possible _ event raised ⟨server, rfl, allowed⟩
  exact readable possible server event raised allowed

/-- The assertion of a task while it runs a method of the manager, apart from
what that method itself knows. -/
structure RoomFrame (fact : ServerState P → Prop) (server : ServerState P) : Prop where
  accesses : server.store.unloadedAccesses = 0
  present : server.connections ≠ [] → server.store.docs ≠ none
  fact : fact server

/-- A method that does not evict runs inside the protocol of the room. -/
theorem embeds_retaining {fact : ServerState P → Prop} (kept : RoomFact recoverable task fact) :
    Embeds (protocol P recoverable False False) (roomProtocol P recoverable)
      (managerAllows allows) allows task ServerState.store putStore id
      (fun _ server => RoomFrame fact server) where
  get_put _ _ := rfl
  allows allowed := ⟨_, rfl, allowed⟩
  suspend frame inv _ := ⟨⟨inv, frame.accesses, frame.present⟩, trivial⟩
  resume frame rely inv _ :=
    ⟨⟨inv.accesses, inv.present, kept.stable rely inv frame.fact⟩, rely.store, inv.manager, trivial⟩
  step {users server users' part} frame guar := by
    obtain ⟨accesses, _⟩ := guar.quiet id
    have docs : DocsKept server.store part :=
      ⟨guar.keeps id, (guar.rely _ (Nat.succ_ne_self task).symm).nextRef_le,
        fun ref known => ((guar.quiet id).2 ref known).ge⟩
    have fact' : fact (putStore part server) :=
      @RoomFact.respects _ _ _ _ kept server (putStore part server) rfl rfl docs frame.fact
    exact ⟨users', rfl,
      fun other different => roomRely_of_store (guar.rely other different) rfl rfl docs,
      accesses.trans frame.accesses, fun nonempty => docs.present (frame.present nonempty), fact'⟩

/-- A method that may evict runs under the lock of an empty room. -/
theorem embeds_evicting {rooms : Option (List ConnectionInfo)} (empty : rooms.getD [] = []) :
    Embeds (protocol P recoverable True False) (roomProtocol P recoverable)
      (managerAllows allows) allows task ServerState.store putStore id
      (fun _ server => RoomFrame (LockHeld task rooms) server) where
  get_put _ _ := rfl
  allows allowed := ⟨_, rfl, allowed⟩
  suspend frame inv _ := ⟨⟨inv, frame.accesses, frame.present⟩, trivial⟩
  resume frame rely inv _ :=
    ⟨⟨inv.accesses, inv.present, (roomFact_lockHeld rooms).stable rely inv frame.fact⟩, rely.store,
      inv.manager, trivial⟩
  step {users server users' part} frame guar := by
    obtain ⟨accesses, _⟩ := guar.quiet id
    have noConnection : server.connections = [] := by
      unfold connections
      rw [frame.fact.2, empty]
    refine ⟨users', rfl, fun other different => ⟨guar.rely other different, fun held => ?_,
      fun member => member⟩, accesses.trans frame.accesses,
      fun nonempty => absurd noConnection nonempty, frame.fact⟩
    exact absurd (Option.some.inj (frame.fact.1.symm.trans held)) different

/-- The specification of a method of the manager in the server. -/
theorem wp_onManager {evicts : Prop} {fact : ServerState P → Prop} {program : Program P α}
    (post : Except Exn α → DocStore P → Prop)
    (embeds : Embeds (protocol P recoverable evicts False) (roomProtocol P recoverable)
      (managerAllows allows) allows task ServerState.store putStore id
      (fun _ server => RoomFrame fact server))
    (spec : wp (protocol P recoverable evicts False) (managerAllows allows) task program
      (fun result users store => (Inv recoverable users store ∧ task ∉ users) ∧ post result store)
      users server.store)
    (before : At recoverable task fact users server) :
    wp (roomProtocol P recoverable) allows task (onManager program)
      (fun result users server => At recoverable task fact users server ∧ post result server.store)
      users server := by
  refine wp_mono ?_ (wp_focus embeds
    ⟨before.inv.accesses, before.inv.present, before.fact⟩ spec)
  rintro result users₁ server₁ ⟨frame, ⟨manager, outside⟩, holds⟩
  exact ⟨⟨⟨manager, frame.accesses, frame.present⟩, outside, frame.fact⟩, holds⟩

/-- A method of the manager that promises nothing more than the invariant. -/
theorem preserves_onManager {evicts : Prop} {fact : ServerState P → Prop} {program : Program P α}
    (embeds : Embeds (protocol P recoverable evicts False) (roomProtocol P recoverable)
      (managerAllows allows) allows task ServerState.store putStore id
      (fun _ server => RoomFrame fact server))
    (spec : ∀ users store, Inv recoverable users store → task ∉ users →
      wp (protocol P recoverable evicts False) (managerAllows allows) task program
        (fun _ users store => Inv recoverable users store ∧ task ∉ users) users store) :
    Preserves (roomProtocol P recoverable) allows task (At recoverable task fact)
      (onManager program) := by
  intro users server before
  have promised : wp (protocol P recoverable evicts False) (managerAllows allows) task program
      (fun _ users store => (Inv recoverable users store ∧ task ∉ users) ∧ True)
      users server.store :=
    wp_mono (fun _ _ _ holds => ⟨holds, trivial⟩)
      (spec users server.store before.inv.manager before.outside)
  have served := wp_onManager (fun _ _ => True) embeds promised before
  exact wp_mono (fun _ _ _ holds => holds.1) served

/-- A synchronous method on a document in memory. -/
theorem room_method {fact : ServerState P → Prop} {method : DocStore P → α × DocStore P}
    (kept : RoomFact recoverable task fact) (before : At recoverable task fact users server)
    (step : SyncStep recoverable False True users server.store (method server.store).2)
    (accesses : (method server.store).2.unloadedAccesses = server.store.unloadedAccesses) :
    (∀ other, task ≠ other →
      RoomRely other users server users (server.onStore method).2) ∧
      At recoverable task fact users (server.onStore method).2 := by
  have docs : DocsKept server.store (method server.store).2 :=
    ⟨step.keeps id, (step.rely task).nextRef_le, fun ref known => ((step.rely task).live ref known).doc_le⟩
  have fact' : fact (server.onStore method).2 :=
    @RoomFact.respects _ _ _ _ kept server (server.onStore method).2 rfl rfl docs before.fact
  exact ⟨fun other _ => roomRely_of_store (step.rely other) rfl rfl docs,
    roomInv_of_store before.inv step.inv accesses rfl docs, before.outside, fact'⟩

/-! ### The room lock -/

/-- A section under the room lock. -/
theorem wp_withRoomLock {fact : ServerState P → Prop} {body : ServerProgram P α}
    {post : Except Exn α → ServerState P → Prop} (kept : RoomFact recoverable task fact)
    (released : ∀ result server, post result server → post result server.releaseRoomLock)
    (bodySpec : ∀ users server, At recoverable task fact users server →
      server.roomLock = some task →
      wp (roomProtocol P recoverable) allows task body
        (fun result users server =>
          At recoverable task (fun server => server.roomLock = some task) users server ∧
            post result server) users server)
    (before : At recoverable task fact users server) :
    wp (roomProtocol P recoverable) allows task (withRoomLock task body)
      (fun result users server =>
        At recoverable task (fun _ => True) users server ∧ post result server) users server := by
  unfold withRoomLock
  rw [wp_bind]
  refine wp_awaitUntil before.inv trivial fun users₁ server₁ rely inv₁ _ _ server₂ taken => ?_
  have after := before.of_rely kept rely inv₁
  unfold acquireRoomLock at taken
  cases free : server₁.roomLock with
  | some holder => simp [free] at taken
  | none =>
      simp only [free, Option.some.injEq, Prod.mk.injEq, true_and] at taken
      subst taken
      have store : Rely task users₁ server₁.store users₁ server₁.store := Rely.refl _ _ _
      refine ⟨users₁, fun other different => ⟨Rely.refl _ _ _, fun held => ?_,
        fun member => member⟩, ?_⟩
      · rw [free] at held
        cases held
      · rw [thenPost_ok, wp_tryFinally]
        have taken : RoomRely task users₁ server₁ users₁ { server₁ with roomLock := some task } :=
          ⟨store, fun held => (nomatch free.symm.trans held), fun member => member⟩
        have inv₂ : RoomInv recoverable users₁ { server₁ with roomLock := some task } :=
          ⟨inv₁.manager, inv₁.accesses, inv₁.present⟩
        refine wp_mono ?_ (bodySpec _ _ (after.of_rely kept taken inv₂) rfl)
        rintro result users₃ server₃ ⟨held, holds⟩
        refine wp_modify users₃ (fun other different => ⟨Rely.refl _ _ _, fun mine => ?_,
          fun member => member⟩) ⟨⟨⟨held.inv.manager, held.inv.accesses, held.inv.present⟩,
            held.outside, trivial⟩, released _ _ holds⟩
        exact absurd (Option.some.inj (held.fact.symm.trans mine)) different

end Concord.Server
