import Concord.Server.Rooms

/-!
Contract: what the invariant of the room says about loaded, clean and stored
documents.

Owns:
- a room with connections runs on a loaded document;
- a clean status means that PostgreSQL holds the document;
- stored content stays recoverable, and the run that loses it.

Does not own: the protocol that these results rest on.
-/

set_option autoImplicit false

namespace Concord.Server

open Asyncio Collaboration Platform ServerState

variable {P : Platform}

/-! ### A small backend -/

/-- A session of user 1 with user 2 as an editor. -/
def sampleDatabase : Database editLog where
  session := some ⟨true, 1, .python⟩
  members user := if user = 1 then some .owner else if user = 2 then some .editor else none
  users user := some (toString user)
  userIds _ := none
  snapshots _ := none
  nextSnapshot := 0
  membershipCommits := []

def sampleServer : ServerState editLog :=
  boot (DocStore.boot "session" ⟨none, none⟩ none 0) sampleDatabase fun _ => ∅

theorem booted_sampleServer : Booted sampleServer :=
  ⟨"session", none, none, none, 0, sampleDatabase, fun _ => ∅, rfl⟩

abbrev Schedule := List (Move (Event editLog) (ServerRequest editLog) (Ambient editLog))

/-- User 1 connects, joins the room and is greeted; `read` answers the Redis get
of the load. -/
def joinFirst (task : TaskId) (read : Event editLog) : Schedule :=
  .spawn task (.websocket ⟨some (some 1), .session⟩ 9) ::
    [.done, .done, .done, .done, .done, .done, read, .done, .done].map (.resume task)

/-- The only connection sends an update, and the room broadcasts it. -/
def sendUpdate (task : TaskId) (update : Finset Nat) : Schedule :=
  [.received (.bytes (some (.sync .update (some update)))), .done, .done].map (.resume task)

/-- The only connection leaves, and its document is checkpointed. -/
def leaveLast (task : TaskId) : Schedule :=
  [.received .disconnect, .done, .done, .done].map (.resume task)

def samplePool (schedule : Schedule) : Option (ServerPool editLog) :=
  (serverService editLog).play permitsAll schedule (Pool.start sampleServer)

theorem reachable_samplePool {schedule : Schedule} {pool : ServerPool editLog}
    (played : samplePool schedule = some pool) :
    Reachable (serverService editLog) anyEvent Booted pool :=
  Service.reachable_of_play (fun _ _ _ _ _ => trivial) (.start booted_sampleServer) played

/-! ### Loaded documents -/

/-- The document was published by a load that had merged the save of PostgreSQL
and, where Redis could be read, the checkpoint. -/
def PublishedByLoad (live : LiveDocument P) : Prop :=
  ∃ saved checkpoint readable, live.origin = .loaded saved checkpoint readable ∧
    content saved ≤ live.doc ∧ (readable = true → content checkpoint ≤ live.doc)

private theorem publishedByLoad_of_inv {users : GuardUsers} {server : ServerState P}
    (inv : RoomInv False users server) {ref : Ref} (present : server.store.docs = some ref) :
    PublishedByLoad (server.store.live ref) := by
  have loaded := inv.manager.loaded inv.accesses ref present
  have tracks := inv.manager.document.tracks ref present loaded
  cases origin : (server.store.live ref).origin with
  | created => simp [LiveDocument.Loaded, origin] at loaded
  | loaded saved checkpoint readable =>
      exact ⟨saved, checkpoint, readable, origin, tracks.merged _ _ _ origin⟩

/-- A room with connections has a loaded document in memory, and `get_or_create`
has never met a session without one. -/
theorem room_has_loaded_document {pool : ServerPool P}
    (reached : Reachable (serverService P) anyEvent Booted pool) :
    (pool.state.connections ≠ [] → ∃ ref, pool.state.store.docs = some ref ∧
      PublishedByLoad (pool.state.store.live ref)) ∧
      pool.state.store.unloadedAccesses = 0 := by
  obtain ⟨users, inv⟩ := serverService_inv (fun _ => serverReadable_false _) reached
  refine ⟨?_, inv.accesses⟩
  intro nonempty
  obtain ⟨ref, present⟩ := Option.ne_none_iff_exists'.mp (inv.present nonempty)
  exact ⟨ref, present, publishedByLoad_of_inv inv present⟩

theorem room_has_loaded_document_run :
    ∃ pool, samplePool (joinFirst 0 .done ++ sendUpdate 0 {2}) = some pool ∧
      pool.state.connections ≠ [] ∧ ∃ ref, pool.state.store.docs = some ref ∧
        PublishedByLoad (pool.state.store.live ref) := by
  have joined : (samplePool (joinFirst 0 .done ++ sendUpdate 0 {2})).map
      (fun pool => pool.state.connections.length) = some 1 := by decide
  obtain ⟨pool, played, one⟩ := Option.map_eq_some_iff.mp joined
  have nonempty : pool.state.connections ≠ [] := List.ne_nil_of_length_eq_add_one one
  exact ⟨pool, played, nonempty,
    (room_has_loaded_document (reachable_samplePool played)).1 nonempty⟩

/-! ### Clean documents -/

private theorem savedContent_of_clean {users : GuardUsers} {server : ServerState P}
    (injective : ∀ first second : P.Doc,
      P.stateHash (P.getUpdate first) = P.stateHash (P.getUpdate second) → first = second)
    (inv : RoomInv False users server) {ref : Ref} (present : server.store.docs = some ref)
    (clean : DocStore.isDirty (server.store.live ref) = false) :
    (server.store.live ref).doc = server.store.savedContent := by
  have loaded := inv.manager.loaded inv.accesses ref present
  have tracks := inv.manager.document.tracks ref present loaded
  obtain ⟨state, hash, state_le⟩ := tracks.hash
  have sameHash : P.stateHash (P.getUpdate (server.store.live ref).doc) =
      P.stateHash (P.getUpdate state) := by
    rw [← hash]
    simpa [DocStore.isDirty] using clean
  have same := injective _ _ sameHash
  apply le_antisymm
  · rw [same]
    exact state_le
  · exact tracks.saved_le

/-- Where the status of the document says that it is clean, the document equals
what PostgreSQL holds. -/
theorem clean_document_is_saved
    (injective : ∀ first second : P.Doc,
      P.stateHash (P.getUpdate first) = P.stateHash (P.getUpdate second) → first = second)
    {pool : ServerPool P} (reached : Reachable (serverService P) anyEvent Booted pool) :
    ∀ status, pool.state.store.getDocumentStatus = some status → status.dirty = false →
      ∃ live, pool.state.store.document = some live ∧
        live.doc = content pool.state.store.saved.state := by
  obtain ⟨users, inv⟩ := serverService_inv (fun _ => serverReadable_false _) reached
  intro status answered clean
  unfold DocStore.getDocumentStatus at answered
  obtain ⟨live, inMemory, rfl⟩ := Option.map_eq_some_iff.mp answered
  refine ⟨live, inMemory, ?_⟩
  obtain ⟨ref, present, rfl⟩ := Option.map_eq_some_iff.mp inMemory
  exact savedContent_of_clean injective inv present clean

/-- User 1 joins, sends an update and saves the document as it is then. -/
def saveRun : Schedule :=
  joinFirst 0 .done ++ sendUpdate 0 {2} ++ .spawn 1 (.save (some 1) (some {2})) ::
    [.done, .done, .done, .done, .done, .done, .done, .done, .done, .done, .done].map (.resume 1)

theorem clean_document_is_saved_run :
    ∃ pool live, samplePool saveRun = some pool ∧ pool.state.store.document = some live ∧
      live.doc = {2} ∧ live.doc = content pool.state.store.saved.state := by
  have saved : (samplePool saveRun).map (fun pool =>
      (pool.state.store.getDocumentStatus.map (·.dirty), pool.state.store.document.map (·.doc))) =
        some (some false, some {2}) := by decide
  obtain ⟨pool, played, facts⟩ := Option.map_eq_some_iff.mp saved
  obtain ⟨answered, inMemory⟩ := Prod.mk.inj facts
  obtain ⟨status, reported, clean⟩ := Option.map_eq_some_iff.mp answered
  obtain ⟨live, present, edited⟩ := Option.map_eq_some_iff.mp inMemory
  have injective : ∀ first second : editLog.Doc,
      editLog.stateHash (editLog.getUpdate first) = editLog.stateHash (editLog.getUpdate second) →
        first = second := fun _ _ same => Option.some.inj same
  obtain ⟨live', present', same⟩ :=
    clean_document_is_saved injective (reachable_samplePool played) status reported clean
  obtain rfl := Option.some.inj (present.symm.trans present')
  exact ⟨pool, live, played, present, edited, same⟩

/-! ### Stored content -/

/-- While no load misses a checkpoint that PostgreSQL does not hold, everything
that a checkpoint or a save has stored stays in the two stores. -/
theorem stored_content_is_recoverable {policy : ServerPolicy P}
    (readable : ∀ request state event, event ≠ .done →
      policy request state .checkpointGet event →
        state.store.checkpointContent ≤ state.store.savedContent)
    {pool : ServerPool P} (reached : Reachable (serverService P) policy Booted pool) :
    ∀ state ∈ pool.state.store.stored,
      state ≤ content pool.state.store.saved.state ⊔ content pool.state.store.checkpoint := by
  have serverReadable : ∀ request, ServerReadable True (policy request) :=
    fun request _ state event raised allowed => readable request state event raised allowed
  obtain ⟨users, inv⟩ := serverService_inv serverReadable reached
  exact (inv.manager.recovery trivial inv.accesses).stored

/-- Redis fails only where PostgreSQL holds the checkpoint. -/
def permitsReadable (_ : ServerRequest editLog) (server : ServerState editLog) (call : Call)
    (event : Event editLog) : Bool :=
  match call, event with
  | .checkpointGet, .done => true
  | .checkpointGet, _ => server.store.checkpointContent ⊆ server.store.savedContent
  | _, _ => true

/-- User 1 saves the document, whose checkpoint Redis holds too; the process
crashes, and Redis fails for the next load. -/
def outageRun : Schedule :=
  saveRun ++ [.restart] ++ joinFirst 0 .raised ++ leaveLast 0

theorem stored_content_is_recoverable_run :
    ∃ pool, (serverService editLog).play permitsReadable outageRun (Pool.start sampleServer) =
        some pool ∧ pool.state.store.stored = [{2}, {2}, {2}] ∧
      ∀ state ∈ pool.state.store.stored,
        state ≤ content pool.state.store.saved.state ⊔ content pool.state.store.checkpoint := by
  have survived : ((serverService editLog).play permitsReadable outageRun
      (Pool.start sampleServer)).map (fun pool => pool.state.store.stored) =
        some [{2}, {2}, {2}] := by decide
  obtain ⟨pool, played, stored⟩ := Option.map_eq_some_iff.mp survived
  have reached : Reachable (serverService editLog)
      (fun request server call event => permitsReadable request server call event = true)
      Booted pool :=
    Service.reachable_of_play (fun _ _ _ _ allowed => allowed) (.start booted_sampleServer) played
  refine ⟨pool, played, stored, stored_content_is_recoverable ?_ reached⟩
  intro request server event raised allowed
  cases event with
  | done => exact absurd rfl raised
  | raised | raisedAfter | received => exact of_decide_eq_true allowed

/-- The checkpoint that the first connection leaves is overwritten when Redis
raises for the load of the second one. -/
def lossRun : Schedule :=
  joinFirst 0 .done ++ sendUpdate 0 {2} ++ leaveLast 0 ++ joinFirst 1 .raised ++ leaveLast 1

/-- After a load that could not read Redis, the next checkpoint replaces content
that only Redis held. -/
theorem stored_content_lost :
    ∃ pool, Reachable (serverService editLog) anyEvent Booted pool ∧
      ∃ state ∈ pool.state.store.stored,
        ¬state ≤ content pool.state.store.saved.state ⊔ content pool.state.store.checkpoint := by
  have lost : (samplePool lossRun).map (fun pool => (pool.state.store.stored,
      content pool.state.store.saved.state ⊔ content pool.state.store.checkpoint)) =
        some ([∅, {2}], ∅) := by decide
  obtain ⟨pool, played, facts⟩ := Option.map_eq_some_iff.mp lost
  obtain ⟨stored, cover⟩ := Prod.mk.inj facts
  refine ⟨pool, reachable_samplePool played, {2}, ?_, ?_⟩
  · rw [stored]
    decide
  · rw [cover]
    decide

end Concord.Server
