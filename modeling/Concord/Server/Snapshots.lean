import Concord.Asyncio.OwnSteps
import Concord.Server.HandlerPass
import Concord.Server.Durability

/-!
Contract: the stored snapshots over whole runs of the server.

Owns:
- `Restorable`, what a snapshot row has to be for a restore: the encoding of a
  document, with its size, within the limit;
- the invariant that every stored row is one and stays as it is, through every
  interleaving, failed commits and crashes;
- a restore never answers that a snapshot is too large or that it is invalid.

The rows at the start are of a database that the same program has written.

Does not own: the list of snapshots that a session page shows.
-/

set_option autoImplicit false

namespace Concord.Server

open Asyncio Collaboration ServerState

variable {P : Platform} {α : Type} {task : TaskId}
  {allows : ServerState P → Call → Event P → Prop}

/-! ### The rows -/

structure Restorable (snapshot : Snapshot P) : Prop where
  encoded : ∃ doc, snapshot.documentState = P.getUpdate doc
  sizeBytes : snapshot.sizeBytes = P.size snapshot.documentState
  within : snapshot.sizeBytes ≤ P.crdtMaxUpdateBytes

structure SnapshotRows (P : Platform) where
  snapshots : Nat → Option (Snapshot P)
  nextSnapshot : Nat

def snapshotRows (server : ServerState P) : SnapshotRows P :=
  ⟨server.database.snapshots, server.database.nextSnapshot⟩

namespace SnapshotRows

/-- Every row can be restored, and a new row has a key of its own. -/
structure Sound (rows : SnapshotRows P) : Prop where
  restorable : ∀ {id snapshot}, rows.snapshots id = some snapshot → Restorable snapshot
  unused : ∀ {id}, rows.nextSnapshot ≤ id → rows.snapshots id = none

def Kept (before after : SnapshotRows P) : Prop :=
  ∀ ⦃id snapshot⦄, before.snapshots id = some snapshot → after.snapshots id = some snapshot

theorem Kept.refl (rows : SnapshotRows P) : Kept rows rows := fun _ _ => id

theorem Kept.trans {first second third : SnapshotRows P} (earlier : Kept first second)
    (later : Kept second third) : Kept first third :=
  fun _ _ stored => later (earlier stored)

def insert (documentState : P.Bytes) (rows : SnapshotRows P) : SnapshotRows P where
  snapshots := Function.update rows.snapshots rows.nextSnapshot
    (some ⟨documentState, P.size documentState⟩)
  nextSnapshot := rows.nextSnapshot + 1

private theorem insert_self (documentState : P.Bytes) (rows : SnapshotRows P) :
    (rows.insert documentState).snapshots rows.nextSnapshot =
      some ⟨documentState, P.size documentState⟩ := Function.update_self _ _ _

private theorem insert_of_ne {id : Nat} {rows : SnapshotRows P} (other : id ≠ rows.nextSnapshot)
    (documentState : P.Bytes) :
    (rows.insert documentState).snapshots id = rows.snapshots id :=
  Function.update_of_ne other _ _

/-- A new row of a document within the limit can be restored. -/
theorem Sound.insert {rows : SnapshotRows P} (sound : rows.Sound) {doc : P.Doc}
    (small : P.size (P.getUpdate doc) ≤ P.crdtMaxUpdateBytes) :
    (rows.insert (P.getUpdate doc)).Sound where
  restorable {id snapshot} stored := by
    by_cases new : id = rows.nextSnapshot
    · subst new
      rw [insert_self] at stored
      obtain rfl := Option.some.inj stored
      exact ⟨⟨doc, rfl⟩, rfl, small⟩
    · rw [insert_of_ne new] at stored
      exact sound.restorable stored
  unused {id} beyond := by
    have beyond : rows.nextSnapshot + 1 ≤ id := beyond
    have other : id ≠ rows.nextSnapshot := by omega
    rw [insert_of_ne other]
    apply sound.unused
    omega

theorem Sound.kept_insert {rows : SnapshotRows P} (sound : rows.Sound) (documentState : P.Bytes) :
    rows.Kept (rows.insert documentState) := by
  intro id snapshot stored
  have other : id ≠ rows.nextSnapshot := by
    rintro rfl
    exact nomatch (sound.unused le_rfl).symm.trans stored
  rw [insert_of_ne other]
  exact stored

end SnapshotRows

/-- The rows are in the core, and a step of the core keeps them or adds one. -/
theorem CoreStep.rows {server after : ServerState P} (step : CoreStep (core server) (core after)) :
    snapshotRows after = snapshotRows server ∨
      ∃ doc, P.size (P.getUpdate doc) ≤ P.crdtMaxUpdateBytes ∧
        snapshotRows after = (snapshotRows server).insert (P.getUpdate doc) := by
  have rowsOf : ∀ state : ServerState P, snapshotRows state =
      ⟨(core state).database.snapshots, (core state).database.nextSnapshot⟩ := fun _ => rfl
  rw [rowsOf after, rowsOf server]
  generalize core server = before at step
  generalize core after = now at step
  cases step with
  | method method | membership session members commits savedAt => exact .inl rfl
  | snapshot doc small => exact .inr ⟨doc, small, rfl⟩

/-! ### The protocol -/

/-- Every task keeps the rows, and relies on it. -/
def snapshotProtocol (P : Platform) : Logic Unit (SnapshotRows P) Call where
  inv _ rows := rows.Sound
  rely _ _ before _ after := before.Kept after
  guar _ _ before _ after := before.Kept after

private theorem snapshotProtocol_lawful : (snapshotProtocol P).Lawful where
  rely_refl _ _ rows := .refl rows
  rely_trans := SnapshotRows.Kept.trans
  guar_rely _ kept := kept
  parked_stable _ _ := trivial
  done_stable _ _ := trivial
  fresh_stable _ _ := trivial

private theorem snapshots_standing {calls : Call → Prop} :
    Standing (snapshotProtocol P) calls task fun _ _ => True where
  idle _ rows := .refl rows
  stable _ _ _ := trivial
  parked _ _ := trivial

abbrev snapshotLogic (P : Platform) : Logic Unit (ServerState P) Call :=
  (snapshotProtocol P).over snapshotRows

/-! ### The handlers -/

/-- The steps of the core keep the rows. -/
theorem snapshots_follow :
    FollowsCore (P := P) (snapshotProtocol P) snapshotRows allows task fun _ _ => True where
  standing := snapshots_standing
  step {ghost server after} step knows := by
    have standing : Standing (snapshotProtocol P) Outside task fun _ _ => True := snapshots_standing
    have before : (snapshotRows server).Sound := knows.1
    rcases step.rows with same | ⟨doc, small, rows⟩
    · exact standing.unchanged same knows
    · refine ⟨ghost, ?_, ?_, trivial⟩
      · show SnapshotRows.Kept (snapshotRows server) (snapshotRows after)
        rw [rows]
        exact before.kept_insert _
      · show (snapshotRows after).Sound
        rw [rows]
        exact before.insert small
  load := silent_onManager snapshots_standing (fun _ _ => rfl) (loadFromStorage_awaits task)
  checkpoint := silent_onManager snapshots_standing (fun _ _ => rfl) (checkpointToRedis_awaits task)
  persist := silent_onManager snapshots_standing (fun _ _ => rfl) (persistToDb_awaits task)
  remove := silent_onManager snapshots_standing (fun _ _ => rfl) (checkpointAndRemove_awaits task)

private theorem snapshots_pass :
    HandlerPass (P := P) (snapshotProtocol P) snapshotRows allows task (fun _ _ => True)
      fun _ _ => True :=
  snapshots_follow.pass snapshots_standing fun {server after} database _ => by
    show (⟨(core after).database.snapshots, (core after).database.nextSnapshot⟩ : SnapshotRows P) =
      ⟨(core server).database.snapshots, (core server).database.nextSnapshot⟩
    rw [database]

/-! ### Every run of the server -/

/-- A process that has just started over sound snapshot rows. -/
def BootedOverSnapshots (server : ServerState P) : Prop :=
  Booted server ∧ (snapshotRows server).Sound

section Runs

variable {policy : ServerPolicy P}

private theorem ambient_rows {change : Ambient P} {server after : ServerState P}
    (taken : server.ambient change = some after) : snapshotRows after = snapshotRows server := by
  cases change with
  | tick elapsed =>
      obtain rfl := Option.some.inj taken
      rfl
  | edit websocket change =>
      obtain rfl := Option.some.inj taken
      rfl
  | deliver websocket index =>
      obtain ⟨peer, _, rfl⟩ := Option.map_eq_some_iff.mp taken
      rfl

private theorem snapshots_keeps :
    Keeps (snapshotLogic P) (serverService P) policy BootedOverSnapshots where
  start booted := ⟨(), booted.2, fun _ => trivial⟩
  request {task request ghost server} sound _ _ := by
    refine wp_mono ?_ (snapshots_pass.handler request ghost server ⟨sound, trivial⟩)
    exact fun _ _ _ after => ⟨after.1, trivial⟩
  ambient {change ghost server after} taken sound _ := by
    have same := ambient_rows taken
    refine ⟨(), ?_, fun _ => ?_⟩
    · show (snapshotRows after).Sound
      rw [same]
      exact sound
    · show SnapshotRows.Kept (snapshotRows server) (snapshotRows after)
      rw [same]
      exact .refl _
  restart sound := ⟨(), sound, fun _ => trivial⟩

theorem rows_sound {pool : ServerPool P}
    (reached : Reachable (serverService P) policy BootedOverSnapshots pool) :
    (snapshotRows pool.state).Sound := by
  obtain ⟨_, sound, _⟩ :=
    reached.verified (snapshotProtocol_lawful.over snapshotRows) snapshots_keeps fun _ => trivial
  exact sound

private theorem rows_kept {pool next : ServerPool P}
    (reached : Reachable (serverService P) policy BootedOverSnapshots pool)
    (step : Step (serverService P) policy pool next) :
    SnapshotRows.Kept (snapshotRows pool.state) (snapshotRows next.state) := by
  rcases step.foreign_or_restart with ⟨task, foreign⟩ | rfl
  · obtain ⟨_, _, kept⟩ := reached.relies (snapshotProtocol_lawful.over snapshotRows)
      snapshots_keeps (fun _ => trivial) foreign
    exact kept
  · exact .refl _

/-- **Stored snapshots can be restored for good.** In every run, a snapshot row is the
encoding of a document within the size limit, and no later step of any task, and no
crash, changes or removes it. -/
theorem stored_snapshots_stay {before after : ServerPool P}
    (reached : Reachable (serverService P) policy BootedOverSnapshots before)
    (onward : Relation.ReflTransGen (Step (serverService P) policy) before after) {id : Nat}
    {snapshot : Snapshot P} (stored : before.state.database.snapshots id = some snapshot) :
    Restorable snapshot ∧ after.state.database.snapshots id = some snapshot := by
  refine ⟨(rows_sound reached).restorable stored, ?_⟩
  have along : Reachable (serverService P) policy BootedOverSnapshots after ∧
      SnapshotRows.Kept (snapshotRows before.state) (snapshotRows after.state) := by
    induction onward with
    | refl => exact ⟨reached, .refl _⟩
    | tail _ step inductionHypothesis =>
        obtain ⟨there, kept⟩ := inductionHypothesis
        exact ⟨there.step step, kept.trans (rows_kept there step)⟩
  exact along.2 stored

end Runs

/-! ### A snapshot of the small backend -/

theorem bootedOverSnapshots_sampleServer : BootedOverSnapshots sampleServer :=
  ⟨booted_sampleServer, nofun, fun _ => rfl⟩

/-- User 1 makes a snapshot, up to its commit. -/
def snapshotRun : Schedule :=
  .spawn 0 (.createSnapshot (some 1)) :: (List.replicate 8 .done).map (.resume 0)

theorem stored_snapshots_stay_restart :
    ∃ before : ServerPool editLog, ∃ snapshot,
      before.state.database.snapshots 0 = some snapshot ∧ Restorable snapshot ∧
        (Pool.start (reboot before.state) : ServerPool editLog).state.database.snapshots 0 =
          some snapshot := by
  have made : ((samplePool snapshotRun).bind fun pool =>
      (pool.state.database.snapshots 0).map (·.sizeBytes)) = some 1 := by decide
  obtain ⟨before, played, row⟩ := Option.bind_eq_some_iff.mp made
  obtain ⟨snapshot, stored, _⟩ := Option.map_eq_some_iff.mp row
  have reached : Reachable (serverService editLog) anyEvent BootedOverSnapshots before :=
    Service.reachable_of_play (fun _ _ _ _ _ => trivial) (.start bootedOverSnapshots_sampleServer)
      played
  exact ⟨before, snapshot, stored, stored_snapshots_stay reached (.single .restart) stored⟩

end Concord.Server
