import Concord.Asyncio.Views
import Concord.Server.HandlerRules

/-!
Contract: the shared operations of the handlers under a protocol of a view.

Owns:
- for any protocol of a view, the operations that leave the view alone;
- the commits of a membership, which a view may ignore;
- what the methods of the document manager wait for.

Does not own: a view.
-/

set_option autoImplicit false

namespace Concord.Server

open Asyncio Collaboration ServerState

variable {P : Platform} {α : Type}

/-- Every call but the wait for a message. -/
def Working (call : Call) : Prop := call ≠ .receive

instance (call : Call) : Decidable (Working call) := inferInstanceAs (Decidable (call ≠ .receive))

/-! ### What the manager waits for -/

private theorem serialized_awaits (task : TaskId) {body : Program P α}
    (holds : body.Awaits Working) :
    (serialized task body).Awaits Working := by
  unfold serialized
  refine .bind (fun _ => trivial) fun id => ?_
  refine .tryFinally (.bind ⟨nofun, fun _ => trivial⟩ fun _ => ?_) fun _ => trivial
  exact .tryFinally holds fun _ => trivial

private theorem loadFromStorageLocked_awaits :
    (loadFromStorageLocked : Program P _).Awaits Working := by
  unfold loadFromStorageLocked
  refine .bind (fun _ => trivial) fun store => ?_
  split
  · trivial
  · refine .bind (fun _ => trivial) fun _ => .tryFinally ?_ fun _ => trivial
    refine .bind (.awaitCall nofun _) fun stored => .bind ?_ fun answer => fun _ => trivial
    exact .tryExcept (.bind (.awaitCall nofun _) fun _ => trivial) fun _ => trivial

private theorem checkpointToRedisLocked_awaits :
    (checkpointToRedisLocked : Program P _).Awaits Working := by
  unfold checkpointToRedisLocked
  refine .bind (fun _ => trivial) fun store => ?_
  split
  · trivial
  · exact .bind (.awaitCall nofun _) fun _ => .bind (fun _ => trivial) fun _ => trivial

theorem loadFromStorage_awaits (task : TaskId) :
    (loadFromStorage task : Program P _).Awaits Working :=
  serialized_awaits task loadFromStorageLocked_awaits

theorem checkpointToRedis_awaits (task : TaskId) :
    (checkpointToRedis task : Program P _).Awaits Working :=
  serialized_awaits task checkpointToRedisLocked_awaits

theorem persistToDb_awaits (task : TaskId) : (persistToDb task : Program P _).Awaits Working := by
  apply serialized_awaits
  have rest : ∀ ref : Ref, (do
      let store ← get
      let state := P.getUpdate (store.live ref).doc
      let stateVector := P.getState (store.live ref).doc
      let savedAt := store.clock
      saveExecute
      saveCommit state savedAt
      Coroutine.atomic (DocStore.recordSave ref state stateVector savedAt) :
        Program P (DocumentSaveResult P)).Awaits Working := by
    intro ref
    refine .bind (fun _ => trivial) fun store => ?_
    refine .bind (.awaitCall nofun _) fun _ => .bind (.awaitCall nofun _) fun _ => ?_
    exact .atomic _
  unfold persistToDbLocked
  refine .bind (fun _ => trivial) fun store => ?_
  split
  · exact rest _
  · exact .bind loadFromStorageLocked_awaits rest

theorem checkpointAndRemove_awaits (task : TaskId) :
    (checkpointAndRemove task : Program P _).Awaits Working := by
  apply serialized_awaits
  unfold checkpointAndRemoveLocked
  refine .bind (fun _ => trivial) fun store => ?_
  split
  · trivial
  · refine .bind checkpointToRedisLocked_awaits fun _ => .bind (fun _ => trivial) fun store => ?_
    split
    · trivial
    · exact .bind (fun _ => trivial) fun _ => trivial

/-! ### Commits of a membership -/

section Memberships

variable {V : Type} {view : ServerState P → V} {task : TaskId} {userId : UserId} {role : RoleEnum}
  (ignores : ∀ server database saved, view { server with
    database := database
    store := { server.store with saved := saved } } = view server)

include ignores

theorem insertMember_view (server after : ServerState P)
    (effect : insertMember task userId role server = some after) : view after = view server := by
  unfold insertMember at effect
  split at effect
  · cases effect
  · obtain rfl := Option.some.inj effect
    exact ignores server _ server.store.saved

theorem setRole_view (server after : ServerState P)
    (effect : setRole task userId role server = some after) : view after = view server := by
  unfold setRole at effect
  split at effect
  · cases effect
  · obtain rfl := Option.some.inj effect
    exact ignores server _ server.store.saved

theorem deleteMember_view (server after : ServerState P)
    (effect : deleteMember task userId server = some after) : view after = view server := by
  obtain rfl := Option.some.inj effect
  exact ignores server _ server.store.saved

theorem deactivate_view (server after : ServerState P)
    (effect : deactivate task server = some after) : view after = view server := by
  obtain rfl := Option.some.inj effect
  exact ignores server _ _

end Memberships

/-! ### Operations outside the view -/

/-- The outcomes of a commit: it changes nothing, or takes effect. -/
theorem commit_outcome {effect : ServerState P → Option (ServerState P)} {event : Event P}
    {server server' : ServerState P} {result : Except Exn Unit}
    (taken : (match event, effect server with
      | .received _, _ => none
      | .done, some after => some (.ok (), after)
      | .raisedAfter, some after => some (.error .driver, after)
      | .raised, some _ => some (.error .driver, server)
      | _, none => some (.error .driver, server)) = some (result, server')) :
    (server' = server ∧ result = .error .driver) ∨
      (effect server = some server' ∧
        (result = .ok () ∨ event = .raisedAfter ∧ result = .error .driver)) := by
  cases event <;> cases effected : effect server <;> simp only [effected] at taken <;>
    first
    | cases taken; done
    | (obtain ⟨rfl, rfl⟩ := Prod.mk.inj (Option.some.inj taken); simp)

section Standing

variable {Ghost V : Type} {logic : Logic Ghost V Call} {view : ServerState P → V} {task : TaskId}
  {calls : Call → Prop} {fact : Ghost → V → Prop}
  {allows : ServerState P → Call → Event P → Prop} (standing : Standing logic calls task fact)

include standing

theorem operation_standing {call : Call} (waits : calls call)
    {effect : ServerState P → ServerState P} (same : ∀ server, view (effect server) = view server) :
    Preserves (logic.over view) allows task (logic.Knows view fact) (operation call effect) := by
  apply standing.awaitCall waits
  intro event server result server' taken
  cases event with
  | received message => cases taken
  | raised =>
      obtain ⟨-, rfl⟩ := Prod.mk.inj (Option.some.inj taken)
      rfl
  | done | raisedAfter =>
      obtain ⟨-, rfl⟩ := Prod.mk.inj (Option.some.inj taken)
      exact same server

theorem query_standing (waits : calls .databaseRead) :
    Queries (logic.over view) allows task (logic.Knows view fact) := by
  intro β value
  apply standing.awaitCall waits
  intro event server result server' taken
  cases event with
  | received message => cases taken
  | done | raised | raisedAfter =>
      obtain ⟨-, rfl⟩ := Prod.mk.inj (Option.some.inj taken)
      rfl

theorem close_standing (waits : calls .close)
    (same : ∀ websocket code reason server,
      view (sendClose websocket code reason server) = view server) :
    Closes (logic.over view) allows task (logic.Knows view fact) :=
  fun _ _ _ => operation_standing standing waits (same _ _ _)

theorem send_standing (waits : ∀ sender recipient, calls (.sendBytes sender recipient))
    (same : ∀ websocket frame server, view (send websocket frame server) = view server)
    (noted : ∀ event server, view (note event server) = view server)
    (marked : ∀ sender broadcast server, view (setBroadcast sender broadcast server) = view server) :
    Sends (logic.over view) allows task (logic.Knows view fact) where
  frame sender websocket _ := .bind (standing.modify (noted _)) fun _ =>
    operation_standing standing (waits sender websocket) (same _ _)
  broadcast _ _ := standing.modify (marked _ _)
  note _ := standing.modify (noted _)

private theorem commit_standing (waits : calls .databaseCommit)
    {effect : ServerState P → Option (ServerState P)}
    (same : ∀ server after, effect server = some after → view after = view server) :
    Preserves (logic.over view) allows task (logic.Knows view fact) (commit effect) := by
  apply standing.awaitCall waits
  intro event server result server' taken
  rcases commit_outcome taken with ⟨rfl, _⟩ | ⟨effected, _⟩
  · rfl
  · exact same server server' effected

end Standing

section Silent

variable {Ghost V : Type} {logic : Logic Ghost V Call} {view : ServerState P → V} {task : TaskId}
  {fact : Ghost → V → Prop} {allows : ServerState P → Call → Event P → Prop}
  (standing : Standing logic Working task fact)

include standing

theorem silent_operation {call : Call} (working : Working call)
    {effect : ServerState P → ServerState P} (same : ∀ server, view (effect server) = view server) :
    Preserves (logic.over view) allows task (logic.Knows view fact) (operation call effect) :=
  operation_standing standing working same

theorem silent_query : Queries (logic.over view) allows task (logic.Knows view fact) :=
  query_standing standing (by decide)

/-- What an answered query has read. -/
theorem query_answer {β : Type} {value : ServerState P → β} {ghost : Ghost} {server : ServerState P}
    (knows : logic.Knows view fact ghost server) :
    wp (logic.over view) allows task (query value)
      (fun result ghost server => logic.Knows view fact ghost server ∧
        ∀ answer, result = .ok answer → answer = value server) ghost server := by
  refine wp_awaitCall knows.1 (standing.parked (by decide) knows.2) ?_
  intro ghost₁ server₁ rely inv _ event result server₂ _ taken
  have after : logic.Knows view fact ghost₁ server₁ := ⟨inv, standing.stable rely inv knows.2⟩
  refine ⟨ghost₁, ?_⟩
  cases event with
  | received message => cases taken
  | done =>
      obtain ⟨rfl, rfl⟩ := Prod.mk.inj (Option.some.inj taken)
      exact ⟨standing.idle _ _, after, fun answer same => (Except.ok.inj same).symm⟩
  | raised | raisedAfter =>
      obtain ⟨rfl, rfl⟩ := Prod.mk.inj (Option.some.inj taken)
      exact ⟨standing.idle _ _, after, nofun⟩

theorem silent_close
    (same : ∀ websocket code reason server,
      view (sendClose websocket code reason server) = view server) :
    Closes (logic.over view) allows task (logic.Knows view fact) :=
  close_standing standing (by decide) same

theorem silent_send
    (same : ∀ websocket frame server, view (send websocket frame server) = view server)
    (noted : ∀ event server, view (note event server) = view server)
    (marked : ∀ sender broadcast server, view (setBroadcast sender broadcast server) = view server) :
    Sends (logic.over view) allows task (logic.Knows view fact) :=
  send_standing standing (fun _ _ => nofun) same noted marked

theorem silent_commit {effect : ServerState P → Option (ServerState P)}
    (same : ∀ server after, effect server = some after → view after = view server) :
    Preserves (logic.over view) allows task (logic.Knows view fact) (commit effect) :=
  commit_standing standing (by decide) same

theorem silent_onManager (same : ∀ store server, view (putStore store server) = view server)
    {program : Program P α} (awaits : program.Awaits Working) :
    Preserves (logic.over view) allows task (logic.Knows view fact) (onManager program) :=
  standing.focus same awaits

end Silent

/-- The wait for a message, where the fact of the task allows it. -/
theorem silent_receive {Ghost V : Type} {logic : Logic Ghost V Call} {view : ServerState P → V}
    {task : TaskId} {fact : Ghost → V → Prop} {allows : ServerState P → Call → Event P → Prop}
    (standing : Standing logic (fun _ => True) task fact) :
    Preserves (logic.over view) allows task (logic.Knows view fact) receive := by
  apply standing.awaitCall trivial
  intro event server result server' taken
  cases event with
  | done => cases taken
  | received | raised | raisedAfter =>
      obtain ⟨-, rfl⟩ := Prod.mk.inj (Option.some.inj taken)
      rfl

end Concord.Server
