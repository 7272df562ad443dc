import Concord.Server.DeliveryHandlers
import Concord.Server.Mirrors

/-!
Contract: the replicas of the connections against the document of the server.

Owns:
- the runs in which frames reach the connections and peers tell the truth about
  their state;
- in such runs, the replica of a connection whose sync step 1 was answered has the
  document, where no save fails with an update that the room does not hold yet;
- a run with such a save, after which a replica never gets the update.

Does not own: when frames arrive.
-/

set_option autoImplicit false

namespace Concord.Server

open Asyncio Collaboration ServerState Platform

variable {P : Platform}

/-- What may answer a call: a frame to a connection in the room that is not marked
revoked is sent, and a sync step 1 carries the state vector of something that the
replica of its connection holds. -/
structure Faithful (task : TaskId) (server : ServerState P) (call : Call) (event : Event P) :
    Prop where
  sends : ∀ sender recipient, call = .sendBytes sender recipient →
    (∃ connection ∈ server.connections, connection.websocket = recipient) →
      server.revokedConnections recipient = none → event = .done
  vectors : ∀ payload, call = .receive → event = .received (.bytes (some (.sync .step1 payload))) →
    ∃ known, payload = P.getState known ∧ known ≤ (server.peers task).replica

def faithfulPolicy : ServerTaskPolicy P := fun task _ server call event =>
  Faithful task server call event

/-- And a statement of a save fails only where everyone in the room holds the update of
the save. -/
def deliveringPolicy : ServerTaskPolicy P := fun task request server call event =>
  Faithful task server call event ∧
    ∀ credentials documentState, request = .save credentials documentState →
      call = .saveExecute ∨ call = .saveCommit → event ≠ .done →
        AllHold (content (some documentState)) server

theorem deliveringPolicy_delivers (task : TaskId) (request : ServerRequest P) :
    Delivers task request (deliveringPolicy task request) where
  succeed _ sender recipient _ allowed := allowed.1.sends sender recipient rfl
  honest _ _ allowed payload same := by
    subst same
    exact allowed.1.vectors payload rfl rfl
  held credentials documentState same _ _ _ save allowed failed :=
    allowed.2 credentials documentState same save failed

/-- No handler is running: every task has ended or waits for a message. -/
def Quiescent (pool : ServerPool P) : Prop :=
  ∀ task call, waitsFor pool task = some call → call = .receive

/-- A task that has ended or waits for a message owes nothing. -/
theorem owes_nothing {policy : ServerTaskPolicy P} {post : TaskId → ServerRequest P →
      Post (Debts P) (ServerState P) Exn Unit}
    (ends : ∀ task request result debts server, post task request result debts server →
      debts task = ⊥)
    {pool : ServerPool P} {debts : Debts P} {task : TaskId}
    (meets : TaskMeetsBy (serverDeliveries P) policy post pool debts task)
    (quiescent : Quiescent pool) : debts task = ⊥ := by
  cases running : pool.tasks task with
  | none =>
      simp only [TaskMeetsBy, running] at meets
      exact meets.1
  | some started =>
      obtain ⟨request, program⟩ := started
      cases program with
      | await call act next =>
          refine meets.parked running (quiescent task call ?_)
          unfold waitsFor
          rw [running]
      | ret value | raise exn =>
          simp only [TaskMeetsBy, running] at meets
          exact ends task request _ debts _ meets.2
      | look next | sync update next =>
          simp only [TaskMeetsBy, running] at meets
          exact meets.1.elim

private theorem serverDeliveries_lawful : (serverDeliveries P).Lawful where
  rely_refl := (deliveryProtocol_lawful.over deliveryView).rely_refl
  rely_trans := (deliveryProtocol_lawful.over deliveryView).rely_trans
  guar_rely := (deliveryProtocol_lawful.over deliveryView).guar_rely
  parked_stable := (deliveryProtocol_lawful.over deliveryView).parked_stable
  done_stable := (deliveryProtocol_lawful.over deliveryView).done_stable
  fresh_stable := (deliveryProtocol_lawful.over deliveryView).fresh_stable

/-- Where the handlers keep the protocol, a connection that has its frames is owed nothing
by a server that rests. -/
theorem document_le_replica {policy : ServerTaskPolicy P}
    (delivers : ∀ task request, Delivers task request (policy task request)) {pool : ServerPool P}
    (reached : ReachableBy (serverService P) policy Booted pool)
    (quiescent : Quiescent pool) {connection : ConnectionInfo}
    (joined : connection ∈ pool.state.connections)
    (unrevoked : pool.state.revokedConnections connection.websocket = none)
    (answered : ∃ update, .syncStep2 update ∈ (pool.state.peers connection.websocket).sent)
    (delivered : (pool.state.peers connection.websocket).pending = []) :
    documentContent pool.state.store ≤ (pool.state.peers connection.websocket).replica := by
  have keeps := serverService_keeps_deliveries delivers
  have loose : ∀ {pool : ServerPool P},
      ReachableBy (serverService P) policy Booted pool →
      Reachable (serverService P) anyEvent Booted pool :=
    fun reached => reached.reachable fun _ _ _ _ _ _ => trivial
  have present : ∀ {pool : ServerPool P},
      ReachableBy (serverService P) policy Booted pool → DocumentPresent pool.state := by
    intro pool reached
    obtain ⟨_, inv⟩ := serverService_inv (fun _ => serverReadable_false _) (loose reached)
    exact inv.present
  obtain ⟨debts, inv, tasks⟩ := reached.meets serverDeliveries_lawful keeps present
    (fun task _ => lasts_finished serverDeliveries_lawful task) keeps.request
  have nothing : ∀ task, debts task = ⊥ := fun task =>
    owes_nothing (fun _ _ _ _ _ finished => finished.2) (tasks task) quiescent
  -- In the room, an unmarked connection has not been fenced.
  have unfenced : .fenced connection.websocket ∉ pool.state.wire := fun marked =>
    (@serverService_connections P False _ (fun _ impossible => impossible.elim) _
      (loose reached)).1.fenced _ marked ⟨connection, joined, rfl⟩ unrevoked
  obtain ⟨update, sent⟩ := answered
  refine inv.document connection.websocket ⟨⟨connection, joined, rfl⟩, unfenced⟩
    (inv.sent _ update sent) _ ⟨le_rfl, fun frame pending => ?_⟩ fun task => ?_
  · rw [show (deliveryView pool.state).peers = pool.state.peers from rfl, delivered] at pending
    cases pending
  · rw [nothing task]
    exact bot_le

/-- **Replicas converge to the document.** Where no handler is running, a connection in
the room that is not revoked, whose sync step 1 was answered and whose frames have
arrived, holds the whole document of the server. -/
theorem replicas_hold_the_document {pool : ServerPool P}
    (reached : ReachableBy (serverService P) deliveringPolicy Booted pool)
    (quiescent : Quiescent pool) {connection : ConnectionInfo}
    (joined : connection ∈ pool.state.connections)
    (unrevoked : pool.state.revokedConnections connection.websocket = none)
    (answered : ∃ update, .syncStep2 update ∈ (pool.state.peers connection.websocket).sent)
    (delivered : (pool.state.peers connection.websocket).pending = []) :
    documentContent pool.state.store ≤ (pool.state.peers connection.websocket).replica :=
  document_le_replica deliveringPolicy_delivers reached quiescent joined unrevoked answered
    delivered

/-! ### A save that fails -/

/-- Frames are sent, peers begin with nothing, and the statements of a save may fail
where `failing` says so. -/
def permitsFaithful (failing : Bool) (_ : ServerRequest editLog) (_ : ServerState editLog)
    (call : Call) (event : Event editLog) : Bool :=
  match call, event with
  | .sendBytes _ _, .done | .saveExecute, .done | .saveCommit, .done => true
  | .sendBytes _ _, _ => false
  | .saveExecute, _ | .saveCommit, _ => failing
  | .receive, .received (.bytes (some (.sync .step1 payload))) => decide (payload = some ∅)
  | _, _ => true

theorem faithful_of_permits {failing : Bool} {task : TaskId} {request : ServerRequest editLog}
    {server : ServerState editLog} {call : Call} {event : Event editLog}
    (permitted : permitsFaithful failing request server call event = true) :
    Faithful task server call event where
  sends sender recipient same _ _ := by
    subst same
    cases event with
    | done => rfl
    | _ => cases permitted
  vectors payload same received := by
    subst same received
    exact ⟨∅, of_decide_eq_true permitted, Finset.empty_subset _⟩

private theorem delivering_of_permits {task : TaskId} {request : ServerRequest editLog}
    {server : ServerState editLog} {call : Call} {event : Event editLog}
    (permitted : permitsFaithful false request server call event = true) :
    deliveringPolicy task request server call event := by
  refine ⟨faithful_of_permits permitted, fun _ _ _ save failed => ?_⟩
  rcases save with rfl | rfl <;> cases event <;> first | exact absurd rfl failed | cases permitted

/-- User 1 joins, and its sync step 1 is answered. User 2, which is not connected, saves
an edit; `last` answers what follows the `UPDATE`, and then `frames` frames arrive. -/
def remoteSaveRun (last : List (Event editLog)) (frames : Nat) : Schedule :=
  joinFirst 0 .done ++
    [.received (.bytes (some (.sync .step1 (some ∅)))), .done].map (.resume 0) ++
      .spawn 1 (.save (some 2) (some {2})) ::
        (([.done, .done, .done, .done, .done, .done, .done, .done] : List (Event editLog)) ++
          last).map (.resume 1) ++
          List.replicate frames (.ambient (.deliver 0 0))

def remoteSavePool (failing : Bool) (last : List (Event editLog)) (frames : Nat) :
    Option (ServerPool editLog) :=
  (serverService editLog).play (permitsFaithful failing) (remoteSaveRun last frames)
    (Pool.start sampleServer)

/-- The connection waits for a message, it was answered and its frames have arrived, and
the save has ended. -/
def AllArrived (pool : ServerPool editLog) : Prop :=
  (waitsFor pool 0 = some .receive ∧ waitsFor pool 1 = none) ∧
    (pool.state.connections.map (·.websocket) = [0] ∧ pool.state.isRevoked 0 = false) ∧
      (pool.state.peers 0).sent.any (fun | .syncStep2 _ => true | _ => false) = true ∧
        (pool.state.peers 0).pending.isEmpty = true

instance (pool : ServerPool editLog) : Decidable (AllArrived pool) :=
  inferInstanceAs (Decidable ((_ ∧ _) ∧ (_ ∧ _) ∧ _ ∧ _))

theorem AllArrived.quiescent {pool : ServerPool editLog} (arrived : AllArrived pool)
    (unused : ∀ task, pool.tasks (task + 2) = none) : Quiescent pool := by
  obtain ⟨⟨first, second⟩, _⟩ := arrived
  intro task call waiting
  match task with
  | 0 => exact (Option.some.inj (first.symm.trans waiting)).symm
  | 1 => exact nomatch second.symm.trans waiting
  | task + 2 =>
      unfold waitsFor at waiting
      rw [unused task] at waiting
      cases waiting

/-- The run starts no other task. -/
theorem unused_of_remoteSave {failing : Bool} {last : List (Event editLog)} {frames : Nat}
    {pool : ServerPool editLog} (played : remoteSavePool failing last frames = some pool)
    (task : TaskId) : pool.tasks (task + 2) = none :=
  Service.unused_of_play (fun request => by simp [remoteSaveRun, joinFirst]) rfl played

theorem AllArrived.connection {pool : ServerPool editLog} (arrived : AllArrived pool) :
    ∃ connection ∈ pool.state.connections, connection.websocket = 0 ∧
      pool.state.revokedConnections 0 = none ∧
        (∃ update, .syncStep2 update ∈ (pool.state.peers 0).sent) ∧
          (pool.state.peers 0).pending = [] := by
  obtain ⟨_, ⟨present, unmarked⟩, answers, delivered⟩ := arrived
  have joined : ∃ connection ∈ pool.state.connections, connection.websocket = 0 := by
    apply List.mem_map.mp
    rw [present]
    exact List.mem_singleton_self 0
  obtain ⟨connection, member, named⟩ := joined
  refine ⟨connection, member, named, ?_, ?_, List.isEmpty_iff.mp delivered⟩
  · exact Option.not_isSome_iff_eq_none.mp (Bool.eq_false_iff.mp unmarked)
  · obtain ⟨frame, sent, is⟩ := List.any_eq_true.mp answers
    split at is
    · exact ⟨_, sent⟩
    · cases is

theorem replicas_hold_the_document_run :
    ∃ pool connection, remoteSavePool false [.done, .done, .done, .done, .done] 5 = some pool ∧
      connection ∈ pool.state.connections ∧ documentContent pool.state.store = ({2} : Finset Nat) ∧
        documentContent pool.state.store ≤ (pool.state.peers connection.websocket).replica := by
  have settled : (remoteSavePool false [.done, .done, .done, .done, .done] 5).map (fun pool =>
      decide (AllArrived pool ∧ documentContent pool.state.store = ({2} : Finset Nat))) =
        some true := by
    decide
  obtain ⟨pool, played, facts⟩ := Option.map_eq_some_iff.mp settled
  obtain ⟨arrived, document⟩ := of_decide_eq_true facts
  have reached : ReachableBy (serverService editLog) deliveringPolicy Booted pool :=
    Reachable.forTasks (fun _ _ _ _ _ => delivering_of_permits) (Service.reachable_of_play
      (fun _ _ _ _ permitted => permitted) (.start booted_sampleServer) played)
  obtain ⟨connection, member, named, unrevoked, answered, delivered⟩ := arrived.connection
  rw [← named] at unrevoked answered delivered
  exact ⟨pool, connection, played, member, document, replicas_hold_the_document reached
    (arrived.quiescent (unused_of_remoteSave played)) member unrevoked answered delivered⟩

/-- PostgreSQL refuses the commit of a save. The document of the server has the update by
then, and no frame ever brings it to the connection. -/
theorem replica_misses_failed_save :
    ∃ pool, ReachableBy (serverService editLog) faithfulPolicy Booted pool ∧ Quiescent pool ∧
      ∃ connection ∈ pool.state.connections,
        pool.state.revokedConnections connection.websocket = none ∧
        (∃ update, .syncStep2 update ∈ (pool.state.peers connection.websocket).sent) ∧
        (pool.state.peers connection.websocket).pending = [] ∧
        ¬documentContent pool.state.store ≤ (pool.state.peers connection.websocket).replica := by
  have settled : (remoteSavePool true [.raised] 3).map (fun pool =>
      decide (AllArrived pool ∧
        ¬documentContent pool.state.store ⊆ (pool.state.peers 0).replica)) = some true := by
    decide
  obtain ⟨pool, played, facts⟩ := Option.map_eq_some_iff.mp settled
  obtain ⟨arrived, missing⟩ := of_decide_eq_true facts
  have reached : ReachableBy (serverService editLog) faithfulPolicy Booted pool :=
    Reachable.forTasks (fun _ _ _ _ _ => faithful_of_permits) (Service.reachable_of_play
      (fun _ _ _ _ permitted => permitted) (.start booted_sampleServer) played)
  obtain ⟨connection, member, named, unrevoked, answered, delivered⟩ := arrived.connection
  rw [← named] at unrevoked answered delivered missing
  exact ⟨pool, reached, arrived.quiescent (unused_of_remoteSave played), connection, member,
    unrevoked, answered, delivered, missing⟩

end Concord.Server
