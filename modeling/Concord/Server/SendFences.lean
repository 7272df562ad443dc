import Concord.Server.ConnectionHandlers
import Concord.Server.Durability

/-!
Contract: what is sent to a connection after a fence.

Owns:
- `NothingThroughFence`: after a connection was marked revoked, no frame is passed
  to its `send_bytes`;
- the condition on a run under which it holds in every state;
- a run that sends the document status through a fence.

Does not own: the frames that the transport drops.
-/

set_option autoImplicit false

namespace Concord.Server

open Asyncio Collaboration ServerState

variable {P : Platform}

instance (later earlier : WireEvent P) : Decidable (BeforeFence later earlier) :=
  match later, earlier with
  | .passed websocket _, .fenced other =>
      decidable_of_iff (websocket ≠ other) ⟨fun different _ _ equal fenced =>
        different ((WireEvent.passed.inj equal).1.trans (WireEvent.fenced.inj fenced).symm),
        fun before equal => before websocket _ rfl (congrArg WireEvent.fenced equal.symm)⟩
  | .passed _ _, .passed _ _ => isTrue fun _ _ _ => nofun
  | .passed _ _, .reported _ => isTrue fun _ _ _ => nofun
  | .passed _ _, .greeted _ => isTrue fun _ _ _ => nofun
  | .fenced _, _ => isTrue fun _ _ => nofun
  | .reported _, _ => isTrue fun _ _ => nofun
  | .greeted _, _ => isTrue fun _ _ => nofun

/-- From the step at which a connection is marked revoked, no step passes a frame
to its `send_bytes`. The history stands newest first. -/
def NothingThroughFence (server : ServerState P) : Prop := server.wire.Pairwise BeforeFence

instance (server : ServerState P) : Decidable (NothingThroughFence server) :=
  inferInstanceAs (Decidable (server.wire.Pairwise BeforeFence))

/-- Where no answered send finds its own handshake fenced with a frame left to
send, or the next recipient of its broadcast fenced, nothing is sent through a
fence. -/
theorem nothing_through_fence {policy : ServerPolicy P}
    (isOpen : ∀ request server sender recipient event,
      policy request server (.sendBytes sender recipient) event →
        OpenSend sender recipient event (connectionView server))
    {pool : ServerPool P} (reached : Reachable (serverService P) policy Booted pool) :
    NothingThroughFence pool.state := by
  have rechecks : ∀ request, Rechecks True (policy request) :=
    fun request _ server sender recipient event => isOpen request server sender recipient event
  exact (serverService_connections rechecks reached).1.ordered trivial

/-- A send is answered while no connection has been fenced. -/
def permitsUnfenced (_ : ServerRequest editLog) (server : ServerState editLog) (call : Call)
    (_ : Event editLog) : Bool :=
  match call with
  | .sendBytes _ _ => server.wire.all fun
      | .fenced _ => false
      | _ => true
  | _ => true

/-- User 2 connects as the second one, joins the room and is greeted. -/
def joinSecond (task : TaskId) : Schedule :=
  .spawn task (.websocket ⟨some (some 2), .session⟩ 9) ::
    [.done, .done, .done, .done, .done, .done, .done].map (.resume task)

def demote (task : TaskId) : Schedule :=
  .spawn task (.updateMemberRole (some 1) 2 .viewer) ::
    [.done, .done, .done, .done, .done, .done].map (.resume task)

/-- Both users are in the room, and user 2 is fenced when user 1 edits. -/
def fencedRun : Schedule :=
  joinFirst 0 .done ++ joinSecond 1 ++ demote 2 ++
    [.resume 0 (.received (.bytes (some (.sync .update (some {2}))))), .resume 2 .done,
      .resume 0 .done]

theorem nothing_through_fence_run :
    ∃ pool, (serverService editLog).play permitsUnfenced fencedRun (Pool.start sampleServer) =
        some pool ∧ pool.state.isRevoked 1 = true ∧ NothingThroughFence pool.state := by
  have fenced : ((serverService editLog).play permitsUnfenced fencedRun
      (Pool.start sampleServer)).map (fun pool => pool.state.isRevoked 1) = some true := by decide
  obtain ⟨pool, played, revoked⟩ := Option.map_eq_some_iff.mp fenced
  have reached : Reachable (serverService editLog)
      (fun request server call event => permitsUnfenced request server call event = true)
      Booted pool :=
    Service.reachable_of_play (fun _ _ _ _ allowed => allowed) (.start booted_sampleServer) played
  refine ⟨pool, played, revoked, nothing_through_fence ?_ reached⟩
  intro request server sender recipient event allowed
  have unfenced : ∀ websocket, .fenced websocket ∉ server.wire :=
    fun websocket marked => nomatch List.all_eq_true.mp allowed _ marked
  exact ⟨fun _ _ _ _ => unfenced sender, fun _ connection _ _ => unfenced connection.websocket⟩

/-- User 2 connects, and is fenced while the first frame of its handshake is under
way. -/
def fencedHandshake : Schedule :=
  .spawn 0 (.websocket ⟨some (some 2), .session⟩ 9) ::
    [.done, .done, .done, .done, .done, .done, .done, .done].map (.resume 0) ++ demote 1

/-- The handshake goes on after the fence: the next frame is passed. -/
theorem handshake_through_fence :
    ¬∀ pool, Reachable (serverService editLog) anyEvent Booted pool →
      NothingThroughFence pool.state := by
  intro holds
  have crossed : (samplePool (fencedHandshake ++ [.resume 0 .done])).map
      (fun pool => decide (NothingThroughFence pool.state)) = some false := by decide
  obtain ⟨pool, played, through⟩ := Option.map_eq_some_iff.mp crossed
  exact of_decide_eq_false through (holds pool (reachable_samplePool played))

/-- A broadcast to both connections is under way when the second is fenced and
leaves, which removes its mark. -/
def fencedBroadcast : Schedule :=
  joinFirst 0 .done ++ joinSecond 1 ++
    .resume 0 (.received (.bytes (some (.sync .update (some {2}))))) :: .resume 0 .done ::
    demote 2 ++ [.resume 2 .done, .resume 1 (.received .disconnect), .resume 1 .done]

-- The broadcast goes on to the connection that has left.
example : (samplePool (fencedBroadcast ++ [.resume 0 .done])).map
    (fun pool => decide (NothingThroughFence pool.state)) = some false := by decide

end Concord.Server
