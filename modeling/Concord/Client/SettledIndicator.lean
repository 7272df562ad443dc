import Concord.Client.Comparisons
import Concord.Server.Convergence

/-!
Contract: whether a page that has settled shows whether PostgreSQL holds its document.

Owns:
- `LiveStep`, a page whose Y.Doc is the replica of one connection, beside the backend;
- `LiveInv`, what every run of the two keeps;
- `Informed`, the runs in which nothing withdraws the latest message since it has come;
- a settled page that shows 'saved' shows what PostgreSQL holds, and an informed one
  shows 'saved' where it does;
- the run that leaves 'unsaved' over a document that PostgreSQL holds.

The convergence of the replicas brings what PostgreSQL holds to the Y.Doc, and the
comparisons of the page bring the converse. A `document_saved` frame comes to the page as a
message: any report of the backend, at any time after it, more than once or never. What the
page sends is what the handler of its connection receives, whatever that is.

Does not own: a page that is mounted again or restores a snapshot, and digests that fail.
-/

set_option autoImplicit false

namespace Concord.Client

open Asyncio Platform Server ServerState

variable {P : Platform}

/-! ### A page on a connection -/

/-- Content comes to the Y.Doc of a page, which emits `update` only when it changes. -/
inductive Merges (allowed : SessionPage P → ClientEvent P → Prop) (change : P.Doc)
    (page : SessionPage P) : SessionPage P → Prop where
  | known (held : ∀ editor, page.editor = some editor → change ≤ editor.ydoc) :
      Merges allowed change page page
  | new (differs : ∀ editor, page.editor = some editor → ¬change ≤ editor.ydoc)
      (allows : allowed page (.update change)) :
      Merges allowed change page (page.act (.update change))

/-- After a frame: the provider is synced with an answer to its sync step 1. -/
def SessionPage.afterFrame (frame : ServerFrame P) (page : SessionPage P) : SessionPage P :=
  match frame with
  | .syncStep2 _ => page.act (.sync true)
  | _ => page

/-- The events of a page that keeps its editor, besides those of its Y.Doc and provider.
Its digests succeed. -/
def Routine : ClientEvent P → Prop
  | .documentSaved _ | .digest _ _ true | .save _ | .response _ _ => True
  | _ => False

def SaveWorld.setPeer (own : WebSocket) (peer : Peer P) (world : SaveWorld P) : SaveWorld P :=
  { world with pool := { world.pool with state := world.pool.state.setPeer own peer } }

def SaveWorld.peer (own : WebSocket) (world : SaveWorld P) : Peer P := world.pool.state.peers own

/-- One step of the backend, of the peer of the connection `own`, whose replica is the
Y.Doc of the page, of a message, or of the page. -/
inductive LiveStep (own : WebSocket) (policy : ServerTaskPolicy P)
    (allowed : SessionPage P → ClientEvent P → Prop) : SaveWorld P → SaveWorld P → Prop where
  | server {world : SaveWorld P} {pool : ServerPool P}
      (step : StepBy (serverService P) policy world.pool pool)
      (apart : (pool.state.peers own).replica = (world.peer own).replica) :
      LiveStep own policy allowed world { world with pool := pool }
  | edit {world : SaveWorld P} {change : P.Doc} {page : SessionPage P}
      (merges : Merges allowed change world.page page) :
      LiveStep own policy allowed world
        { world.setPeer own ((world.peer own).edit change) with page := page }
  | receive {world : SaveWorld P} {index : Nat} {frame : ServerFrame P} {peer : Peer P}
      {page : SessionPage P} (there : (world.peer own).pending[index]? = some frame)
      (arrives : (world.peer own).deliver index = some peer)
      (merges : Merges allowed (Peer.frameContent frame) world.page page) :
      LiveStep own policy allowed world
        { world.setPeer own peer with page := page.afterFrame frame }
  | report {world : SaveWorld P} {event : DocumentSaved P}
      (reports : Reports world.pool.state event) :
      LiveStep own policy allowed world { world with frames := event :: world.frames }
  | answer {world : SaveWorld P} {task : TaskId} {credentials : Option UserId}
      {documentState : P.Bytes}
      (returned : world.pool.tasks task = some (.save credentials documentState, .ret ())) :
      LiveStep own policy allowed world { world with answered := documentState :: world.answered }
  | client {world : SaveWorld P} {event : ClientEvent P} (routine : Routine event)
      (arrives : world.Arrives event) (allows : allowed world.page event) :
      LiveStep own policy allowed world { world with page := world.page.act event }

/-- Every event may happen to the page. -/
def Always (_ : SessionPage P) (_ : ClientEvent P) : Prop := True

/-- The worlds of the runs from a new process and a page that has mounted its editor. -/
def LiveReaches (own : WebSocket) (policy : ServerTaskPolicy P) (world : SaveWorld P) : Prop :=
  ∃ state, Booted state ∧ (state.peers own).replica = P.newDoc ∧
    Relation.ReflTransGen (LiveStep own policy Always)
      ⟨Pool.start state, [], [], (SessionPage.opened P).act .mount⟩ world

/-- The worlds in which nothing has withdrawn the latest message since it came. -/
inductive Informed (own : WebSocket) (policy : ServerTaskPolicy P) : SaveWorld P → Prop where
  | arrive {world : SaveWorld P} {event : DocumentSaved P} (reaches : LiveReaches own policy world)
      (sent : event ∈ world.frames) :
      Informed own policy { world with page := world.page.act (.documentSaved event) }
  | step {world next : SaveWorld P} (informed : Informed own policy world)
      (step : LiveStep own policy KeepsMessage world next) : Informed own policy next

namespace SaveWorld

/-- No handler is running, the connection `own` is served and its frames have arrived, and
the synced page awaits neither a response nor a digest. -/
structure Settled (own : WebSocket) (world : SaveWorld P) : Prop where
  quiescent : Quiescent world.pool
  joined : ∃ connection ∈ world.pool.state.connections, connection.websocket = own
  unrevoked : world.pool.state.revokedConnections own = none
  answered : ∃ update, .syncStep2 update ∈ (world.peer own).sent
  delivered : (world.peer own).pending = []
  synced : ∀ editor, world.page.editor = some editor →
    editor.initialSyncComplete = true ∧ editor.comparisons = []
  idle : world.page.saveInFlight = false

def HoldsSaved (world : SaveWorld P) : Prop :=
  ∀ editor, world.page.editor = some editor → editor.ydoc = world.saved

/-- The latest message reports what PostgreSQL holds, as clean. -/
def IsReported (world : SaveWorld P) : Prop :=
  ∀ editor, world.page.editor = some editor → ∃ status, editor.latestSaveStatus = some status ∧
    status.event.dirty = false ∧
      status.event.stateHash = P.stateHash (P.getUpdate world.saved)

end SaveWorld

/-! ### The Y.Doc -/

section YDoc

variable {saved : P.Doc} {page next : SessionPage P} {id : EditorId} {change : P.Doc}
  {allowed : SessionPage P → ClientEvent P → Prop}

private theorem act_update_ydoc (mounted : page.mounted = some id) (change : P.Doc) :
    ((page.act (.update change)).editors id).ydoc = (page.editors id).ydoc ⊔ change := by
  rw [act_update mounted]
  split
  · change ((page.setEditor id _).editors id).ydoc = _
    rw [SessionPage.setEditor_self]
    rfl
  · rw [SessionPage.setEditor_self]
    rfl

private theorem act_sync_ydoc (mounted : page.mounted = some id) :
    ((page.act (.sync true)).editors id).ydoc = (page.editors id).ydoc := by
  rw [act_sync mounted]
  split
  · rfl
  · rw [SessionPage.setEditor_self, Editor.completeSync, publishSaveStatus_ydoc]

/-- Only an update changes the Y.Doc. -/
theorem act_routine_ydoc (inv : MountedInv saved id page) {event : ClientEvent P}
    (routine : Routine event) :
    ((page.act event).editors id).ydoc = (page.editors id).ydoc := by
  cases event with
  | documentSaved event =>
      rw [act_documentSaved inv.mounted]
      change ((page.setEditor id _).editors id).ydoc = _
      rw [SessionPage.setEditor_self, Editor.receiveStatus, publishSaveStatus_ydoc]
  | digest other index succeeds =>
      rw [SessionPage.act]
      have erased : ∀ comparisons, ((page.setEditor other { page.editors other with
          comparisons := comparisons }).editors id).ydoc = (page.editors id).ydoc := by
        intro comparisons
        by_cases same : other = id
        · subst same
          rw [SessionPage.setEditor_self]
        · rw [SessionPage.setEditor_of_ne same]
      dsimp only
      split
      · rfl
      · split
        · exact erased _
        · exact erased _
  | save viewer =>
      change ((page.handleSave viewer).editors id).ydoc = _
      rcases handleSave_cases viewer page with ⟨same, _⟩ | ⟨same, _⟩ | ⟨_, same, _⟩ <;> rw [same]
  | response requestId response =>
      rcases act_response_cases requestId response page with same | ⟨request, _, _, same⟩
      · rw [same]
      · rw [same]
        rcases finishSave_cases request response page with ⟨same, _⟩ | ⟨_, _, same, _⟩ <;> rw [same]
  | _ => exact routine.elim

theorem Merges.ydoc (merges : Merges allowed change page next) (mounted : page.mounted = some id) :
    (next.editors id).ydoc = (page.editors id).ydoc ⊔ change := by
  cases merges with
  | known held =>
      exact (sup_eq_left.mpr (held _ (SessionPage.editor_of_mounted mounted))).symm
  | new => exact act_update_ydoc mounted change

theorem Merges.mountedInv (merges : Merges allowed change page next)
    (inv : MountedInv saved id page) : MountedInv saved id next := by
  cases merges with
  | known => exact inv
  | new => exact inv.update change

theorem Merges.agreement (merges : Merges KeepsMessage change page next)
    (inv : MountedInv saved id page) (shown : ShowsAgreement id page) : ShowsAgreement id next := by
  cases merges with
  | known => exact shown
  | new _ keeps => exact inv.agreement_update keeps

end YDoc

/-! ### Every run -/

structure LiveInv (own : WebSocket) (policy : ServerTaskPolicy P) (world : SaveWorld P) : Prop where
  reached : ReachableBy (serverService P) policy Server.Booted world.pool
  frames : ∀ event ∈ world.frames, Describes world.saved event
  answered : ∀ documentState ∈ world.answered, content (some documentState) ≤ world.saved
  page : MountedInv world.saved 0 world.page
  ydoc : (world.page.editors 0).ydoc = (world.peer own).replica

section Runs

variable {own : WebSocket} {policy : ServerTaskPolicy P} {world next : SaveWorld P}
  {allowed : SessionPage P → ClientEvent P → Prop}

theorem LiveInv.loose (inv : LiveInv own policy world) :
    Reachable (serverService P) anyEvent Server.Booted world.pool :=
  inv.reached.reachable fun _ _ _ _ _ _ => trivial

/-- The peer of the connection and the page take a step together. -/
theorem LiveInv.setPeer (inv : LiveInv own policy world) {peer : Peer P} {page : SessionPage P}
    (moves : StepBy (serverService P) policy world.pool (world.setPeer own peer).pool)
    (keeps : MountedInv world.saved 0 page)
    (same : (page.editors 0).ydoc = peer.replica) :
    LiveInv own policy { world.setPeer own peer with page := page } where
  reached := inv.reached.step moves
  frames := inv.frames
  answered := inv.answered
  page := keeps
  ydoc := by
    have replaced : (world.setPeer own peer).peer own = peer := Function.update_self _ _ _
    change (page.editors 0).ydoc = ((world.setPeer own peer).peer own).replica
    rw [replaced, same]

private theorem afterFrame_mountedInv {saved : P.Doc} {page : SessionPage P}
    (inv : MountedInv saved 0 page)
    (frame : ServerFrame P) :
    MountedInv saved 0 (page.afterFrame frame) ∧
      ((page.afterFrame frame).editors 0).ydoc = (page.editors 0).ydoc := by
  cases frame with
  | syncStep2 update => exact ⟨inv.sync, act_sync_ydoc inv.mounted⟩
  | _ => exact ⟨inv, rfl⟩

theorem LiveInv.step
    (injective : ∀ first second : P.Doc,
      P.stateHash (P.getUpdate first) = P.stateHash (P.getUpdate second) → first = second)
    (inv : LiveInv own policy world) (step : LiveStep own policy allowed world next) :
    LiveInv own policy next := by
  cases step with
  | @server pool step apart =>
      have grows : world.saved ≤ pool.state.store.savedContent :=
        (savedGrows_of_step inv.loose (step.step fun _ _ _ _ _ _ => trivial)).saved_le
      exact {
        reached := inv.reached.step step
        frames := fun event sent => (inv.frames event sent).mono grows
        answered := fun documentState sent => (inv.answered documentState sent).trans grows
        page := inv.page.mono grows
        ydoc := inv.ydoc.trans apart.symm }
  | @edit change page merges =>
      have moves : (serverService P).ambient (.edit own change) world.pool.state =
          some (world.pool.state.setPeer own ((world.peer own).edit change)) := rfl
      refine inv.setPeer (.ambient moves) (merges.mountedInv inv.page) ?_
      rw [merges.ydoc inv.page.mounted, inv.ydoc]
      rfl
  | @receive index frame peer page there arrives merges =>
      have moves : (serverService P).ambient (.deliver own index) world.pool.state =
          some (world.pool.state.setPeer own peer) :=
        Option.map_eq_some_iff.mpr ⟨peer, arrives, rfl⟩
      obtain ⟨keeps, same⟩ := afterFrame_mountedInv (merges.mountedInv inv.page) frame
      refine inv.setPeer (.ambient moves) keeps ?_
      rw [same, merges.ydoc inv.page.mounted, inv.ydoc]
      unfold Peer.deliver at arrives
      rw [there] at arrives
      obtain rfl := Option.some.inj arrives
      rfl
  | @report event reports =>
      refine { inv with frames := fun other sent => ?_ }
      rcases List.mem_cons.mp sent with rfl | sent
      · exact describes_of_reports inv.loose reports
      · exact inv.frames other sent
  | answer returned =>
      refine { inv with answered := fun other sent => ?_ }
      rcases List.mem_cons.mp sent with rfl | sent
      · exact holdsSaved_of_returned inv.loose returned
      · exact inv.answered other sent
  | @client event routine arrives allows =>
      refine { inv with page := ?_, ydoc := (act_routine_ydoc inv.page routine).trans inv.ydoc }
      cases event with
      | documentSaved event => exact inv.page.documentSaved (inv.frames event arrives)
      | digest other index succeeds =>
          cases succeeds with
          | true => exact inv.page.digest injective other index
          | false => exact routine.elim
      | save viewer => exact inv.page.save viewer
      | response requestId response =>
          refine inv.page.response fun answered request pending answers => ?_
          cases response with
          | none => cases answered
          | some response => exact inv.answered _ (arrives request pending answers)
      | _ => exact routine.elim

theorem LiveReaches.inv
    (injective : ∀ first second : P.Doc,
      P.stateHash (P.getUpdate first) = P.stateHash (P.getUpdate second) → first = second)
    (reaches : LiveReaches own policy world) : LiveInv own policy world := by
  obtain ⟨state, booted, empty, steps⟩ := reaches
  induction steps with
  | refl => exact ⟨.start booted, nofun, nofun, mountedInv_opened _, empty.symm⟩
  | tail _ step inductionHypothesis => exact inductionHypothesis.step injective step

/-- While nothing withdraws the latest message, a page that agrees with it will show so. -/
theorem LiveStep.agreement (inv : LiveInv own policy world) (shown : ShowsAgreement 0 world.page)
    (step : LiveStep own policy KeepsMessage world next) : ShowsAgreement 0 next.page := by
  cases step with
  | server | report | answer => exact shown
  | edit merges => exact merges.agreement inv.page shown
  | @receive index frame peer page there arrives merges =>
      have merged := merges.agreement inv.page shown
      cases frame with
      | syncStep2 update => exact (merges.mountedInv inv.page).agreement_sync merged
      | _ => exact merged
  | @client event routine arrives keeps =>
      cases event with
      | documentSaved event => exact inv.page.agreement_documentSaved event
      | digest other index succeeds =>
          cases succeeds with
          | true => exact inv.page.agreement_digest shown other index
          | false => exact routine.elim
      | save viewer => exact inv.page.agreement_save shown viewer
      | response requestId response => exact inv.page.agreement_response shown keeps
      | _ => exact routine.elim

theorem Informed.agreement
    (injective : ∀ first second : P.Doc,
      P.stateHash (P.getUpdate first) = P.stateHash (P.getUpdate second) → first = second)
    (informed : Informed own policy world) :
    LiveInv own policy world ∧ ShowsAgreement 0 world.page := by
  induction informed with
  | arrive reaches sent =>
      have inv := reaches.inv injective
      have step := @LiveStep.client P own policy Always _ (.documentSaved _) trivial sent trivial
      exact ⟨inv.step injective step, inv.page.agreement_documentSaved _⟩
  | step _ step inductionHypothesis =>
      obtain ⟨inv, shown⟩ := inductionHypothesis
      exact ⟨inv.step injective step, step.agreement inv shown⟩

/-- The document of a room with connections has what PostgreSQL holds. -/
theorem saved_le_document {pool : ServerPool P}
    (reached : Reachable (serverService P) anyEvent Server.Booted pool)
    (nonempty : pool.state.connections ≠ []) :
    pool.state.store.savedContent ≤ documentContent pool.state.store := by
  obtain ⟨users, inv⟩ := serverService_inv (fun _ => serverReadable_false _) reached
  obtain ⟨ref, present⟩ := Option.ne_none_iff_exists'.mp (inv.present nonempty)
  rw [documentContent_of_present present]
  exact (inv.manager.document.tracks ref present
    (inv.manager.loaded inv.accesses ref present)).saved_le

/-- **The save indicator settles.** A settled page that shows 'saved' shows what PostgreSQL
holds. Where its Y.Doc is what PostgreSQL holds, it shows 'saved' if the latest message
reports that and nothing has withdrawn the message since it came. -/
theorem save_indicator_settles
    (injective : ∀ first second : P.Doc,
      P.stateHash (P.getUpdate first) = P.stateHash (P.getUpdate second) → first = second)
    (reaches : LiveReaches own deliveringPolicy world) (settled : world.Settled own) :
    (world.page.saveStatus = .saved → world.HoldsSaved) ∧
      (Informed own deliveringPolicy world → world.IsReported → world.HoldsSaved →
        world.page.saveStatus = .saved) := by
  have inv := reaches.inv injective
  have present := SessionPage.editor_of_mounted inv.page.mounted
  obtain ⟨synced, quiet⟩ := settled.synced _ present
  have nothing : ¬(world.page.editors 0).Pending := by
    rintro ⟨comparison, member, _⟩
    rw [quiet] at member
    cases member
  constructor
  · intro shows editor here
    obtain rfl := Option.some.inj (present.symm.trans here)
    apply le_antisymm
    · have justified := inv.page.shown shows
      unfold Editor.Justified at justified
      rw [if_pos synced] at justified
      exact justified.resolve_right nothing
    · obtain ⟨connection, member, rfl⟩ := settled.joined
      calc world.saved
          ≤ documentContent world.pool.state.store :=
            saved_le_document inv.loose (List.ne_nil_of_mem member)
        _ ≤ (world.peer connection.websocket).replica :=
            document_le_replica deliveringPolicy_delivers inv.reached settled.quiescent member
              settled.unrevoked settled.answered settled.delivered
        _ = (world.page.editors 0).ydoc := inv.ydoc.symm
  · intro informed reported holds
    obtain ⟨status, known, clean, hash⟩ := reported _ present
    have agrees : (world.page.editors 0).Agrees := by
      refine ⟨status, known, clean, ?_⟩
      rw [holds _ present]
      exact hash
    rcases (informed.agreement injective).2 synced agrees with shows | pending | inFlight
    · exact shows
    · exact absurd pending nothing
    · exact nomatch settled.idle.symm.trans inFlight

end Runs

/-! ### A save that an edit overtakes -/

/-- Every storage call succeeds, and every call is answered as it should be. -/
def succeedingPolicy : ServerTaskPolicy P := fun task _ server call event =>
  Faithful task server call event ∧ (call ≠ .receive → event = .done)

/-- The calls of the small backend succeed. -/
def permitsSucceeding (request : ServerRequest editLog) (server : ServerState editLog)
    (call : Call) (event : Event editLog) : Bool :=
  permitsFaithful false request server call event &&
    match call, event with
    | .receive, _ => true
    | _, .done => true
    | _, _ => false

/-- One step of a page of the small backend, on the connection 0. -/
inductive LiveMove where
  | server (move : Move (Event editLog) (ServerRequest editLog) (Ambient editLog))
  | edit (change : Finset Nat)
  | receive
  | reportStatus
  | reportSave (username : String)
  | message (index : Nat)
  | digest
  | save
  | answer (task : TaskId)
  | respond (requestId : Nat)

/-- The page after content has come to its Y.Doc. -/
def merge (change : Finset Nat) (page : SessionPage editLog) : SessionPage editLog :=
  match page.editor with
  | none => page
  | some editor => if change ⊆ editor.ydoc then page else page.act (.update change)

def liveMove (world : SaveWorld editLog) : LiveMove → Option (SaveWorld editLog)
  | .server move =>
      ((serverService editLog).move permitsSucceeding move world.pool).bind fun pool =>
        if (pool.state.peers 0).replica = (world.peer 0).replica then
          some { world with pool := pool }
        else none
  | .edit change => some { world.setPeer 0 ((world.peer 0).edit change) with
      page := merge change world.page }
  | .receive =>
      (world.peer 0).pending[0]?.bind fun frame => ((world.peer 0).deliver 0).map fun peer =>
        { world.setPeer 0 peer with
          page := (merge (Peer.frameContent frame) world.page).afterFrame frame }
  | .reportStatus => world.pool.state.store.getDocumentStatus.map fun status =>
      { world with frames := statusFrame status :: world.frames }
  | .reportSave username => world.pool.state.store.returned.head?.map fun saved =>
      { world with frames := savedFrame saved.result username :: world.frames }
  | .message index => world.frames[index]?.map fun event =>
      { world with page := world.page.act (.documentSaved event) }
  | .digest => some { world with page := world.page.act (.digest 0 0 true) }
  | .save => some { world with page := world.page.act (.save false) }
  | .answer task =>
      match world.pool.tasks task with
      | some (.save _ documentState, .ret _) =>
          some { world with answered := documentState :: world.answered }
      | _ => none
  | .respond requestId => world.pool.state.store.returned.head?.bind fun saved =>
      if ∀ request ∈ world.page.requests, request.requestId = requestId →
          request.documentState ∈ world.answered then
        let answer : SaveResponse := ⟨saved.result.savedAt, saved.result.dirty⟩
        some { world with page := world.page.act (.response requestId (some answer)) }
      else none

def livePlay (schedule : List LiveMove) : Option (SaveWorld editLog) :=
  schedule.foldlM liveMove
    ⟨Pool.start sampleServer, [], [], (SessionPage.opened editLog).act .mount⟩

private theorem merges_merge (change : Finset Nat) (page : SessionPage editLog) :
    Merges Always change page (merge change page) := by
  unfold merge
  cases present : page.editor with
  | none =>
      refine .known fun editor here => ?_
      exact nomatch present.symm.trans here
  | some editor =>
      dsimp only
      split
      · next held =>
          refine .known fun other here => ?_
          obtain rfl := Option.some.inj (present.symm.trans here)
          exact held
      · next differs =>
          refine .new (fun other here => ?_) trivial
          obtain rfl := Option.some.inj (present.symm.trans here)
          exact differs

section Plays

variable {policy : ServerTaskPolicy editLog} {world next : SaveWorld editLog}

private theorem liveStep_of_liveMove
    (permitted : ∀ task request state call event,
      permitsSucceeding request state call event = true → policy task request state call event)
    {move : LiveMove} (moved : liveMove world move = some next) :
    LiveStep 0 policy Always world next := by
  cases move with
  | server move =>
      obtain ⟨pool, stepped, rest⟩ := Option.bind_eq_some_iff.mp moved
      split at rest
      · next apart =>
          obtain rfl := Option.some.inj rest
          have step := Service.step_of_move (fun _ _ _ _ => id) stepped
          exact .server (step.forTasks permitted) apart
      · cases rest
  | edit change =>
      obtain rfl := Option.some.inj moved
      exact .edit (merges_merge change world.page)
  | receive =>
      obtain ⟨frame, there, rest⟩ := Option.bind_eq_some_iff.mp moved
      obtain ⟨peer, arrives, rfl⟩ := Option.map_eq_some_iff.mp rest
      exact .receive there arrives (merges_merge _ world.page)
  | reportStatus =>
      obtain ⟨status, current, rfl⟩ := Option.map_eq_some_iff.mp moved
      exact .report (.status current)
  | reportSave username =>
      obtain ⟨saved, last, rfl⟩ := Option.map_eq_some_iff.mp moved
      exact .report (.saved (List.mem_of_head? last) username)
  | message index =>
      obtain ⟨event, sent, rfl⟩ := Option.map_eq_some_iff.mp moved
      exact .client trivial (List.mem_of_getElem? sent) trivial
  | digest =>
      obtain rfl := Option.some.inj moved
      exact .client trivial trivial trivial
  | save =>
      obtain rfl := Option.some.inj moved
      exact .client trivial trivial trivial
  | answer task =>
      simp only [liveMove] at moved
      split at moved
      · next returned =>
          obtain rfl := Option.some.inj moved
          exact .answer returned
      · cases moved
  | respond requestId =>
      obtain ⟨saved, _, rest⟩ := Option.bind_eq_some_iff.mp moved
      split at rest
      · next stored =>
          obtain rfl := Option.some.inj rest
          exact .client trivial stored trivial
      · cases rest

private theorem liveReaches_of_livePlay
    (permitted : ∀ task request state call event,
      permitsSucceeding request state call event = true → policy task request state call event)
    {schedule : List LiveMove} (played : livePlay schedule = some world) :
    LiveReaches 0 policy world := by
  refine ⟨sampleServer, booted_sampleServer, rfl, ?_⟩
  unfold livePlay at played
  generalize (⟨Pool.start sampleServer, [], [], _⟩ : SaveWorld editLog) = start at played ⊢
  induction schedule generalizing start with
  | nil =>
      obtain rfl := Option.some.inj played
      exact .refl
  | cons first rest inductionHypothesis =>
      obtain ⟨middle, moved, played⟩ := Option.bind_eq_some_iff.mp played
      exact .head (liveStep_of_liveMove permitted moved) (inductionHypothesis middle played)

/-- A task that a schedule does not start is not there after it. -/
theorem unused_of_livePlay {task : TaskId} {schedule : List LiveMove}
    (unstarted : ∀ request, .server (.spawn task request) ∉ schedule)
    (played : livePlay schedule = some world) : world.pool.tasks task = none := by
  unfold livePlay at played
  have unused : (⟨Pool.start sampleServer, [], [], (SessionPage.opened editLog).act .mount⟩ :
    SaveWorld editLog).pool.tasks task = none := rfl
  generalize (⟨Pool.start sampleServer, [], [], _⟩ : SaveWorld editLog) = start at played unused
  induction schedule generalizing start with
  | nil =>
      obtain rfl := Option.some.inj played
      exact unused
  | cons first rest inductionHypothesis =>
      obtain ⟨middle, moved, played⟩ := Option.bind_eq_some_iff.mp played
      refine inductionHypothesis (fun request member => unstarted request
        (List.mem_cons_of_mem _ member)) middle played ?_
      cases first with
      | server move =>
          obtain ⟨pool, stepped, rest⟩ := Option.bind_eq_some_iff.mp moved
          split at rest
          · obtain rfl := Option.some.inj rest
            refine Service.unused_of_move (fun request same => ?_) unused stepped
            exact unstarted request (same ▸ List.mem_cons_self)
          · cases rest
      | edit | digest | save =>
          obtain rfl := Option.some.inj moved
          exact unused
      | reportStatus | reportSave | message =>
          obtain ⟨_, _, rfl⟩ := Option.map_eq_some_iff.mp moved
          exact unused
      | receive =>
          obtain ⟨_, _, rest⟩ := Option.bind_eq_some_iff.mp moved
          obtain ⟨_, _, rfl⟩ := Option.map_eq_some_iff.mp rest
          exact unused
      | answer task =>
          simp only [liveMove] at moved
          split at moved
          · obtain rfl := Option.some.inj moved
            exact unused
          · cases moved
      | respond requestId =>
          obtain ⟨_, _, rest⟩ := Option.bind_eq_some_iff.mp moved
          split at rest
          · obtain rfl := Option.some.inj rest
            exact unused
          · cases rest

end Plays

private theorem succeeding_of_permits (task : TaskId) (request : ServerRequest editLog)
    (server : ServerState editLog) (call : Call) (event : Event editLog)
    (permitted : permitsSucceeding request server call event = true) :
    succeedingPolicy task request server call event := by
  obtain ⟨faithful, succeeds⟩ := Bool.and_eq_true_iff.mp permitted
  refine ⟨faithful_of_permits faithful, fun notReceive => ?_⟩
  cases event with
  | done => rfl
  | _ => cases call <;> first | exact absurd rfl notReceive | cases succeeds

private theorem delivering_of_succeeding {task : TaskId} {request : ServerRequest P}
    {server : ServerState P} {call : Call} {event : Event P}
    (succeeds : succeedingPolicy task request server call event) :
    deliveringPolicy task request server call event := by
  refine ⟨succeeds.1, fun _ _ _ save failed => ?_⟩
  rcases save with rfl | rfl <;> exact absurd (succeeds.2 nofun) failed

/-- The connection 0 joins, its sync step 1 is answered, and the frames arrive in order. The
status is compared before the initial sync and again after it. -/
def joinPage : List LiveMove :=
  (joinFirst 0 .done).map .server ++ .reportStatus ::
    ([.received (.bytes (some (.sync .step1 (some ∅)))), .done].map fun event =>
      .server (.resume 0 event)) ++
      [.receive, .receive, .message 0, .receive, .digest, .digest]

/-- The page saves the empty document. Before the request comes to the server, the user
edits, and the edit comes there first. The frames arrive before the response. -/
def overtakenSave : List LiveMove :=
  joinPage ++ [.save, .edit {2}] ++
    (([.received (.bytes (some (.sync .update (some {2})))), .done, .done] :
        List (Event editLog)).map fun event => .server (.resume 0 event)) ++
      .server (.spawn 1 (.save (some 1) (some ∅))) ::
        List.replicate 12 (.server (.resume 1 .done)) ++
          [.reportSave "1", .receive, .receive, .receive, .message 0, .digest, .answer 1,
            .respond 1]

/-- The world has settled, as far as it can be computed. -/
def HasSettled (world : SaveWorld editLog) : Prop :=
  AllArrived world.pool ∧ world.page.saveInFlight = false ∧
    (world.page.editors 0).initialSyncComplete = true ∧
      (world.page.editors 0).comparisons.isEmpty = true

instance (world : SaveWorld editLog) : Decidable (HasSettled world) :=
  inferInstanceAs (Decidable (_ ∧ _ ∧ _ ∧ _))

private theorem editLog_injective (first second : editLog.Doc)
    (same : editLog.stateHash (editLog.getUpdate first) =
      editLog.stateHash (editLog.getUpdate second)) : first = second := Option.some.inj same

theorem HasSettled.settled {world : SaveWorld editLog} (settled : HasSettled world)
    (unused : ∀ task, world.pool.tasks (task + 2) = none)
    (mounted : world.page.mounted = some 0) : world.Settled 0 := by
  obtain ⟨arrived, idle, synced, quiet⟩ := settled
  obtain ⟨connection, member, own, unrevoked, answered, delivered⟩ := arrived.connection
  refine ⟨arrived.quiescent unused, ⟨connection, member, own⟩, unrevoked, answered, delivered,
    fun editor present => ?_, idle⟩
  obtain rfl := Option.some.inj ((SessionPage.editor_of_mounted mounted).symm.trans present)
  exact ⟨synced, List.isEmpty_iff.mp quiet⟩

/-- The user edits, the edit comes to the server, and the page saves it. The frames and the
response arrive. -/
def savedEdit : List LiveMove :=
  joinPage ++ .edit {2} ::
    (([.received (.bytes (some (.sync .update (some {2})))), .done, .done] :
        List (Event editLog)).map fun event => .server (.resume 0 event)) ++
      .save :: .server (.spawn 1 (.save (some 1) (some {2}))) ::
        List.replicate 12 (.server (.resume 1 .done)) ++
          [.reportSave "1", .answer 1, .respond 1, .receive, .receive, .receive]

/-- The message of the save arrives last, and its digest completes. -/
theorem save_indicator_settles_run :
    ∃ world : SaveWorld editLog, livePlay (savedEdit ++ [.message 0, .digest]) = some world ∧
      world.saved = ({2} : Finset Nat) ∧ world.page.saveStatus = .saved ∧ world.HoldsSaved := by
  have facts : (livePlay (savedEdit ++ [.message 0, .digest])).map (fun world =>
      decide (HasSettled world ∧ (world.page.editors 0).ydoc = world.saved ∧
        world.saved = ({2} : Finset Nat) ∧ (world.page.editors 0).latestSaveStatus.map
          (fun status => (status.event.dirty, status.event.stateHash)) =
            some (false, some world.saved))) =
        some true := by
    decide +kernel
  obtain ⟨world, played, holds⟩ := Option.map_eq_some_iff.mp facts
  obtain ⟨hasSettled, held, edited, reported⟩ := of_decide_eq_true holds
  have permitted : ∀ task request server call event,
      permitsSucceeding request server call event = true →
        deliveringPolicy task request server call event := fun _ _ _ _ _ permitted =>
    delivering_of_succeeding (succeeding_of_permits _ _ _ _ _ permitted)
  have reaches : LiveReaches 0 deliveringPolicy world := liveReaches_of_livePlay permitted played
  have mounted := (reaches.inv editLog_injective).page.mounted
  have settled : world.Settled 0 := hasSettled.settled (fun task => unused_of_livePlay
    (fun request => by simp [savedEdit, joinPage, joinFirst]) played) mounted
  have informed : Informed 0 deliveringPolicy world := by
    unfold livePlay at played
    rw [List.foldlM_append] at played
    obtain ⟨joined, before, played⟩ := Option.bind_eq_some_iff.mp played
    obtain ⟨told, arrives, completes⟩ := Option.bind_eq_some_iff.mp played
    obtain ⟨event, sent, rfl⟩ := Option.map_eq_some_iff.mp arrives
    obtain rfl := Option.some.inj completes
    refine .step (.arrive (liveReaches_of_livePlay permitted before) (List.mem_of_getElem? sent)) ?_
    exact .client trivial trivial trivial
  have present := SessionPage.editor_of_mounted mounted
  have shows : world.page.saveStatus = .saved := by
    refine (save_indicator_settles editLog_injective reaches settled).2 informed
      (fun editor here => ?_) fun editor here => ?_
    · obtain rfl := Option.some.inj (present.symm.trans here)
      obtain ⟨status, known, same⟩ := Option.map_eq_some_iff.mp reported
      exact ⟨status, known, (Prod.mk.inj same).1, (Prod.mk.inj same).2⟩
    · obtain rfl := Option.some.inj (present.symm.trans here)
      exact held
  exact ⟨world, played, edited, shows, (save_indicator_settles editLog_injective reaches settled).1 shows⟩

/-- PostgreSQL holds the edit that overtook the save, and the page still shows 'unsaved'. -/
theorem unsaved_indicator_over_saved_document :
    (∀ first second : editLog.Doc, editLog.stateHash (editLog.getUpdate first) =
      editLog.stateHash (editLog.getUpdate second) → first = second) ∧
      ∃ world : SaveWorld editLog, LiveReaches 0 succeedingPolicy world ∧ world.Settled 0 ∧
        ¬(world.page.saveStatus = .saved ↔ world.HoldsSaved) := by
  have facts : (livePlay overtakenSave).map (fun world =>
      decide (HasSettled world ∧ world.page.saveStatus = .unsaved ∧
        (world.page.editors 0).ydoc = world.saved)) = some true := by
    decide
  obtain ⟨world, played, holds⟩ := Option.map_eq_some_iff.mp facts
  obtain ⟨hasSettled, shows, held⟩ := of_decide_eq_true holds
  have reaches : LiveReaches 0 succeedingPolicy world :=
    liveReaches_of_livePlay succeeding_of_permits played
  have mounted := (reaches.inv editLog_injective).page.mounted
  refine ⟨editLog_injective, world, reaches, hasSettled.settled (fun task => unused_of_livePlay
    (fun request => by simp [overtakenSave, joinPage, joinFirst]) played) mounted, fun same => ?_⟩
  have saved : world.page.saveStatus = .saved := by
    refine same.mpr fun editor here => ?_
    obtain rfl := Option.some.inj ((SessionPage.editor_of_mounted mounted).symm.trans here)
    exact held
  rw [shows] at saved
  cases saved

end Concord.Client
