import Concord.Server.State

/-!
Contract: the save indicator of a session page.

Owns:
- the save state of `SessionPage` and its handlers;
- the part of `CollaborativeEditor` that compares its Y.Doc with the last
  `document_saved` message;
- `ClientEvent` and `act`, what happens to one page.

React applies the updates of a state in order, and every change of
`saveInFlightRef` comes with an update of `saveStatus`, so each update is applied
where it is made. A Y.Doc emits `update` only when it changes.

Does not own: who edits the document, and what the server holds.
-/

set_option autoImplicit false

namespace Concord.Client

open Platform

/-! ### The state of a page -/

inductive SaveStatus where
  | idle
  | unsaved
  | saving
  | saved
  | error
  deriving DecidableEq

/-- One mount of `CollaborativeEditor`. -/
abbrev EditorId := Nat

/-- A parsed `document_saved` message with the identity of its object. -/
structure SavedMessage (P : Platform) where
  id : Nat
  event : Server.DocumentSaved P

/-- A digest that is being computed for `publishSaveStatus`. -/
structure Comparison (P : Platform) where
  status : SavedMessage P
  version : Nat
  stateHash : P.Hash

/-- The variables of `handleEditorMount`. -/
structure Editor (P : Platform) where
  ydoc : P.Doc
  latestSaveStatus : Option (SavedMessage P)
  comparisonVersion : Nat
  initialSyncComplete : Bool
  comparisons : List (Comparison P)

structure SaveRequest (P : Platform) where
  requestId : Nat
  versionAtSave : Nat
  documentState : P.Bytes

structure SaveResponse where
  savedAt : Nat
  dirty : Bool

/-- What `SessionPage` keeps of its saves, and the editors that it has mounted. The
function in `getDocumentStateRef` reads the Y.Doc of one editor. -/
structure SessionPage (P : Platform) where
  saveStatus : SaveStatus
  lastSavedAt : Option Nat
  documentReady : Bool
  getDocumentState : Option EditorId
  documentVersion : Nat
  saveRequest : Nat
  saveInFlight : Bool
  requests : List (SaveRequest P)
  editors : EditorId → Editor P
  mounted : Option EditorId
  nextEditor : EditorId
  nextMessage : Nat

variable {P : Platform}

/-! ### The editor -/

namespace Editor

/-- `handleEditorMount`. -/
def create (P : Platform) : Editor P := ⟨P.newDoc, none, 0, false, []⟩

/-- `publishSaveStatus`, up to the digest. -/
def publishSaveStatus (editor : Editor P) : Editor P :=
  match editor.latestSaveStatus with
  | none => editor
  | some status =>
      let version := editor.comparisonVersion + 1
      { editor with
        comparisonVersion := version
        comparisons := ⟨status, version, P.stateHash (P.getUpdate editor.ydoc)⟩ ::
          editor.comparisons }

/-- The `update` event of the Y.Doc, with `handleDocumentUpdate` up to its test. -/
def applyUpdate (change : P.Doc) (editor : Editor P) : Editor P :=
  { editor with ydoc := editor.ydoc ⊔ change, comparisonVersion := editor.comparisonVersion + 1 }

/-- The handler of `document_saved`. -/
def receiveStatus (status : SavedMessage P) (editor : Editor P) : Editor P :=
  { editor with latestSaveStatus := some status }.publishSaveStatus

/-- `handleSync`, as far as the editor goes. -/
def completeSync (editor : Editor P) : Editor P :=
  { editor with initialSyncComplete := true }.publishSaveStatus

/-- The function in `documentCleanupRef`. -/
def cleanup (editor : Editor P) : Editor P :=
  { editor with comparisonVersion := editor.comparisonVersion + 1 }

/-- The test of `publishSaveStatus` after the digest. -/
def isCurrent (comparison : Comparison P) (editor : Editor P) : Bool :=
  comparison.version = editor.comparisonVersion &&
    editor.latestSaveStatus.map (·.id) = some comparison.status.id

end Editor

/-! ### The page -/

namespace SessionPage

def opened (P : Platform) : SessionPage P where
  saveStatus := .idle
  lastSavedAt := none
  documentReady := false
  getDocumentState := none
  documentVersion := 0
  saveRequest := 0
  saveInFlight := false
  requests := []
  editors _ := .create P
  mounted := none
  nextEditor := 0
  nextMessage := 0

def editor (page : SessionPage P) : Option (Editor P) := page.mounted.map page.editors

def setEditor (id : EditorId) (editor : Editor P) (page : SessionPage P) : SessionPage P :=
  { page with editors := Function.update page.editors id editor }

/-- `handleAuthorizationChange`. The new epoch shows as an unmount and a mount. -/
def handleAuthorizationChange (page : SessionPage P) : SessionPage P :=
  { page with
    getDocumentState := none
    documentVersion := 0
    saveRequest := page.saveRequest + 1
    saveInFlight := false
    documentReady := false
    saveStatus := .idle }

def handleDocumentReady (getState : Option EditorId) (page : SessionPage P) : SessionPage P :=
  { page with getDocumentState := getState, documentReady := getState.isSome }

def handleDocumentChange (page : SessionPage P) : SessionPage P :=
  { page with
    documentVersion := page.documentVersion + 1
    saveStatus := if page.saveStatus = .saving then .saving else .unsaved }

def handleSnapshotRestored (page : SessionPage P) : SessionPage P :=
  { page with documentVersion := page.documentVersion + 1, saveStatus := .unsaved }

def handleDocumentSaveStatus (status : Server.DocumentSaved P) (matchesCurrentDocument : Bool)
    (page : SessionPage P) : SessionPage P :=
  let isSaved := !status.dirty && matchesCurrentDocument
  { page with
    lastSavedAt := status.savedAt
    saveStatus := if page.saveInFlight then .saving else if isSaved then .saved else .unsaved }

/-- `handleSave` up to the request, for an effective role that is `viewer` or not. -/
def handleSave (viewer : Bool) (page : SessionPage P) : SessionPage P :=
  if viewer || page.saveInFlight then page
  else
    match page.getDocumentState with
    | none => { page with saveStatus := .error }
    | some id =>
        let requestId := page.saveRequest + 1
        { page with
          saveRequest := requestId
          saveInFlight := true
          saveStatus := .saving
          requests := ⟨requestId, page.documentVersion, P.getUpdate (page.editors id).ydoc⟩ ::
            page.requests }

/-- `handleSave` after the request, which a response answers or which fails. -/
def finishSave (request : SaveRequest P) (response : Option SaveResponse) (page : SessionPage P) :
    SessionPage P :=
  let page := { page with requests := page.requests.filter (·.requestId ≠ request.requestId) }
  if page.saveRequest ≠ request.requestId then page
  else
    match response with
    | none => { page with saveStatus := .error, saveInFlight := false }
    | some response =>
        let isSaved := !response.dirty && page.documentVersion = request.versionAtSave
        { page with
          lastSavedAt := some response.savedAt
          saveStatus := if isSaved then .saved else .unsaved
          saveInFlight := false }

end SessionPage

/-! ### What happens to a page -/

/-- What happens to a page: an editor is mounted or unmounted, its Y.Doc, its provider
or a digest calls back, or the user acts. -/
inductive ClientEvent (P : Platform) where
  | mount
  | unmount
  | update (change : P.Doc)
  | sync (synced : Bool)
  | documentSaved (event : Server.DocumentSaved P)
  | digest (id : EditorId) (index : Nat) (succeeds : Bool)
  | authorizationClose
  | snapshotRestored
  | save (viewer : Bool)
  | response (requestId : Nat) (response : Option SaveResponse)

namespace SessionPage

def onEditor (callback : EditorId → Editor P → SessionPage P → SessionPage P)
    (page : SessionPage P) : SessionPage P :=
  match page.mounted with
  | none => page
  | some id => callback id (page.editors id) page

def act (page : SessionPage P) : ClientEvent P → SessionPage P
  | .mount =>
      match page.mounted with
      | some _ => page
      | none =>
          { page.setEditor page.nextEditor (.create P) with
            mounted := some page.nextEditor
            nextEditor := page.nextEditor + 1 }
  | .unmount =>
      let page := page.onEditor fun id editor page => page.setEditor id editor.cleanup
      handleDocumentReady none { page with mounted := none }
  | .update change => page.onEditor fun id editor page =>
      let page := page.setEditor id (editor.applyUpdate change)
      if editor.initialSyncComplete then page.handleDocumentChange else page
  | .sync synced => page.onEditor fun id editor page =>
      if synced && !editor.initialSyncComplete then
        (page.handleDocumentReady (some id)).setEditor id editor.completeSync
      else page
  | .documentSaved event => page.onEditor fun id editor page =>
      { page.setEditor id (editor.receiveStatus ⟨page.nextMessage, event⟩) with
        nextMessage := page.nextMessage + 1 }
  | .digest id index succeeds =>
      let editor := page.editors id
      match editor.comparisons[index]? with
      | none => page
      | some comparison =>
          let page :=
            page.setEditor id { editor with comparisons := editor.comparisons.eraseIdx index }
          if succeeds && editor.isCurrent comparison then
            page.handleDocumentSaveStatus comparison.status.event
              (comparison.stateHash = comparison.status.event.stateHash)
          else page
  | .authorizationClose => page.onEditor fun _ _ page => page.handleAuthorizationChange
  | .snapshotRestored => page.handleSnapshotRestored
  | .save viewer => page.handleSave viewer
  | .response requestId response =>
      match page.requests.find? (·.requestId = requestId) with
      | none => page
      | some request => page.finishSave request response

end SessionPage

end Concord.Client
