import Concord.Client.Edits

/-!
Contract: the binding of a Monaco model and a Y.Text.

Owns:
- positions of lines and columns, in which the binding addresses the model;
- `YText`, what the binding relies on of a Y.Text;
- the two listeners of `YMonacoBinding`, which call each other through the edits
  that they make, and the flag that ends this;
- that model and Y.Text stay equal.

Selections and decorations do not change a text. They are left out, but for the
listener that takes the flag.

Does not own: the updates of a document.
-/

set_option autoImplicit false

namespace Concord.Client

/-- A text as JavaScript has it. -/
abbrev Utf16 := List UInt16

/-! ### Positions -/

structure Position where
  lineNumber : Nat
  column : Nat
  deriving DecidableEq, Repr

def newline : UInt16 := 10

/-- `model.getPositionAt`. -/
def getPositionAt : Utf16 → Nat → Position
  | [], _ => ⟨1, 1⟩
  | _, 0 => ⟨1, 1⟩
  | unit :: rest, offset + 1 =>
      let position := getPositionAt rest offset
      if unit = newline then ⟨position.lineNumber + 1, position.column⟩
      else if position.lineNumber = 1 then ⟨1, position.column + 1⟩
      else position

/-- `model.getOffsetAt` of a position of the text. -/
def getOffsetAt : Utf16 → Position → Nat
  | [], position => position.column - 1
  | unit :: rest, position =>
      if position.lineNumber ≤ 1 then position.column - 1
      else if unit = newline then getOffsetAt rest ⟨position.lineNumber - 1, position.column⟩ + 1
      else getOffsetAt rest position + 1

private theorem getPositionAt_pos (text : Utf16) (offset : Nat) :
    1 ≤ (getPositionAt text offset).lineNumber ∧ 1 ≤ (getPositionAt text offset).column := by
  induction text generalizing offset with
  | nil => exact ⟨Nat.le_refl _, Nat.le_refl _⟩
  | cons unit rest inductionHypothesis =>
      cases offset with
      | zero => exact ⟨Nat.le_refl _, Nat.le_refl _⟩
      | succ offset =>
          obtain ⟨line, column⟩ := inductionHypothesis offset
          unfold getPositionAt
          dsimp only
          split
          · exact ⟨Nat.le_succ_of_le line, column⟩
          split
          · exact ⟨Nat.le_refl _, Nat.le_succ_of_le column⟩
          · exact ⟨line, column⟩

/-- On the first line the column tells the offset. -/
theorem getOffsetAt_first (text : Utf16) {position : Position} (first : position.lineNumber = 1) :
    getOffsetAt text position = position.column - 1 := by
  cases text with
  | nil => rfl
  | cons unit rest =>
      unfold getOffsetAt
      rw [if_pos first.le]

/-- The position of an offset leads back to it. -/
theorem getOffsetAt_getPositionAt {text : Utf16} {offset : Nat} (inside : offset ≤ text.length) :
    getOffsetAt text (getPositionAt text offset) = offset := by
  induction text generalizing offset with
  | nil =>
      obtain rfl := Nat.le_zero.mp inside
      rfl
  | cons unit rest inductionHypothesis =>
      cases offset with
      | zero => rfl
      | succ offset =>
          have back := inductionHypothesis (Nat.le_of_succ_le_succ inside)
          obtain ⟨line, column⟩ := getPositionAt_pos rest offset
          unfold getPositionAt
          dsimp only
          by_cases ends : unit = newline
          · rw [if_pos ends]
            unfold getOffsetAt
            rw [if_neg (by dsimp only; omega), if_pos ends, Nat.add_sub_cancel, back]
          · rw [if_neg ends]
            by_cases first : (getPositionAt rest offset).lineNumber = 1
            · rw [getOffsetAt_first rest first] at back
              rw [if_pos first, getOffsetAt_first _ rfl]
              dsimp only
              omega
            · rw [if_neg first]
              unfold getOffsetAt
              rw [if_neg (by omega), if_neg ends, back]

/-! ### The shared text -/

/-- A Y.Text: its content, its two edits, whose indices count UTF-16 units, and the
delta of the event of a transaction, if it changed the text. -/
structure YText where
  State : Type
  toText : State → Utf16
  insert : Nat → Utf16 → State → State
  delete : Nat → Nat → State → State
  transactionEvent : State → State → Option (List (DeltaOperation UInt16))
  toText_insert : ∀ index text state, index ≤ (toText state).length →
    toText (insert index text state) =
      (toText state).take index ++ text ++ (toText state).drop index
  toText_delete : ∀ index length state, index + length ≤ (toText state).length →
    toText (delete index length state) =
      (toText state).take index ++ (toText state).drop (index + length)

variable {Y : YText}

/-- The model, the Y.Text and the flag of a binding. The numbers of edits that the
binding has made on each side are history. -/
structure Binding (Y : YText) where
  model : Utf16
  ytext : Y.State
  applying : Bool
  modelEdits : Nat
  textEdits : Nat

/-- What the binding listens to: changes of the model, and events of the Y.Text. -/
inductive Notification where
  | contentChange (changes : List (Change UInt16))
  | textEvent (delta : List (DeltaOperation UInt16))

namespace Binding

def withMutex (action : Binding Y → Option (Binding Y)) (binding : Binding Y) :
    Option (Binding Y) :=
  if binding.applying then some binding
  else do
    let binding ← action { binding with applying := true }
    pure { binding with applying := false }

/-- `captureSelections`, before every transaction. -/
def captureSelections : Binding Y → Option (Binding Y) := withMutex some

/-- One change of a content change event, on the Y.Text. -/
def replayChange (binding : Binding Y) (change : Change UInt16) : Binding Y :=
  { binding with
    ytext := Y.insert change.offset change.text (Y.delete change.offset change.length binding.ytext)
    textEdits := binding.textEdits + 1 }

/-- `[...event.changes].sort(…)`. -/
def sortChanges (changes : List (Change UInt16)) : List (Change UInt16) :=
  changes.mergeSort fun left right => right.offset ≤ left.offset

/-- The listener of `onDidChangeContent`: one transaction, after which the Y.Text
notifies its observers. -/
def replayChanges (notify : Notification → Binding Y → Option (Binding Y))
    (changes : List (Change UInt16)) (binding : Binding Y) : Option (Binding Y) := do
  let binding ← captureSelections binding
  let after := (sortChanges changes).foldl replayChange binding
  match Y.transactionEvent binding.ytext after.ytext with
  | none => pure after
  | some delta => notify (.textEvent delta) after

/-- `model.applyEdits` of one edit, which notifies the listeners of the model. -/
def applyEdits (notify : Notification → Binding Y → Option (Binding Y)) (start stop : Position)
    (text : Utf16) (binding : Binding Y) : Option (Binding Y) :=
  let offset := getOffsetAt binding.model start
  let change : Change UInt16 := ⟨offset, getOffsetAt binding.model stop - offset, text⟩
  notify (.contentChange [change]) { binding with
    model := splice change binding.model
    modelEdits := binding.modelEdits + 1 }

/-- The loop of `applyYjsChanges`. -/
def replayDelta (notify : Notification → Binding Y → Option (Binding Y)) :
    List (DeltaOperation UInt16) → Nat → Binding Y → Option (Binding Y)
  | [], _, binding => pure binding
  | .retain count :: rest, index, binding => replayDelta notify rest (index + count) binding
  | .insert text :: rest, index, binding => do
      let position := getPositionAt binding.model index
      let binding ← applyEdits notify position position text binding
      replayDelta notify rest (index + text.length) binding
  | .delete count :: rest, index, binding => do
      let start := getPositionAt binding.model index
      let stop := getPositionAt binding.model (index + count)
      let binding ← applyEdits notify start stop [] binding
      replayDelta notify rest index binding

/-- The listeners of the binding, which are called synchronously. The number bounds
how deep their calls are nested; none where it is too small. -/
def notify : Nat → Notification → Binding Y → Option (Binding Y)
  | 0, _, _ => none
  | depth + 1, .contentChange changes, binding =>
      withMutex (replayChanges (notify depth) changes) binding
  | depth + 1, .textEvent delta, binding => withMutex (replayDelta (notify depth) delta 0) binding

def create (ytext : Y.State) (model : Utf16) : Binding Y :=
  ⟨if model ≠ Y.toText ytext then Y.toText ytext else model, ytext, false, 0, 0⟩

end Binding

/-! ### Events -/

/-- An edit in the editor, or a transaction from elsewhere with its delta and the
Y.Text after it. -/
inductive EditorEvent (Y : YText) where
  | edited (changes : List (Change UInt16))
  | received (delta : List (DeltaOperation UInt16)) (after : Y.State)

namespace EditorEvent

/-- The event refers to the texts of the binding. -/
def Valid (binding : Binding Y) : EditorEvent Y → Prop
  | edited changes => ValidChanges changes binding.model
  | received delta after => ValidDelta delta (Y.toText binding.ytext) ∧
      Y.toText after = applyDelta delta (Y.toText binding.ytext)

def result (text : Utf16) : EditorEvent Y → Utf16
  | edited changes => simultaneous changes text
  | received delta _ => applyDelta delta text

def textEdits : EditorEvent Y → Nat
  | edited changes => changes.length
  | received _ _ => 0

def modelEdits : EditorEvent Y → Nat
  | edited _ => 0
  | received delta _ => (delta.filter (·.changesText)).length

/-- The side where the event happens changes first, then the listeners are called. -/
def handle (depth : Nat) (event : EditorEvent Y) (binding : Binding Y) : Option (Binding Y) :=
  match event with
  | edited changes =>
      Binding.notify depth (.contentChange changes)
        { binding with model := simultaneous changes binding.model }
  | received delta after => do
      let binding ← binding.captureSelections
      Binding.notify depth (.textEvent delta) { binding with ytext := after }

end EditorEvent

namespace Binding

/-! ### The echo -/

private theorem withMutex_of_applying {binding : Binding Y} (applying : binding.applying = true)
    (action : Binding Y → Option (Binding Y)) : binding.withMutex action = some binding := by
  unfold withMutex
  rw [if_pos applying]

/-- A listener that is called through an edit of the other one does nothing. -/
theorem notify_of_applying {binding : Binding Y} (applying : binding.applying = true)
    (depth : Nat) (notification : Notification) :
    notify (depth + 1) notification binding = some binding := by
  cases notification with
  | contentChange changes => exact withMutex_of_applying applying _
  | textEvent delta => exact withMutex_of_applying applying _

/-- Notifications that are ignored while the binding applies changes. -/
def IgnoresEchoes (notify : Notification → Binding Y → Option (Binding Y)) : Prop :=
  ∀ notification binding, binding.applying = true → notify notification binding = some binding

private theorem captureSelections_of_not_applying {binding : Binding Y}
    (free : binding.applying = false) : binding.captureSelections = some binding := by
  unfold captureSelections withMutex
  rw [free]
  simp only [Bool.false_eq_true, if_false, Option.bind_eq_bind, Option.bind_some, Option.pure_def]
  rw [← free]

/-! ### From the model to the Y.Text -/

private theorem toText_replayChange {binding : Binding Y} {change : Change UInt16}
    (inside : change.stop ≤ (Y.toText binding.ytext).length) :
    Y.toText (binding.replayChange change).ytext = splice change (Y.toText binding.ytext) := by
  have deleted := Y.toText_delete change.offset change.length binding.ytext inside
  have length : (Y.toText (Y.delete change.offset change.length binding.ytext)).length =
      change.offset + ((Y.toText binding.ytext).length - change.stop) := by
    unfold Change.stop at inside ⊢
    rw [deleted, List.length_append, List.length_take, List.length_drop]
    omega
  unfold replayChange splice
  dsimp only
  rw [Y.toText_insert _ _ _ (by omega), deleted]
  unfold Change.stop at inside
  have front : ((Y.toText binding.ytext).take change.offset).length = change.offset := by
    rw [List.length_take]
    omega
  rw [List.take_left' front, List.drop_left' front]
  rfl

/-- What the loop of the content change listener leaves. -/
theorem foldl_replayChange {changes : List (Change UInt16)} {binding : Binding Y}
    (valid : ValidChanges changes (Y.toText binding.ytext))
    (descending : changes.Pairwise fun left right => right.offset ≤ left.offset) :
    ∃ ytext, Y.toText ytext = simultaneous changes (Y.toText binding.ytext) ∧
      changes.foldl replayChange binding =
        { binding with ytext := ytext, textEdits := binding.textEdits + changes.length } := by
  induction changes generalizing binding with
  | nil => exact ⟨binding.ytext, (simultaneous_nil _).symm, rfl⟩
  | cons change rest inductionHypothesis =>
      have replayed := toText_replayChange (valid.inside change List.mem_cons_self)
      have later := valid.tail descending
      rw [← replayed] at later
      obtain ⟨ytext, text, left⟩ := inductionHypothesis later descending.of_cons
      refine ⟨ytext, ?_, ?_⟩
      · rw [text, replayed, valid.simultaneous_cons descending]
      · rw [List.foldl_cons, left, List.length_cons]
        unfold replayChange
        dsimp only
        rw [Nat.add_assoc, Nat.add_comm 1]

private theorem sortChanges_perm (changes : List (Change UInt16)) :
    (sortChanges changes).Perm changes :=
  List.mergeSort_perm changes _

private theorem sortChanges_descending (changes : List (Change UInt16)) :
    (sortChanges changes).Pairwise fun left right => right.offset ≤ left.offset := by
  have sorted := @List.pairwise_mergeSort _
    (fun left right : Change UInt16 => decide (right.offset ≤ left.offset))
    (fun first second third above below => decide_eq_true
      ((of_decide_eq_true below).trans (of_decide_eq_true above)))
    (fun left right => by
      rw [Bool.or_eq_true, decide_eq_true_eq, decide_eq_true_eq]
      exact Nat.le_total _ _) changes
  exact sorted.imp fun lower => of_decide_eq_true lower

/-- The content change listener brings the changes to the Y.Text, once. -/
theorem replayChanges_eq {notify : Notification → Binding Y → Option (Binding Y)}
    (ignores : IgnoresEchoes notify) {changes : List (Change UInt16)} {binding : Binding Y}
    (applying : binding.applying = true)
    (valid : ValidChanges changes (Y.toText binding.ytext)) :
    ∃ ytext, Y.toText ytext = simultaneous changes (Y.toText binding.ytext) ∧
      binding.replayChanges notify changes =
        some { binding with ytext := ytext, textEdits := binding.textEdits + changes.length } := by
  have permutation := sortChanges_perm changes
  obtain ⟨ytext, text, left⟩ := foldl_replayChange (valid.perm permutation.symm)
    (sortChanges_descending changes)
  refine ⟨ytext, ?_, ?_⟩
  · rw [text, simultaneous_perm valid.apart permutation.symm]
  · unfold replayChanges captureSelections
    rw [withMutex_of_applying applying]
    dsimp only [Option.bind_eq_bind, Option.bind_some]
    rw [left, permutation.length_eq]
    split
    · rfl
    · exact ignores _ _ applying

/-! ### From the Y.Text to the model -/

private theorem applyEdits_eq {notify : Notification → Binding Y → Option (Binding Y)}
    (ignores : IgnoresEchoes notify) {binding : Binding Y} (applying : binding.applying = true)
    {start stop : Nat} (order : start ≤ stop) (inside : stop ≤ binding.model.length) (text : Utf16) :
    binding.applyEdits notify (getPositionAt binding.model start) (getPositionAt binding.model stop)
        text =
      some { binding with
        model := binding.model.take start ++ text ++ binding.model.drop stop
        modelEdits := binding.modelEdits + 1 } := by
  unfold applyEdits
  rw [getOffsetAt_getPositionAt (order.trans inside), getOffsetAt_getPositionAt inside]
  have ignored := ignores (.contentChange [⟨start, stop - start, text⟩]) { binding with
    model := splice ⟨start, stop - start, text⟩ binding.model
    modelEdits := binding.modelEdits + 1 } applying
  refine ignored.trans ?_
  unfold splice Change.stop
  dsimp only
  rw [Nat.add_sub_cancel' order]

/-- The observer of the Y.Text brings the delta to the model, once. -/
theorem replayDelta_eq {notify : Notification → Binding Y → Option (Binding Y)}
    (ignores : IgnoresEchoes notify) {delta : List (DeltaOperation UInt16)} {index : Nat}
    {binding : Binding Y} (applying : binding.applying = true) (inside : index ≤ binding.model.length)
    (valid : ValidDelta delta (binding.model.drop index)) :
    binding.replayDelta notify delta index =
      some { binding with
        model := binding.model.take index ++ applyDelta delta (binding.model.drop index)
        modelEdits := binding.modelEdits + (delta.filter DeltaOperation.changesText).length } := by
  induction delta generalizing index binding with
  | nil =>
      unfold replayDelta applyDelta
      rw [List.take_append_drop]
      rfl
  | cons operation rest inductionHypothesis =>
      cases operation with
      | retain count =>
          obtain ⟨room, valid⟩ := valid
          rw [List.length_drop] at room
          rw [List.drop_drop] at valid
          unfold replayDelta applyDelta
          rw [inductionHypothesis applying (by omega) valid, List.drop_drop, List.take_add,
            List.append_assoc]
          rfl
      | insert text =>
          unfold replayDelta applyDelta
          dsimp only
          rw [applyEdits_eq ignores applying (Nat.le_refl _) inside]
          dsimp only [Option.bind_eq_bind, Option.bind_some]
          have length : (binding.model.take index ++ text).length = index + text.length := by
            rw [List.length_append, List.length_take, Nat.min_eq_left inside]
          rw [@inductionHypothesis _ { binding with
            model := binding.model.take index ++ text ++ binding.model.drop index
            modelEdits := binding.modelEdits + 1 } applying]
          · dsimp only
            rw [List.take_left' length, List.drop_left' length, List.append_assoc, List.filter_cons]
            simp [DeltaOperation.changesText, Nat.add_assoc, Nat.add_comm 1]
          · dsimp only
            rw [List.length_append, length]
            exact Nat.le_add_right _ _
          · dsimp only
            rw [List.drop_left' length]
            exact valid
      | delete count =>
          obtain ⟨room, valid⟩ := valid
          rw [List.length_drop] at room
          rw [List.drop_drop] at valid
          unfold replayDelta applyDelta
          dsimp only
          rw [applyEdits_eq ignores applying (Nat.le_add_right _ _) (by omega), List.append_nil]
          dsimp only [Option.bind_eq_bind, Option.bind_some]
          have length : (binding.model.take index).length = index := by
            rw [List.length_take, Nat.min_eq_left inside]
          rw [@inductionHypothesis _ { binding with
            model := binding.model.take index ++ binding.model.drop (index + count)
            modelEdits := binding.modelEdits + 1 } applying]
          · dsimp only
            rw [List.take_left' length, List.drop_left' length, List.drop_drop, List.filter_cons]
            simp [DeltaOperation.changesText, Nat.add_assoc, Nat.add_comm 1]
          · dsimp only
            rw [List.length_append, length]
            exact Nat.le_add_right _ _
          · dsimp only
            rw [List.drop_left' length]
            exact valid

end Binding

/-! ### Both texts -/

inductive BindingRun (Y : YText) (depth : Nat) : Binding Y → Prop
  | create (ytext : Y.State) (model : Utf16) : BindingRun Y depth (.create ytext model)
  | handle {binding after : Binding Y} (run : BindingRun Y depth binding) (event : EditorEvent Y)
      (valid : event.Valid binding) (handled : event.handle depth binding = some after) :
      BindingRun Y depth after

/-- Between two events the texts are equal and the flag is free. -/
structure Binding.Settled (binding : Binding Y) : Prop where
  equal : binding.model = Y.toText binding.ytext
  free : binding.applying = false

theorem Binding.settled_create (ytext : Y.State) (model : Utf16) :
    (Binding.create ytext model).Settled where
  equal := by
    unfold Binding.create
    dsimp only
    split
    · rfl
    · next same => exact not_not.mp same
  free := rfl

structure EditorEvent.Handled (event : EditorEvent Y) (before after : Binding Y) : Prop where
  settled : after.Settled
  model : after.model = event.result before.model
  ytext : Y.toText after.ytext = event.result (Y.toText before.ytext)
  modelEdits : after.modelEdits = before.modelEdits + event.modelEdits
  textEdits : after.textEdits = before.textEdits + event.textEdits

/-- One event. -/
theorem EditorEvent.handle_handled {depth : Nat} (deep : 2 ≤ depth) {binding : Binding Y}
    (settled : binding.Settled) {event : EditorEvent Y} (valid : event.Valid binding) :
    ∃ after, event.handle depth binding = some after ∧ event.Handled binding after := by
  obtain ⟨depth, rfl⟩ := Nat.exists_eq_add_of_le deep
  have ignores : Binding.IgnoresEchoes (Y := Y) (Binding.notify (depth + 1)) :=
    fun notification binding applying => Binding.notify_of_applying applying depth notification
  have nested : 2 + depth = depth + 1 + 1 := by omega
  rw [nested]
  cases event with
  | edited changes =>
      have changed : ValidChanges changes (Y.toText binding.ytext) := settled.equal ▸ valid
      obtain ⟨ytext, text, replayed⟩ := @Binding.replayChanges_eq _ _ ignores changes
        { binding with model := simultaneous changes binding.model, applying := true } rfl changed
      refine ⟨⟨simultaneous changes binding.model, ytext, false, binding.modelEdits,
        binding.textEdits + changes.length⟩, ?_, ?_⟩
      · unfold EditorEvent.handle Binding.notify Binding.withMutex
        dsimp only
        rw [settled.free, if_neg Bool.false_ne_true, replayed]
        rfl
      · exact ⟨⟨by rw [text, settled.equal], rfl⟩, rfl, text, rfl, rfl⟩
  | received delta after =>
      obtain ⟨fits, changed⟩ := valid
      have replayed := @Binding.replayDelta_eq _ _ ignores delta 0
        { binding with ytext := after, applying := true } rfl (Nat.zero_le _)
        (by rw [List.drop_zero]; exact settled.equal ▸ fits)
      refine ⟨⟨applyDelta delta binding.model, after, false,
        binding.modelEdits + (delta.filter DeltaOperation.changesText).length, binding.textEdits⟩, ?_, ?_⟩
      · unfold EditorEvent.handle
        dsimp only
        rw [Binding.captureSelections_of_not_applying settled.free]
        unfold Binding.notify Binding.withMutex
        dsimp only [Option.bind_eq_bind, Option.bind_some]
        rw [settled.free, if_neg Bool.false_ne_true, replayed]
        rfl
      · refine ⟨⟨by rw [changed, settled.equal], rfl⟩, rfl, changed, rfl, rfl⟩

theorem BindingRun.settled {depth : Nat} (deep : 2 ≤ depth) {binding : Binding Y}
    (run : BindingRun Y depth binding) : binding.Settled := by
  induction run with
  | create ytext model => exact Binding.settled_create ytext model
  | handle _ event valid handled inductionHypothesis =>
      obtain ⟨after, same, left⟩ := EditorEvent.handle_handled deep inductionHypothesis valid
      obtain rfl := Option.some.inj (same.symm.trans handled)
      exact left.settled

/-- **Model and Y.Text stay equal.** After any events the next one is handled: both
texts are what it makes of the text before, and the binding edits the other side
once for each change, and never the side that the event came from. -/
theorem model_eq_ytext {depth : Nat} (deep : 2 ≤ depth) {binding : Binding Y}
    (run : BindingRun Y depth binding) (event : EditorEvent Y) (valid : event.Valid binding) :
    binding.model = Y.toText binding.ytext ∧
      ∃ after, event.handle depth binding = some after ∧ event.Handled binding after :=
  ⟨(run.settled deep).equal, EditorEvent.handle_handled deep (run.settled deep) valid⟩

def plainText : YText where
  State := Utf16
  toText := id
  insert index text state := state.take index ++ text ++ state.drop index
  delete index length state := state.take index ++ state.drop (index + length)
  transactionEvent before after :=
    if before = after then none else some [.delete before.length, .insert after]
  toText_insert _ _ _ _ := rfl
  toText_delete _ _ _ _ := rfl

/-- Two edits at once, in the order of their offsets, of a text with two lines. -/
def twoEdits : EditorEvent plainText := .edited [⟨0, 1, [120, 10]⟩, ⟨2, 0, [121]⟩]

/-- A transaction from elsewhere: two units are replaced by one. -/
def remoteDelta : EditorEvent plainText :=
  .received [.retain 1, .delete 2, .insert [122]] [120, 122, 121, 98]

theorem model_eq_ytext_bothSides :
    ∃ edited after : Binding plainText,
      twoEdits.handle 2 (.create ([97, 10, 98] : Utf16) []) = some edited ∧
        edited.model = plainText.toText edited.ytext ∧
          remoteDelta.handle 2 edited = some after ∧ remoteDelta.Handled edited after ∧
            after.model = [120, 122, 121, 98] := by
  have created : BindingRun plainText 2 (.create ([97, 10, 98] : Utf16) []) := .create _ _
  have changes : twoEdits.Valid (.create ([97, 10, 98] : Utf16) []) :=
    ⟨by decide, by unfold Change.Apart; decide⟩
  obtain ⟨_, edited, handled, left⟩ := model_eq_ytext (Nat.le_refl 2) created twoEdits changes
  have text : plainText.toText edited.ytext = [120, 10, 10, 121, 98] := left.ytext.trans (by decide)
  have delta : remoteDelta.Valid edited := by
    change ValidDelta _ (plainText.toText edited.ytext) ∧ _ = applyDelta _ (plainText.toText edited.ytext)
    rw [text]
    exact ⟨by simp [ValidDelta], by decide⟩
  obtain ⟨equal, after, replayed, right⟩ :=
    model_eq_ytext (Nat.le_refl 2) (.handle created twoEdits changes handled) remoteDelta delta
  refine ⟨edited, after, handled, equal, replayed, right, ?_⟩
  rw [right.model, equal, text]
  decide

end Concord.Client
