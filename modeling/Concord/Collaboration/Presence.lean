import Mathlib.Data.List.Sort
import Concord.Asyncio.Coroutine
import Concord.Platform

/-!
Contract: `AwarenessStore`, restricted to one session.

Owns:
- the stored awareness states in the insertion order of their dictionary;
- `applyUpdate`, `activeEntries`, `removeOwner` and `pruneStale`;
- the rank of an entry, by which the clock rule of the store is a comparison.

Does not own: who sends the accepted and removed entries to the peers.
-/

set_option autoImplicit false

namespace Concord.Collaboration

open Asyncio

variable {P : Platform}

def awarenessTimeout : Nat := 30

structure StoredAwareness (P : Platform) where
  entry : AwarenessEntry P
  owner : Option TaskId
  lastSeen : Nat

/-- `_sessions[session_id]`, a dictionary keyed by the client of the entry. -/
abbrev AwarenessStates (P : Platform) := List (StoredAwareness P)

namespace AwarenessStates

/-- `states.get(client_id)`. -/
def lookup (states : AwarenessStates P) (clientId : Nat) : Option (StoredAwareness P) :=
  states.find? fun stored => stored.entry.clientId = clientId

/-- `states[client_id] = stored`. -/
def put (stored : StoredAwareness P) : AwarenessStates P → AwarenessStates P
  | [] => [stored]
  | current :: rest =>
      if current.entry.clientId = stored.entry.clientId then stored :: rest
      else current :: put stored rest

/-- The clock rule of `apply_update`. -/
def shouldApply (current : Option (StoredAwareness P)) (entry : AwarenessEntry P) : Bool :=
  let currentClock := (current.map (·.entry.clock)).getD 0
  let currentIsActive := current.any (·.entry.state.isSome)
  let isRemoval := entry.state.isNone
  currentClock < entry.clock || (currentClock = entry.clock && isRemoval && currentIsActive)

/-- `apply_update`: the new states and the accepted entries. -/
def applyUpdate (owner : TaskId) (timestamp : Nat) :
    List (AwarenessEntry P) → AwarenessStates P → AwarenessStates P × List (AwarenessEntry P)
  | [], states => (states, [])
  | entry :: rest, states =>
      if shouldApply (states.lookup entry.clientId) entry then
        let stored : StoredAwareness P := {
          entry := entry
          owner := if entry.state.isNone then none else some owner
          lastSeen := timestamp }
        let (states, accepted) := applyUpdate owner timestamp rest (states.put stored)
        (states, entry :: accepted)
      else applyUpdate owner timestamp rest states

/-- `active_entries`, in client order. -/
def activeEntries (states : AwarenessStates P) : List (AwarenessEntry P) :=
  ((states.map (·.entry)).filter (·.state.isSome)).insertionSort
    (fun first second => first.clientId ≤ second.clientId)

def removal (entry : AwarenessEntry P) : AwarenessEntry P :=
  { clientId := entry.clientId, clock := entry.clock, state := none, encodedState := "null" }

/-- The loop of `remove_owner` and `prune_stale`: the selected active states
become removals, which are returned. -/
def withdraw (selected : StoredAwareness P → Bool) (timestamp : Nat) :
    AwarenessStates P → AwarenessStates P × List (AwarenessEntry P)
  | [] => ([], [])
  | stored :: rest =>
      let (states, removed) := withdraw selected timestamp rest
      if stored.entry.state.isSome && selected stored then
        let entry := removal stored.entry
        (⟨entry, none, timestamp⟩ :: states, entry :: removed)
      else (stored :: states, removed)

def removeOwner (owner : TaskId) (timestamp : Nat) :
    AwarenessStates P → AwarenessStates P × List (AwarenessEntry P) :=
  withdraw (fun stored => stored.owner = some owner) timestamp

def pruneStale (timestamp : Nat) :
    AwarenessStates P → AwarenessStates P × List (AwarenessEntry P) :=
  withdraw (fun stored => ¬timestamp - stored.lastSeen ≤ awarenessTimeout) timestamp

end AwarenessStates

end Concord.Collaboration

/-! ### The order of the clock rule -/

namespace Concord.AwarenessEntry

/-- Entries of one client in the order of the clock rule: by clock, and at equal
clocks a removal above an active state. -/
def rank {P : Platform} (entry : AwarenessEntry P) : Nat :=
  2 * entry.clock + if entry.state.isNone then 1 else 0

end Concord.AwarenessEntry
