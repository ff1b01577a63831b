/-
Module: CommonRpc.Proofs.ServerEndpoint
Purpose: The life of a connection at the server endpoint. `Sound` says how the registration, the disconnect
  callback, its continuation and the notifications of one connection hang together, and is kept by every step
  of the connection alone. `Consistent` adds what the connections share: the map, the mutex and the life of the
  object. A connection may be lost at any moment and the object may be destroyed before its continuations run;
  still every registered connection is announced, removed and reported lost, in this order and once.
  `pipe_refines` ties the loss of a connection and its callback to the in-memory pipe.
Trusted boundary: none
-/
import CommonRpc.Core.ServerEndpoint
import CommonRpc.Lib.Table
import CommonRpc.Proofs.MemBuffers
import Mathlib.Logic.Relation

namespace CommonRpc

namespace RegisteredConnection

/-! ### One connection -/

/-- What the strand of the connection was told, by how far its two threads of work have got. -/
def expectedNotifications (c : RegisteredConnection) : List ServerEndpoint.ConnectionState :=
  match c.registration with
  | .announced | .registered =>
      if c.continuation = .done then [.connected, .disconnected] else [.connected]
  | .arrived | .entered | .callbackSet | .started | .inserted | .rejected => []

/-- `set_disconnect_callback` comes later or never. -/
def lacksCallback (c : RegisteredConnection) : Bool :=
  match c.registration with
  | .arrived | .entered | .rejected => true
  | .callbackSet | .started | .inserted | .announced | .registered => false

/-- How the parts of a connection hang together. -/
structure Sound (c : RegisteredConnection) : Prop where
  notified : c.notifications = c.expectedNotifications
  unset : c.callback = .unset ↔ c.lacksCallback
  waiting : c.callback = .waiting → c.disconnected = false
  unattached : c.continuation = .unattached ↔ c.registration ≠ .registered
  /-- A continuation waits only as long as the promise is not set. -/
  attached : c.continuation = .attached → c.callback ≠ .done
  released : c.continuation.isReleased → c.callback = .done

theorem sound_new (id : Nat) : Sound { id := id } := by
  constructor <;> simp [expectedNotifications, lacksCallback, DisconnectContinuation.isReleased]

section Steps

variable {c : RegisteredConnection}

theorem Sound.disconnect (sound : Sound c) : Sound c.disconnect := by
  obtain ⟨notified, unset, waiting, unattached, attached, released⟩ := sound
  refine ⟨notified, ?_, ?_, unattached, ?_, ?_⟩
  all_goals grind [RegisteredConnection.disconnect, lacksCallback]

/-- A statement of `process_new_connection` that neither sets the callback, nor notifies, nor is the last one. -/
theorem Sound.proceeds {next : Registration} (sound : Sound c)
    (notRegistered : c.registration ≠ .registered ∧ next ≠ .registered)
    (sameCallback : { c with registration := next }.lacksCallback = c.lacksCallback)
    (sameNotifications : { c with registration := next }.expectedNotifications = c.expectedNotifications) :
    Sound { c with registration := next } where
  notified := sound.notified.trans sameNotifications.symm
  unset := sound.unset.trans (by rw [sameCallback])
  waiting := sound.waiting
  unattached := sound.unattached.trans ⟨fun _ => notRegistered.2, fun _ => notRegistered.1⟩
  attached := sound.attached
  released := sound.released

/-- The callback is posted at once if the pipe is lost already. -/
theorem Sound.setsCallback (sound : Sound c) (entered : c.registration = .entered) :
    Sound { c.setDisconnectCallback with registration := .callbackSet } := by
  obtain ⟨notified, unset, waiting, unattached, attached, released⟩ := sound
  constructor
  all_goals grind [expectedNotifications, lacksCallback, setDisconnectCallback, DisconnectContinuation.isReleased]

theorem Sound.announces (sound : Sound c) (inserted : c.registration = .inserted) :
    Sound { c with registration := .announced, notifications := c.notifications ++ [.connected] } := by
  obtain ⟨notified, unset, waiting, unattached, attached, released⟩ := sound
  refine ⟨?_, ?_, waiting, ?_, attached, released⟩
  all_goals grind [expectedNotifications, lacksCallback]

/-- The continuation is posted at once if the promise is set already. -/
theorem Sound.attaches (sound : Sound c) (announced : c.registration = .announced) :
    Sound { c.attachContinuation with registration := .registered } := by
  obtain ⟨notified, unset, waiting, unattached, attached, released⟩ := sound
  constructor
  all_goals grind [expectedNotifications, lacksCallback, attachContinuation, DisconnectContinuation.isReleased]

theorem Sound.runsCallback (sound : Sound c) (posted : c.callback = .posted) : Sound c.runCallback := by
  obtain ⟨notified, unset, waiting, unattached, attached, released⟩ := sound
  constructor
  all_goals grind [expectedNotifications, lacksCallback, runCallback, DisconnectContinuation.isReleased]

/-- The continuation moves on, but has not posted its notification yet. -/
theorem Sound.continues {next : DisconnectContinuation} (sound : Sound c) (released : c.continuation.isReleased)
    (notDone : c.continuation ≠ .done) (nextReleased : next.isReleased) (nextNotDone : next ≠ .done) :
    Sound { c with continuation := next } := by
  obtain ⟨notified, unset, waiting, unattached, attached, settled⟩ := sound
  constructor
  all_goals grind [expectedNotifications, lacksCallback, DisconnectContinuation.isReleased]

theorem Sound.finishes (sound : Sound c) (removed : c.continuation = .removed) :
    Sound { c with continuation := .done, notifications := c.notifications ++ [.disconnected] } := by
  obtain ⟨notified, unset, waiting, unattached, attached, released⟩ := sound
  constructor
  all_goals grind [expectedNotifications, lacksCallback, DisconnectContinuation.isReleased]

theorem Sound.notified_in_order (sound : Sound c) :
    c.notifications <+: [.connected, .disconnected] := by
  rw [sound.notified, expectedNotifications]
  repeat' split
  all_goals decide

/-- A lost connection with no work left was reported. -/
theorem Sound.settled (sound : Sound c) (registered : c.registration = .registered)
    (disconnected : c.disconnected = true) (idle : c.hasTask = false) :
    c.continuation = .done := by
  simp only [hasTask, Bool.or_eq_false_iff, decide_eq_false_iff_not] at idle
  obtain ⟨⟨⟨notHeld, notPosted⟩, notReady⟩, notRemoved⟩ := idle
  have promiseSet : c.callback = .done := by
    cases callback : c.callback with
    | unset => simpa [lacksCallback, registered] using sound.unset.mp callback
    | waiting => exact absurd (sound.waiting callback) (by simp [disconnected])
    | posted => exact absurd callback notPosted
    | done => rfl
  cases continuation : c.continuation with
  | unattached => exact absurd registered (sound.unattached.mp continuation)
  | attached => exact absurd promiseSet (sound.attached continuation)
  | posted => exact absurd continuation notReady
  | removing => simp [holdsImpl, continuation] at notHeld
  | removed => exact absurd continuation notRemoved
  | done => rfl

/-- With no thread inside, a stored connection is a registered one. -/
theorem registered_of_isStored (isStored : c.isStored = true) (idle : c.hasTask = false) :
    c.registration = .registered := by
  simp only [hasTask, holdsImpl, Bool.or_eq_false_iff] at idle
  obtain ⟨⟨⟨⟨⟨_, outside⟩, _⟩, _⟩, _⟩, _⟩ := idle
  cases registration : c.registration with
  | registered => rfl
  | inserted | announced => simp [registration, Registration.isInside] at outside
  | arrived | entered | callbackSet | started | rejected =>
      simp [RegisteredConnection.isStored, registration, Registration.isInserted] at isStored

end Steps

end RegisteredConnection

namespace ServerEndpoint

open Lib

/-! ### All connections -/

@[simp] theorem setConnection_endpointsMap (s : ServerEndpoint) (index : Nat) (c : RegisteredConnection) :
    (s.setConnection index c).endpointsMap = s.endpointsMap := rfl

@[simp] theorem setConnection_mtx (s : ServerEndpoint) (index : Nat) (c : RegisteredConnection) :
    (s.setConnection index c).mtx = s.mtx := rfl

/-- What the connections share. -/
structure Consistent (s : ServerEndpoint) : Prop where
  sound : ∀ (i : Nat) (c : RegisteredConnection), s.connections[i]? = some c → c.Sound
  distinct : ∀ (i j : Nat) (c d : RegisteredConnection), s.connections[i]? = some c →
    s.connections[j]? = some d → c.id = d.id → i = j
  nodup : s.endpointsMap.Nodup
  known : ∀ id ∈ s.endpointsMap, ∃ (i : Nat) (c : RegisteredConnection),
    s.connections[i]? = some c ∧ c.id = id
  stored : ∀ (i : Nat) (c : RegisteredConnection), s.connections[i]? = some c →
    (c.id ∈ s.endpointsMap ↔ s.alive = true ∧ c.isStored = true)
  mutex : ∀ (i : Nat) (c : RegisteredConnection), s.connections[i]? = some c →
    (c.registration.isInside = true ↔ s.mtx = some i)
  held : ∀ i, s.mtx = some i → i < s.connections.length
  finalizing : s.isFinalizing = true → s.mtx = none
  /-- The object outlives the threads that work on it. -/
  released : s.alive = false → ∀ (i : Nat) (c : RegisteredConnection), s.connections[i]? = some c →
    c.holdsImpl = false

theorem consistent_init : Consistent {} := by
  constructor <;> simp

section Update

variable {s t : ServerEndpoint} {index : Nat} {c n : RegisteredConnection}

/-- One connection changes, and with it at most its own key in the map and its own hold on the mutex. -/
theorem Consistent.update (consistent : Consistent s) (entry : s.connections[index]? = some c)
    (table : t.connections = s.connections.set index n) (sameId : n.id = c.id)
    (sameLife : t.alive = s.alive) (sound : n.Sound) (nodup : t.endpointsMap.Nodup)
    (others : ∀ id, id ≠ c.id → (id ∈ t.endpointsMap ↔ id ∈ s.endpointsMap))
    (stored : c.id ∈ t.endpointsMap ↔ s.alive = true ∧ n.isStored = true)
    (mutex : n.registration.isInside = true ↔ t.mtx = some index)
    (otherMutex : ∀ j, j ≠ index → (t.mtx = some j ↔ s.mtx = some j))
    (finalizing : t.isFinalizing = true → t.mtx = none)
    (released : s.alive = false → n.holdsImpl = false) : Consistent t := by
  have changed : t.connections[index]? = some n := table ▸ Table.set_self entry
  have cases {j : Nat} {d : RegisteredConnection} (after : t.connections[j]? = some d) :
      j = index ∧ d = n ∨ j ≠ index ∧ s.connections[j]? = some d :=
    Table.set_cases entry (table ▸ after)
  constructor
  case sound =>
    intro j d after
    rcases cases after with ⟨_, rfl⟩ | ⟨_, before⟩
    · exact sound
    · exact consistent.sound j d before
  case distinct =>
    intro i j d e atI atJ sameIds
    rcases cases atI with ⟨rfl, rfl⟩ | ⟨_, beforeI⟩ <;> rcases cases atJ with ⟨rfl, rfl⟩ | ⟨_, beforeJ⟩
    · rfl
    · exact consistent.distinct _ _ _ _ entry beforeJ (sameId.symm.trans sameIds)
    · exact consistent.distinct _ _ _ _ beforeI entry (sameIds.trans sameId)
    · exact consistent.distinct _ _ _ _ beforeI beforeJ sameIds
  case nodup => exact nodup
  case known =>
    intro id mem
    by_cases own : id = c.id
    · exact ⟨index, n, changed, sameId.trans own.symm⟩
    · obtain ⟨j, d, before, hasId⟩ := consistent.known id ((others id own).mp mem)
      have elsewhere : index ≠ j := by
        rintro rfl
        obtain rfl : c = d := Option.some.inj (entry.symm.trans before)
        exact own hasId.symm
      exact ⟨j, d, by rw [table, List.getElem?_set_ne elsewhere]; exact before, hasId⟩
  case stored =>
    intro j d after
    rw [sameLife]
    rcases cases after with ⟨rfl, rfl⟩ | ⟨elsewhere, before⟩
    · rw [sameId]
      exact stored
    · have otherId : d.id ≠ c.id := fun same => elsewhere (consistent.distinct _ _ _ _ before entry same)
      exact (others d.id otherId).trans (consistent.stored j d before)
  case mutex =>
    intro j d after
    rcases cases after with ⟨rfl, rfl⟩ | ⟨elsewhere, before⟩
    · exact mutex
    · exact (consistent.mutex j d before).trans (otherMutex j elsewhere).symm
  case held =>
    intro j held
    rw [table, List.length_set]
    by_cases own : j = index
    · exact own ▸ Table.lt_of_entry entry
    · exact consistent.held j ((otherMutex j own).mp held)
  case finalizing => exact finalizing
  case released =>
    intro dead j d after
    rw [sameLife] at dead
    rcases cases after with ⟨rfl, rfl⟩ | ⟨_, before⟩
    · exact released dead
    · exact consistent.released dead j d before

/-- One connection changes, and neither the map nor the mutex is involved. -/
theorem Consistent.setConnection (consistent : Consistent s) (entry : s.connections[index]? = some c)
    (sameId : n.id = c.id) (sound : n.Sound) (sameStored : n.isStored = c.isStored)
    (sameInside : n.registration.isInside = c.registration.isInside)
    (released : s.alive = false → n.holdsImpl = false) : Consistent (s.setConnection index n) :=
  consistent.update (t := s.setConnection index n) entry rfl sameId rfl sound consistent.nodup
    (fun _ _ => Iff.rfl) (sameStored ▸ consistent.stored index c entry)
    (sameInside ▸ consistent.mutex index c entry) (fun _ _ => Iff.rfl) consistent.finalizing released

/-- What the loss of the pipe leaves alone. -/
theorem Consistent.disconnected (consistent : Consistent s) (entry : s.connections[index]? = some c) :
    Consistent (s.setConnection index c.disconnect) :=
  consistent.setConnection entry rfl (consistent.sound index c entry).disconnect rfl rfl
    fun dead => consistent.released dead index c entry

/-- A thread that holds the mutex keeps the object alive. -/
theorem Consistent.alive_of_holdsImpl (consistent : Consistent s) (entry : s.connections[index]? = some c)
    (holds : c.holdsImpl = true) : s.alive = true := by
  cases alive : s.alive with
  | true => rfl
  | false => simp [consistent.released alive index c entry] at holds

end Update

/-! ### The steps -/

section Steps

variable {s t : ServerEndpoint} {index : Nat} {c : RegisteredConnection}

theorem onConnection_eq_some {guard : RegisteredConnection → Bool}
    {next : RegisteredConnection → Option ServerEndpoint} (stepped : s.onConnection index guard next = some t) :
    ∃ c, s.connections[index]? = some c ∧ guard c = true ∧ next c = some t := by
  simp only [onConnection] at stepped
  split at stepped
  · cases stepped
  · rename_i c entry
    split at stepped
    · exact ⟨c, entry, ‹_›, stepped⟩
    · cases stepped

theorem consistent_onNewConnection {id : Nat} (consistent : Consistent s) (alive : s.alive = true)
    (fresh : ∀ c ∈ s.connections, c.id ≠ id) :
    Consistent { s with connections := s.connections ++ [{ id := id }] } := by
  have unknown {i : Nat} {c : RegisteredConnection} (entry : s.connections[i]? = some c) : c.id ≠ id :=
    fresh c (List.mem_of_getElem? entry)
  constructor
  case sound =>
    intro i c after
    rcases Table.push_cases after with before | ⟨_, rfl⟩
    · exact consistent.sound i c before
    · exact RegisteredConnection.sound_new id
  case distinct =>
    intro i j c d atI atJ sameIds
    rcases Table.push_cases atI with beforeI | ⟨rfl, rfl⟩ <;>
      rcases Table.push_cases atJ with beforeJ | ⟨rfl, rfl⟩
    · exact consistent.distinct i j c d beforeI beforeJ sameIds
    · exact absurd sameIds (unknown beforeI)
    · exact absurd sameIds.symm (unknown beforeJ)
    · rfl
  case nodup => exact consistent.nodup
  case known =>
    intro key mem
    obtain ⟨i, c, before, hasId⟩ := consistent.known key mem
    exact ⟨i, c, Table.push_old before, hasId⟩
  case stored =>
    intro i c after
    rcases Table.push_cases after with before | ⟨_, rfl⟩
    · exact consistent.stored i c before
    · refine ⟨fun mem => ?_, nofun⟩
      obtain ⟨j, d, before, hasId⟩ := consistent.known id mem
      exact absurd hasId (unknown before)
  case mutex =>
    intro i c after
    rcases Table.push_cases after with before | ⟨rfl, rfl⟩
    · exact consistent.mutex i c before
    · refine ⟨nofun, fun held => ?_⟩
      exact absurd (consistent.held _ held) (Nat.lt_irrefl _)
  case held =>
    intro i held
    rw [List.length_append]
    exact Nat.lt_add_right 1 (consistent.held i held)
  case finalizing => exact consistent.finalizing
  case released =>
    intro dead
    rw [alive] at dead
    cases dead

open RegisteredConnection Registration in
theorem consistent_processNewConnection (consistent : Consistent s) (entry : s.connections[index]? = some c)
    (stepped : s.processNewConnection index c = some t) : Consistent t := by
  have sound := consistent.sound index c entry
  have unstored (early : c.isStored = false) : c.id ∉ s.endpointsMap := by
    rw [consistent.stored index c entry, early]
    simp
  -- the thread that runs the function keeps the object alive
  have working {c' : RegisteredConnection} (working : c.holdsImpl = true) :
      s.alive = false → c'.holdsImpl = false := by
    intro dead
    rw [consistent.alive_of_holdsImpl entry working] at dead
    cases dead
  have holder (inside : c.registration.isInside = true) : s.mtx = some index :=
    (consistent.mutex index c entry).mp inside
  simp only [processNewConnection] at stepped
  cases registration : c.registration with
  | arrived =>
      simp only [registration] at stepped
      split at stepped
      · cases stepped
      rename_i free
      have free : s.mtx = none := by simpa using free
      split at stepped
      · cases stepped
        refine consistent.setConnection entry rfl ?_ ?_ ?_ (working (by simp [holdsImpl, registration]))
        · apply sound.disconnect.proceeds
          all_goals simp [lacksCallback, expectedNotifications, RegisteredConnection.disconnect, registration]
        · simp [isStored, isInserted, registration]
        · simp [isInside, registration]
      · rename_i notFinalizing
        cases stepped
        refine consistent.update (n := { c with registration := .entered }) entry rfl rfl rfl ?_
          consistent.nodup (fun _ _ => Iff.rfl) ?_ ?_ ?_ ?_ (working (by simp [holdsImpl, registration]))
        · apply sound.proceeds
          all_goals simp [lacksCallback, expectedNotifications, registration]
        · simpa [isStored, isInserted] using unstored (by simp [isStored, isInserted, registration])
        · simp [isInside]
        · intro j elsewhere
          simp [free, Ne.symm elsewhere]
        · exact fun finalizing => absurd finalizing notFinalizing
  | entered =>
      simp only [registration] at stepped
      cases stepped
      refine consistent.setConnection entry rfl (sound.setsCallback registration) ?_ ?_
        (working (by simp [holdsImpl, isInside, registration]))
      · simp [isStored, isInserted, registration]
      · simp [isInside, registration]
  | callbackSet =>
      simp only [registration] at stepped
      cases stepped
      refine consistent.setConnection entry rfl ?_ ?_ ?_ (working (by simp [holdsImpl, isInside, registration]))
      · apply sound.proceeds
        all_goals simp [lacksCallback, expectedNotifications, registration]
      · simp [isStored, isInserted, registration]
      · simp [isInside, registration]
  | started =>
      have holds : c.holdsImpl = true := by simp [holdsImpl, isInside, registration]
      have absent : c.id ∉ s.endpointsMap := unstored (by simp [isStored, isInserted, registration])
      have waits : c.continuation = .unattached := sound.unattached.mpr (by simp [registration])
      simp only [registration, List.contains_iff_mem, absent, if_false] at stepped
      cases stepped
      refine consistent.update (n := { c with registration := .inserted }) entry rfl rfl rfl ?_ ?_ ?_ ?_ ?_
        (fun _ _ => Iff.rfl) consistent.finalizing (working holds)
      · apply sound.proceeds
        all_goals simp [lacksCallback, expectedNotifications, registration]
      · exact List.nodup_append.mpr ⟨consistent.nodup, by simp, by grind⟩
      · intro id other
        simp [other]
      · simp [isStored, isInserted, waits, DisconnectContinuation.hasRemoved,
          consistent.alive_of_holdsImpl entry holds]
      · simp [isInside, holder (by simp [isInside, registration])]
  | inserted =>
      simp only [registration] at stepped
      cases stepped
      refine consistent.setConnection entry rfl (sound.announces registration) ?_ ?_
        (working (by simp [holdsImpl, isInside, registration]))
      · simp [isStored, isInserted, registration]
      · simp [isInside, registration]
  | announced =>
      have holds : c.holdsImpl = true := by simp [holdsImpl, isInside, registration]
      have holding : s.mtx = some index := holder (by simp [isInside, registration])
      have waits : c.continuation = .unattached := sound.unattached.mpr (by simp [registration])
      simp only [registration] at stepped
      cases stepped
      refine consistent.update (n := { c.attachContinuation with registration := .registered }) entry rfl rfl
        rfl (sound.attaches registration) consistent.nodup (fun _ _ => Iff.rfl) ?_ ?_ ?_ (fun _ => rfl)
        (working holds)
      · have before := consistent.stored index c entry
        simp only [isStored, isInserted, registration, waits, DisconnectContinuation.hasRemoved] at before
        simp only [isStored, isInserted, attachContinuation]
        split <;> exact before
      · simp [isInside]
      · intro j elsewhere
        simp [holding, Ne.symm elsewhere]
  | registered => simp [registration] at stepped
  | rejected => simp [registration] at stepped

/-- A continuation that runs belongs to a registered connection. -/
theorem registered_of_released (sound : c.Sound) (released : c.continuation.isReleased = true) :
    c.registration = .registered := by
  by_contra unregistered
  rw [sound.unattached.mpr unregistered] at released
  cases released

open RegisteredConnection Registration DisconnectContinuation in
theorem consistent_runContinuation (consistent : Consistent s) (entry : s.connections[index]? = some c)
    (posted : c.continuation = .posted) : Consistent (s.runContinuation index c) := by
  have sound := consistent.sound index c entry
  have registered : c.registration = .registered :=
    registered_of_released sound (by simp [posted, isReleased])
  have moved {next : DisconnectContinuation} (released : next.isReleased = true) (notDone : next ≠ .done) :
      Sound { c with continuation := next } :=
    sound.continues (by simp [posted, isReleased]) (by simp [posted]) released notDone
  cases alive : s.alive with
  | true =>
      simp only [runContinuation, alive, if_true]
      refine consistent.setConnection entry rfl (moved rfl nofun) ?_ rfl (fun dead => by simp [alive] at dead)
      simp [isStored, hasRemoved, posted]
  | false =>
      have gone : c.id ∉ s.endpointsMap := by simp [consistent.stored index c entry, alive]
      simp only [runContinuation, alive]
      refine consistent.update (n := { c with continuation := .removed }) entry rfl rfl rfl
        (moved rfl nofun) consistent.nodup (fun _ _ => Iff.rfl) ?_ (consistent.mutex index c entry)
        (fun _ _ => Iff.rfl) consistent.finalizing ?_
      · simp [gone, alive]
      · intro _
        simp [holdsImpl, registered, isInside]

open RegisteredConnection Registration DisconnectContinuation in
theorem consistent_removeEndpointFromMap (consistent : Consistent s) (entry : s.connections[index]? = some c)
    (removing : c.continuation = .removing) : Consistent (s.removeEndpointFromMap index c) := by
  have sound := consistent.sound index c entry
  have registered : c.registration = .registered :=
    registered_of_released sound (by simp [removing, isReleased])
  refine consistent.update (n := { c.disconnect with continuation := .removed }) entry rfl rfl rfl ?_
    (consistent.nodup.erase c.id) ?_ ?_ (consistent.mutex index c entry) (fun _ _ => Iff.rfl)
    consistent.finalizing ?_
  · exact sound.disconnect.continues (by simp [RegisteredConnection.disconnect, removing, isReleased])
      (by simp [RegisteredConnection.disconnect, removing]) rfl nofun
  · intro id other
    exact List.mem_erase_of_ne other
  · simp [removeEndpointFromMap, consistent.nodup.not_mem_erase, isStored, hasRemoved]
  · intro _
    simp [holdsImpl, RegisteredConnection.disconnect, registered, isInside]

open RegisteredConnection Registration DisconnectContinuation in
theorem consistent_postDisconnected (consistent : Consistent s) (entry : s.connections[index]? = some c)
    (removed : c.continuation = .removed) :
    Consistent (s.setConnection index
      { c with continuation := .done, notifications := c.notifications ++ [.disconnected] }) := by
  have sound := consistent.sound index c entry
  have registered : c.registration = .registered :=
    registered_of_released sound (by simp [removed, isReleased])
  refine consistent.setConnection entry rfl (sound.finishes removed) ?_ rfl ?_
  · simp [isStored, hasRemoved, removed]
  · intro _
    simp [holdsImpl, registered, isInside]

open RegisteredConnection DisconnectContinuation in
theorem consistent_runCallback (consistent : Consistent s) (entry : s.connections[index]? = some c)
    (posted : c.callback = .posted) : Consistent (s.setConnection index c.runCallback) := by
  refine consistent.setConnection entry rfl ((consistent.sound index c entry).runsCallback posted) ?_ rfl ?_
  · simp only [isStored, RegisteredConnection.runCallback]
    split <;> simp [hasRemoved, *]
  · intro dead
    have before := consistent.released dead index c entry
    simp only [holdsImpl, RegisteredConnection.runCallback] at before ⊢
    split <;> simp_all

/-- The endpoints in the map lose their pipes: what happens to one entry. -/
theorem disconnectStored_entry {i : Nat} {d : RegisteredConnection} (after : s.disconnectStored[i]? = some d) :
    ∃ c, s.connections[i]? = some c ∧ (d = c ∨ d = c.disconnect) := by
  simp only [disconnectStored, List.getElem?_map, Option.map_eq_some_iff] at after
  obtain ⟨c, entry, rfl⟩ := after
  refine ⟨c, entry, ?_⟩
  split
  · exact .inr rfl
  · exact .inl rfl

/-- The endpoints in the map lose their pipes; the map itself stays or goes. -/
theorem Consistent.disconnectStored (consistent : Consistent s) (table : t.connections = s.disconnectStored)
    (sameMutex : t.mtx = s.mtx) (finalizing : t.isFinalizing = true → t.mtx = none)
    (nodup : t.endpointsMap.Nodup) (known : ∀ id ∈ t.endpointsMap, id ∈ s.endpointsMap)
    (stored : ∀ (i : Nat) (c : RegisteredConnection), s.connections[i]? = some c →
      (c.id ∈ t.endpointsMap ↔ t.alive = true ∧ c.isStored = true))
    (released : t.alive = false → ∀ (i : Nat) (c : RegisteredConnection), s.connections[i]? = some c →
      c.holdsImpl = false) : Consistent t := by
  have origin {i : Nat} {d : RegisteredConnection} (after : t.connections[i]? = some d) :
      ∃ c, s.connections[i]? = some c ∧ (d = c ∨ d = c.disconnect) :=
    disconnectStored_entry (table ▸ after)
  constructor
  case sound =>
    intro i d after
    obtain ⟨c, before, rfl | rfl⟩ := origin after
    · exact consistent.sound i d before
    · exact (consistent.sound i c before).disconnect
  case distinct =>
    intro i j d e atI atJ sameIds
    obtain ⟨c, beforeI, rfl | rfl⟩ := origin atI <;> obtain ⟨c', beforeJ, rfl | rfl⟩ := origin atJ
    all_goals exact consistent.distinct i j _ _ beforeI beforeJ sameIds
  case nodup => exact nodup
  case known =>
    intro id mem
    obtain ⟨i, c, before, hasId⟩ := consistent.known id (known id mem)
    have inside : i < t.connections.length := by
      rw [table, ServerEndpoint.disconnectStored, List.length_map]
      exact Table.lt_of_entry before
    have after := List.getElem?_eq_getElem inside
    obtain ⟨d, before', same⟩ := origin after
    obtain rfl : c = d := Option.some.inj (before.symm.trans before')
    exact ⟨i, _, after, by rcases same with same | same <;> rw [same] <;> exact hasId⟩
  case stored =>
    intro i d after
    obtain ⟨c, before, rfl | rfl⟩ := origin after
    · exact stored i d before
    · exact stored i c before
  case mutex =>
    intro i d after
    rw [sameMutex]
    obtain ⟨c, before, rfl | rfl⟩ := origin after
    · exact consistent.mutex i d before
    · exact consistent.mutex i c before
  case held =>
    intro i held
    rw [table, ServerEndpoint.disconnectStored, List.length_map]
    exact consistent.held i (sameMutex ▸ held)
  case finalizing => exact finalizing
  case released =>
    intro dead i d after
    obtain ⟨c, before, rfl | rfl⟩ := origin after
    · exact released dead i d before
    · exact released dead i c before

theorem consistent_step {e : Event} (consistent : Consistent s) (stepped : s.step e = some t) : Consistent t := by
  cases e with
  | onNewConnection id =>
      simp only [step] at stepped
      split at stepped
      · rename_i allowed
        cases stepped
        simp only [Bool.and_eq_true, List.all_eq_true, bne_iff_ne] at allowed
        exact consistent_onNewConnection consistent allowed.1 allowed.2
      · cases stepped
  | processNewConnection index =>
      obtain ⟨c, entry, _, next⟩ := onConnection_eq_some stepped
      exact consistent_processNewConnection consistent entry next
  | disconnect index =>
      obtain ⟨c, entry, _, next⟩ := onConnection_eq_some stepped
      cases next
      exact consistent.disconnected entry
  | runCallback index =>
      obtain ⟨c, entry, guard, next⟩ := onConnection_eq_some stepped
      cases next
      exact consistent_runCallback consistent entry (by simpa using guard)
  | runContinuation index =>
      obtain ⟨c, entry, guard, next⟩ := onConnection_eq_some stepped
      cases next
      exact consistent_runContinuation consistent entry (by simpa using guard)
  | removeEndpointFromMap index =>
      obtain ⟨c, entry, guard, next⟩ := onConnection_eq_some stepped
      cases next
      simp only [Bool.and_eq_true, decide_eq_true_eq] at guard
      exact consistent_removeEndpointFromMap consistent entry guard.1
  | postDisconnected index =>
      obtain ⟨c, entry, guard, next⟩ := onConnection_eq_some stepped
      cases next
      exact consistent_postDisconnected consistent entry (by simpa using guard)
  | finalize =>
      simp only [step] at stepped
      split at stepped
      · rename_i allowed
        cases stepped
        simp only [Bool.and_eq_true, Option.isNone_iff_eq_none] at allowed
        exact consistent.disconnectStored (t := s.finalize) rfl rfl (fun _ => allowed.2) consistent.nodup
          (fun _ mem => mem) consistent.stored consistent.released
      · cases stepped
  | release =>
      simp only [step] at stepped
      split at stepped
      · cases stepped
        exact { consistent with }
      · cases stepped
  | destroyImpl =>
      simp only [step] at stepped
      split at stepped
      · rename_i allowed
        cases stepped
        simp only [Bool.and_eq_true, List.all_eq_true, Bool.not_eq_true'] at allowed
        refine consistent.disconnectStored (t := s.destroyImpl) rfl rfl consistent.finalizing List.nodup_nil
          nofun ?_ ?_
        · intro i c _
          simp [destroyImpl]
        · intro _ i c entry
          exact allowed.2 c (List.mem_of_getElem? entry)
      · cases stepped

theorem consistent_of_run {es : List Event} (ran : machine.run {} es = some s) : Consistent s :=
  Machine.run_invariant (P := Consistent) consistent_step consistent_init ran

end Steps

/-! ### Nothing is registered after `finalize` -/

/-- Once `m_is_finalizing` is set it stays, and what is registered later was registered by then. -/
def NoneSince (a b : ServerEndpoint) : Prop :=
  a.isFinalizing = true → b.isFinalizing = true ∧
    ∀ (i : Nat) (d : RegisteredConnection), b.connections[i]? = some d → d.registration = .registered →
      ∃ c, a.connections[i]? = some c ∧ c.id = d.id ∧ c.registration = .registered

namespace NoneSince

theorem refl (s : ServerEndpoint) : NoneSince s s :=
  fun finalizing => ⟨finalizing, fun _ d entry registered => ⟨d, entry, rfl, registered⟩⟩

theorem trans {a b c : ServerEndpoint} (first : NoneSince a b) (second : NoneSince b c) : NoneSince a c := by
  intro finalizing
  obtain ⟨finalizing', earlier⟩ := first finalizing
  obtain ⟨finalizing'', earlier'⟩ := second finalizing'
  refine ⟨finalizing'', fun i d entry registered => ?_⟩
  obtain ⟨d', entry', sameId', registered'⟩ := earlier' i d entry registered
  obtain ⟨d'', entry'', sameId'', registered''⟩ := earlier i d' entry' registered'
  exact ⟨d'', entry'', sameId''.trans sameId', registered''⟩

variable {s t : ServerEndpoint} {index : Nat} {c c' : RegisteredConnection}

theorem update (entry : s.connections[index]? = some c) (table : t.connections = s.connections.set index c')
    (sameFlag : t.isFinalizing = s.isFinalizing) (sameId : c'.id = c.id)
    (registered : c'.registration = .registered → c.registration = .registered) : NoneSince s t := by
  refine fun finalizing => ⟨sameFlag ▸ finalizing, fun i d after isRegistered => ?_⟩
  rcases Table.set_cases entry (table ▸ after) with ⟨rfl, rfl⟩ | ⟨_, before⟩
  · exact ⟨c, entry, sameId.symm, registered isRegistered⟩
  · exact ⟨d, before, rfl, isRegistered⟩

theorem disconnectStored (table : t.connections = s.disconnectStored)
    (sameFlag : s.isFinalizing = true → t.isFinalizing = true) : NoneSince s t := by
  refine fun finalizing => ⟨sameFlag finalizing, fun i d after registered => ?_⟩
  obtain ⟨c, before, rfl | rfl⟩ := disconnectStored_entry (table ▸ after)
  · exact ⟨d, before, rfl, registered⟩
  · exact ⟨c, before, rfl, registered⟩

/-- With the flag set no thread is inside, and the next one that gets in is turned away. -/
theorem processNewConnection (consistent : Consistent s) (entry : s.connections[index]? = some c)
    (stepped : s.processNewConnection index c = some t) : NoneSince s t := by
  by_cases finalizing : s.isFinalizing = true
  · have outside : c.registration.isInside = false := by
      rw [← Bool.not_eq_true, consistent.mutex index c entry, consistent.finalizing finalizing]
      simp
    simp only [ServerEndpoint.processNewConnection] at stepped
    cases registration : c.registration with
    | arrived =>
        simp only [registration, consistent.finalizing finalizing, finalizing] at stepped
        cases stepped
        exact update entry rfl rfl rfl nofun
    | entered | callbackSet | started | inserted | announced =>
        simp [registration, Registration.isInside] at outside
    | registered | rejected => simp [registration] at stepped
  · exact fun isFinalizing => absurd isFinalizing finalizing

end NoneSince

theorem noneSince_step {s t : ServerEndpoint} {e : Event} (consistent : Consistent s)
    (stepped : s.step e = some t) : NoneSince s t := by
  cases e with
  | onNewConnection id =>
      simp only [step] at stepped
      split at stepped
      · cases stepped
        refine fun finalizing => ⟨finalizing, fun i d after registered => ?_⟩
        rcases Table.push_cases after with before | ⟨_, rfl⟩
        · exact ⟨d, before, rfl, registered⟩
        · cases registered
      · cases stepped
  | processNewConnection index =>
      obtain ⟨c, entry, _, next⟩ := onConnection_eq_some stepped
      exact .processNewConnection consistent entry next
  | disconnect index | runCallback index | runContinuation index | removeEndpointFromMap index
  | postDisconnected index =>
      obtain ⟨c, entry, _, next⟩ := onConnection_eq_some stepped
      cases next
      exact .update entry rfl rfl rfl id
  | finalize =>
      simp only [step] at stepped
      split at stepped
      · cases stepped
        exact .disconnectStored rfl fun _ => rfl
      · cases stepped
  | release =>
      simp only [step] at stepped
      split at stepped
      · cases stepped
        exact .refl s
      · cases stepped
  | destroyImpl =>
      simp only [step] at stepped
      split at stepped
      · cases stepped
        exact .disconnectStored rfl id
      · cases stepped

theorem noneSince_of_run {s s₁ : ServerEndpoint} {es es₁ : List Event} (ran : machine.run {} es = some s)
    (beginning : es₁ <+: es) (ran₁ : machine.run {} es₁ = some s₁) : NoneSince s₁ s :=
  Machine.run_since (P := Consistent) (R := NoneSince) NoneSince.refl NoneSince.trans consistent_of_run
    noneSince_step ran beginning ran₁

theorem isFinalizing_of_run {s : ServerEndpoint} {es : List Event} (ran : machine.run {} es = some s)
    (finalized : Event.finalize ∈ es) : s.isFinalizing = true := by
  obtain ⟨before, after, rfl⟩ := List.append_of_mem finalized
  have beginning : before ++ [Event.finalize] <+: before ++ Event.finalize :: after :=
    ⟨after, by simp⟩
  obtain ⟨s₁, ran₁, _⟩ := Machine.run_append_eq_some.mp ran
  obtain ⟨s₂, stepped, ran₂⟩ := Machine.next_of_run ran beginning ran₁
  have finalizing : s₂.isFinalizing = true := by
    simp only [machine, step] at stepped
    split at stepped
    · cases stepped
      rfl
    · cases stepped
  exact (noneSince_of_run ran beginning ran₂ finalizing).1

/-! ### Notifications and the map -/

section Accounts

variable {s : ServerEndpoint}

/-- The ids are distinct, so that a strand belongs to one connection. -/
theorem Consistent.strand_eq (consistent : Consistent s) {c : RegisteredConnection} (mem : c ∈ s.connections) :
    s.strand c.id = c.notifications := by
  obtain ⟨i, entry⟩ := List.getElem?_of_mem mem
  have only : (s.connections.filter fun d => d.id = c.id) = [c] := by
    refine Table.filter_eq_singleton entry (by simp) fun j d other sameId => ?_
    exact consistent.distinct j i d c other entry (by simpa using sameId)
  simp [strand, only]

theorem strand_eq_nil {id : Nat} (unknown : ∀ c ∈ s.connections, c.id ≠ id) : s.strand id = [] := by
  have none : (s.connections.filter fun c => c.id = id) = [] :=
    List.filter_eq_nil_iff.mpr fun c mem => by simpa using unknown c mem
  simp [strand, none]

theorem Consistent.mem_endpointsMap (consistent : Consistent s) {id : Nat} :
    id ∈ s.endpointsMap ↔ s.alive = true ∧ ∃ c ∈ s.connections, c.id = id ∧ c.isStored = true := by
  constructor
  · intro mem
    obtain ⟨i, c, entry, rfl⟩ := consistent.known id mem
    have both := (consistent.stored i c entry).mp mem
    exact ⟨both.1, c, List.mem_of_getElem? entry, rfl, both.2⟩
  · rintro ⟨alive, c, mem, rfl, isStored⟩
    obtain ⟨i, entry⟩ := List.getElem?_of_mem mem
    exact (consistent.stored i c entry).mpr ⟨alive, isStored⟩

/-- A connection is notified of and stored only if it was registered before `finalize`. -/
theorem Consistent.silent_of_arrived {s₁ : ServerEndpoint} (consistent : Consistent s) (since : NoneSince s₁ s)
    (finalizing : s₁.isFinalizing = true) {c : RegisteredConnection} (mem : c ∈ s.connections)
    (arrived : ∀ c₁ ∈ s₁.connections, c₁.id = c.id → c₁.registration = .arrived) :
    c.notifications = [] ∧ c.isStored = false := by
  obtain ⟨finalizing', earlier⟩ := since finalizing
  obtain ⟨i, entry⟩ := List.getElem?_of_mem mem
  have outside : c.registration.isInside = false := by
    rw [← Bool.not_eq_true, consistent.mutex i c entry, consistent.finalizing finalizing']
    simp
  have unregistered : c.registration ≠ .registered := by
    intro registered
    obtain ⟨c₁, entry₁, sameId, registered₁⟩ := earlier i c entry registered
    cases registered₁.symm.trans (arrived c₁ (List.mem_of_getElem? entry₁) sameId)
  rw [(consistent.sound i c entry).notified, RegisteredConnection.expectedNotifications,
    RegisteredConnection.isStored]
  cases registration : c.registration with
  | arrived | rejected => exact ⟨rfl, rfl⟩
  | entered | callbackSet | started | inserted | announced =>
      simp [registration, Registration.isInside] at outside
  | registered => exact absurd registration unregistered

theorem hasTask_of_isIdle (idle : s.isIdle = true) {c : RegisteredConnection} (mem : c ∈ s.connections) :
    c.hasTask = false := by
  simpa using List.all_eq_true.mp idle c mem

/-- When nothing is left to do and the connection is lost, its continuation has ended. -/
theorem Consistent.done_of_idle (consistent : Consistent s) (idle : s.isIdle = true) {c : RegisteredConnection}
    (mem : c ∈ s.connections) (registered : c.registration = .registered) (disconnected : c.disconnected = true) :
    c.continuation = .done := by
  obtain ⟨i, entry⟩ := List.getElem?_of_mem mem
  exact (consistent.sound i c entry).settled registered disconnected (hasTask_of_isIdle idle mem)

/-- At every moment each strand was told at most that its connection was established and then that it was lost;
    a connection that had not got past the check when `finalize` ran is neither told nor stored; the map holds
    exactly the connections that were inserted and not yet removed by their continuation; and when all
    registered connections are lost and nothing is left to do, the map is empty and all were told both. -/
theorem connections_accounted {es : List Event} (ran : machine.run {} es = some s) :
    (∀ id, s.strand id <+: [.connected, .disconnected]) ∧
    (∀ es₁ s₁, es₁ <+: es → Event.finalize ∈ es₁ → machine.run {} es₁ = some s₁ →
      ∀ id, (∀ c ∈ s₁.connections, c.id = id → c.registration = .arrived) →
        s.strand id = [] ∧ id ∉ s.endpointsMap) ∧
    (s.alive = true → ∀ id, id ∈ s.endpointsMap ↔ ∃ c ∈ s.connections,
      c.id = id ∧ c.registration.isInserted = true ∧ c.continuation.hasRemoved = false) ∧
    (s.isIdle = true → (∀ c ∈ s.connections, c.registration = .registered → c.disconnected = true) →
      s.endpointsMap = [] ∧
      ∀ c ∈ s.connections, c.registration = .registered → s.strand c.id = [.connected, .disconnected]) := by
  have consistent := consistent_of_run ran
  refine ⟨?strands, ?finalized, ?map, ?idle⟩
  case strands =>
    intro id
    by_cases known : ∃ c ∈ s.connections, c.id = id
    · obtain ⟨c, mem, rfl⟩ := known
      obtain ⟨i, entry⟩ := List.getElem?_of_mem mem
      rw [consistent.strand_eq mem]
      exact (consistent.sound i c entry).notified_in_order
    · rw [strand_eq_nil fun c mem hasId => known ⟨c, mem, hasId⟩]
      exact List.nil_prefix
  case finalized =>
    intro es₁ s₁ beginning finalized ran₁ id arrived
    have finalizing := isFinalizing_of_run ran₁ finalized
    have silent {c : RegisteredConnection} (mem : c ∈ s.connections) (hasId : c.id = id) :
        c.notifications = [] ∧ c.isStored = false :=
      consistent.silent_of_arrived (noneSince_of_run ran beginning ran₁) finalizing mem (hasId ▸ arrived)
    constructor
    · rw [strand, List.flatMap_eq_nil_iff]
      intro c mem
      rw [List.mem_filter, decide_eq_true_eq] at mem
      exact (silent mem.1 mem.2).1
    · rw [consistent.mem_endpointsMap]
      rintro ⟨_, c, mem, hasId, isStored⟩
      cases (silent mem hasId).2.symm.trans isStored
  case map =>
    intro alive id
    simp only [consistent.mem_endpointsMap, alive, true_and, RegisteredConnection.isStored, Bool.and_eq_true,
      Bool.not_eq_true']
  case idle =>
    intro idle allLost
    constructor
    · refine List.eq_nil_iff_forall_not_mem.mpr fun id inMap => ?_
      obtain ⟨_, c, mem, rfl, isStored⟩ := consistent.mem_endpointsMap.mp inMap
      have registered := RegisteredConnection.registered_of_isStored isStored (hasTask_of_isIdle idle mem)
      have done := consistent.done_of_idle idle mem registered (allLost c mem registered)
      simp [RegisteredConnection.isStored, done, DisconnectContinuation.hasRemoved] at isStored
    · intro c mem registered
      obtain ⟨i, entry⟩ := List.getElem?_of_mem mem
      rw [consistent.strand_eq mem, (consistent.sound i c entry).notified,
        RegisteredConnection.expectedNotifications, registered]
      simp [consistent.done_of_idle idle mem registered (allLost c mem registered)]

/-- The first connection is lost while it is being registered and reported after the object is gone; the second
    one arrives after `finalize`. -/
theorem connections_accounted_example :
    ∃ s, machine.run {} [.onNewConnection 7, .processNewConnection 0, .disconnect 0, .processNewConnection 0,
        .runCallback 0, .processNewConnection 0, .processNewConnection 0, .processNewConnection 0,
        .processNewConnection 0, .finalize, .onNewConnection 8, .processNewConnection 1, .release, .destroyImpl,
        .runContinuation 0, .postDisconnected 0] = some s ∧
      (s.strand 7 = [.connected, .disconnected] ∧ s.endpointsMap = []) ∧
      s.strand 8 = [] ∧ 8 ∉ s.endpointsMap := by
  refine Machine.exists_run ⟨_, rfl, rfl, rfl⟩ fun ran _ => ?_
  obtain ⟨_, finalized, _⟩ := connections_accounted ran
  -- the first ten events end with `finalize`
  exact finalized (List.take 10 _) _ (List.take_prefix 10 _) (by decide) rfl 8 (by decide)

end Accounts

end ServerEndpoint

/-! ### The in-memory pipe under a connection -/

namespace MemBuffers

open Lib

/-- What a pipe may do to the connection over it. -/
inductive Changes : RegisteredConnection → RegisteredConnection → Prop where
  | disconnect (c : RegisteredConnection) : Changes c c.disconnect
  | setDisconnectCallback (c : RegisteredConnection) (unset : c.callback = .unset) :
      Changes c c.setDisconnectCallback

/-- Where the pipe has the callback with this name. -/
def callbackState (s : MemBuffers) (callback : Nat) : DisconnectCallback :=
  if callback ∈ s.executed then .posted
  else if callback ∈ s.onInvalidate then .waiting
  else .unset

/-- The connection is as the pipe has it. -/
structure Carries (s : MemBuffers) (callback : Nat) (c : RegisteredConnection) : Prop where
  disconnected : c.disconnected = s.invalidated
  callback : c.callback = s.callbackState callback

variable {s t : MemBuffers} {callback : Nat} {c : RegisteredConnection}

/-- A step of the pipe is one of these changes, or none. -/
theorem carries_step {e : Event} (carries : s.Carries callback c) (stepped : s.step e = some t)
    (fresh : e.callback = some callback → callback ∉ s.executed ++ s.onInvalidate) :
    t.Carries callback c ∨ ∃ c', Changes c c' ∧ t.Carries callback c' := by
  obtain ⟨disconnected, inCallback⟩ := carries
  cases step_callbackMove stepped with
  | none given invalidated executed onInvalidate =>
      refine .inl ⟨disconnected.trans invalidated.symm, ?_⟩
      rw [inCallback, callbackState, callbackState, executed, onInvalidate]
  | handedOver given invalidated executed onInvalidate =>
      refine .inr ⟨_, .disconnect c, invalidated.symm, ?_⟩
      simp only [RegisteredConnection.disconnect, inCallback, callbackState, executed, onInvalidate,
        List.mem_append, List.not_mem_nil, if_false]
      by_cases posted : callback ∈ s.executed <;> by_cases waiting : callback ∈ s.onInvalidate <;>
        simp [posted, waiting]
  | given name given =>
      subst given
      by_cases own : name = callback
      · subst own
        have unknown := fresh rfl
        rw [List.mem_append, not_or] at unknown
        have unset : c.callback = .unset := by rw [inCallback, callbackState, if_neg unknown.1, if_neg unknown.2]
        refine .inr ⟨_, .setDisconnectCallback c unset, ?_⟩
        simp only [setInvalidateCallback, RegisteredConnection.setDisconnectCallback]
        split
        · rename_i lost
          exact ⟨disconnected, by simp [callbackState, disconnected, lost]⟩
        · rename_i valid
          exact ⟨disconnected, by simp [callbackState, disconnected, valid, unknown.1]⟩
      · refine .inl ?_
        simp only [setInvalidateCallback]
        split
        · exact ⟨disconnected, by simpa [callbackState, Ne.symm own] using inCallback⟩
        · exact ⟨disconnected, by simpa [callbackState, Ne.symm own] using inCallback⟩

/-- What the in-memory pipe does with a disconnect callback that it is given once is what may happen to a
    connection at the server endpoint. -/
theorem pipe_refines {es : List Event} (ran : machine.run {} es = some s) (id callback : Nat)
    (once : (es.filterMap Event.callback).count callback ≤ 1) :
    ∃ c, Relation.ReflTransGen Changes { id := id } c ∧ s.Carries callback c := by
  induction es using List.reverseRecOn generalizing s with
  | nil =>
      cases ran
      exact ⟨_, .refl, rfl, rfl⟩
  | append_singleton es e ih =>
      obtain ⟨u, first, last⟩ := Machine.run_append_eq_some.mp ran
      obtain ⟨t, stepped, done⟩ := Machine.run_cons_eq_some.mp last
      cases done
      rw [List.filterMap_append, List.count_append] at once
      obtain ⟨c, reached, carries⟩ := ih first (by omega)
      have fresh : e.callback = some callback → callback ∉ u.executed ++ u.onInvalidate := by
        intro given
        rw [(callbacks_accounted first).inOrder, ← List.count_eq_zero]
        simp only [List.filterMap_cons, given, List.filterMap_nil, List.count_singleton_self] at once
        omega
      rcases carries_step carries stepped fresh with same | ⟨c', change, carries'⟩
      · exact ⟨c, reached, same⟩
      · exact ⟨c', reached.tail change, carries'⟩

end MemBuffers

end CommonRpc
