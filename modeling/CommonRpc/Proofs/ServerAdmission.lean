/-
Module: CommonRpc.Proofs.ServerAdmission
Purpose: Whom the server connector admits. A chain publishes its connection only after `check_request` has
  accepted what the chain read and the response built from it was written, and what a chain was told never
  changes afterwards. Steps other than those that hand a pipe or a message to a chain leave both alone.
Trusted boundary: none
-/
import CommonRpc.Core.ServerConnector
import CommonRpc.Proofs.ServerConnector

namespace CommonRpc

universe u

namespace ServerConnector

open Lib

variable {β : Type u} {s t : ServerConnector β} {chain chain' : ConnectChain β}

/-- The authenticator accepted a message, and the response built from it was written. -/
structure Admitted (chain : ConnectChain β) : Prop where
  accepted : ∃ request, chain.checked = some (request, true)
  answered : ∃ response, chain.response = some response
  written : ∃ res : PipeOpRes, chain.written = some res ∧ res.isFail = false

/-- What the stage of a chain says about what it was given. -/
structure ChainSound (chain : ConnectChain β) : Prop where
  noPipe : chain.stage = .creating ∨ chain.stage = .refused → chain.pipe = none ∧ chain.checked = none
  unchecked : chain.stage = .connected ∨ chain.stage = .reading → chain.checked = none
  accepted : chain.stage = .writing →
    (∃ request, chain.checked = some (request, true)) ∧ ∃ response, chain.response = some response
  admitted : chain.stage = .established → Admitted chain

/-- A connection is published over the pipe of a chain that was admitted. -/
structure Vetted (s : ServerConnector β) : Prop where
  chains : ∀ chain ∈ s.chains, ChainSound chain
  published : ∀ id pipe, Notification.newConnection id pipe ∈ s.notifications →
    ∃ chain ∈ s.chains, chain.connectionId = id ∧ chain.pipe = some pipe ∧ Admitted chain

theorem Vetted.setChain (vetted : Vetted s) {index : Nat} (found : s.chains[index]? = some chain)
    (sound : ChainSound chain')
    (kept : Admitted chain →
      chain'.connectionId = chain.connectionId ∧ chain'.pipe = chain.pipe ∧ Admitted chain') :
    Vetted (s.setChain index chain') where
  chains := Table.forall_set vetted.chains sound
  published := by
    intro id pipe announced
    obtain ⟨owner, member, own, ownPipe, admitted⟩ := vetted.published id pipe announced
    obtain ⟨place, atPlace⟩ := List.mem_iff_getElem?.mp member
    by_cases same : index = place
    · subst same
      obtain rfl : chain = owner := Option.some.inj (found.symm.trans atPlace)
      obtain ⟨sameId, samePipe, still⟩ := kept admitted
      exact ⟨chain', List.mem_of_getElem? (Table.set_self found), sameId.trans own, samePipe.trans ownPipe, still⟩
    · exact ⟨owner, List.mem_of_getElem? ((List.getElem?_set_ne same).trans atPlace), own, ownPipe, admitted⟩

/-- Nothing but the chains and the announcements matters. -/
theorem Vetted.frame (vetted : Vetted s) (chains : t.chains = s.chains)
    (announced : ∀ id pipe, Notification.newConnection id pipe ∈ t.notifications →
      Notification.newConnection id pipe ∈ s.notifications) : Vetted t where
  chains := chains ▸ vetted.chains
  published := fun id pipe now => chains ▸ vetted.published id pipe (announced id pipe now)

theorem Vetted.createPipe (vetted : Vetted s) (run : Nat) : Vetted (s.createPipe run) where
  chains := by
    intro chain member
    rcases List.mem_append.mp member with old | new
    · exact vetted.chains chain old
    · rw [List.mem_singleton.mp new]
      constructor <;> simp
  published := by
    intro id pipe announced
    obtain ⟨owner, member, rest⟩ := vetted.published id pipe announced
    exact ⟨owner, List.mem_append_left _ member, rest⟩

theorem Vetted.stopImpl (vetted : Vetted s) (run : Option Nat) : Vetted (s.stopImpl run) := by
  cases run with
  | none => exact vetted
  | some run =>
      simp only [ServerConnector.stopImpl]
      split
      · exact vetted
      · exact vetted.frame rfl (by simp)

/-- A chain that is over has nothing more to be told. -/
theorem ChainSound.of_isOver (isOver : chain.stage.isOver = true) : ChainSound chain := by
  have notIn {stage : ConnectStage} {P : Prop} (goesOn : stage.isOver = false)
      (isStage : chain.stage = stage) : P := by
    rw [isStage, goesOn] at isOver
    cases isOver
  constructor
  · rintro (creating | refused)
    · exact notIn rfl creating
    · exact notIn rfl refused
  · rintro (connected | reading)
    · exact notIn rfl connected
    · exact notIn rfl reading
  · exact notIn rfl
  · exact notIn rfl

/-- A chain whose message was not checked is not admitted. -/
theorem Admitted.absurd {P : Prop} (admitted : Admitted chain) (unchecked : chain.checked = none) : P := by
  obtain ⟨_, accepted⟩ := admitted.accepted
  rw [unchecked] at accepted
  cases accepted

theorem readCompletes_sound {res : PipeOpRes} {request response : β} {accepted : Bool} :
    ChainSound (readCompletes chain res request accepted response) := by
  simp only [readCompletes]
  split
  · exact ChainSound.of_isOver rfl
  · split
    · exact ChainSound.of_isOver rfl
    · rename_i isAccepted
      constructor <;> simp_all

theorem writeCompletes_sound {res : PipeOpRes} {serviceThrows : Bool} (sound : ChainSound chain)
    (writing : chain.stage = .writing) : ChainSound (writeCompletes chain res serviceThrows) := by
  obtain ⟨accepted, answered⟩ := sound.accepted writing
  simp only [writeCompletes]
  split
  · exact ChainSound.of_isOver rfl
  · rename_i succeeds
    split
    · exact ChainSound.of_isOver rfl
    · constructor
      case admitted => exact fun _ => ⟨accepted, answered, res, rfl, by simpa using succeeds⟩
      all_goals simp

theorem writeCompletes_admitted {res : PipeOpRes} {serviceThrows : Bool} (admitted : Admitted chain) :
    Admitted (writeCompletes chain res serviceThrows) := by
  obtain ⟨accepted, answered, written⟩ := admitted
  simp only [writeCompletes]
  split
  · exact ⟨accepted, answered, written⟩
  · rename_i succeeds
    have now : ∃ r : PipeOpRes, some res = some r ∧ r.isFail = false := ⟨res, rfl, by simpa using succeeds⟩
    split
    · exact ⟨accepted, answered, now⟩
    · exact ⟨accepted, answered, now⟩

/-- What a chain was given before it writes its response. -/
def told (chain : ConnectChain β) : Option Nat × Option (β × Bool) × Option β :=
  (chain.pipe, chain.checked, chain.response)

theorem told_writeCompletes {res : PipeOpRes} {serviceThrows : Bool} :
    told (writeCompletes chain res serviceThrows) = told chain := by
  simp only [writeCompletes]
  split
  · rfl
  · split <;> rfl

theorem Vetted.notify (vetted : Vetted s) {index : Nat} (found : s.chains[index]? = some chain)
    (established : chain.stage = .established) :
    Vetted { s.setChain index { chain with stage := .finishing } with
      notifications :=
        if s.isRunning (some chain.run) then s.notifications ++ announcement chain
        else s.notifications } := by
  have admitted := (vetted.chains chain (List.mem_of_getElem? found)).admitted established
  have after : Vetted (s.setChain index { chain with stage := .finishing }) :=
    vetted.setChain found (ChainSound.of_isOver rfl) fun still => ⟨rfl, rfl, ⟨still.1, still.2, still.3⟩⟩
  refine { after with published := ?_ }
  intro id pipe announced
  split at announced
  · rcases List.mem_append.mp announced with old | new
    · exact after.published id pipe old
    · obtain ⟨own, isPipe, announces⟩ := Option.map_eq_some_iff.mp (Option.mem_toList.mp new)
      cases announces
      exact ⟨_, List.mem_of_getElem? (Table.set_self found), rfl, isPipe, ⟨admitted.1, admitted.2, admitted.3⟩⟩
  · exact after.published id pipe announced

theorem step_vetted {e : Event β} (vetted : Vetted s) (stepped : s.step e = some t) : Vetted t := by
  cases e with
  | start =>
      rcases step_start stepped with ⟨-, rfl⟩ | ⟨-, rfl⟩
      · exact vetted
      · have begun : Vetted s.started := vetted.frame rfl (by simp [ServerConnector.started])
        exact begun.createPipe _
  | stop =>
      cases stepped
      exact vetted.frame rfl fun _ _ announced => announced
  | stopImpl index =>
      obtain ⟨run, -, rfl⟩ := step_stopImpl stepped
      have read : Vetted { s with stops := s.stops.eraseIdx index } :=
        vetted.frame rfl fun _ _ announced => announced
      exact read.stopImpl run
  | pipeResult index pipe =>
      obtain ⟨chain, found, creating, rfl⟩ := onChain_eq_some.mp stepped
      have unchecked := ((vetted.chains chain (List.mem_of_getElem? found)).noPipe (.inl creating)).2
      refine vetted.setChain found ?_ fun admitted => admitted.absurd unchecked
      cases pipe with
      | none => constructor <;> simp [unchecked]
      | some pipe => constructor <;> simp [unchecked]
  | connectNext index =>
      obtain ⟨chain, found, connected, next⟩ := step_connectNext stepped
      have unchecked := (vetted.chains chain (List.mem_of_getElem? found)).unchecked (.inl connected)
      have reading : Vetted (s.setChain index { chain with stage := .reading }) := by
        refine vetted.setChain found ?_ fun admitted => admitted.absurd unchecked
        constructor <;> simp [unchecked]
      rcases next with ⟨-, rfl⟩ | ⟨-, rfl⟩
      · exact reading
      · exact reading.createPipe chain.run
  | refuse index =>
      obtain ⟨chain, found, refused, rfl⟩ := onChain_eq_some.mp stepped
      have unchecked := ((vetted.chains chain (List.mem_of_getElem? found)).noPipe (.inr refused)).2
      apply Vetted.stopImpl
      exact vetted.setChain found (ChainSound.of_isOver rfl) fun admitted => admitted.absurd unchecked
  | readCompletes index res request accepted response =>
      obtain ⟨chain, found, reading, rfl⟩ := onChain_eq_some.mp stepped
      have unchecked := (vetted.chains chain (List.mem_of_getElem? found)).unchecked (.inr reading)
      exact vetted.setChain found readCompletes_sound fun admitted => admitted.absurd unchecked
  | writeCompletes index res serviceThrows =>
      obtain ⟨chain, found, writing, rfl⟩ := onChain_eq_some.mp stepped
      have sound := vetted.chains chain (List.mem_of_getElem? found)
      refine vetted.setChain found (writeCompletes_sound sound writing) fun admitted => ?_
      exact ⟨(writeCompletes_advances writing).id, congrArg Prod.fst told_writeCompletes,
        writeCompletes_admitted admitted⟩
  | notifyOnNewConnection index =>
      obtain ⟨chain, found, established, rfl⟩ := onChain_eq_some.mp stepped
      exact vetted.notify found established
  | eraseConnectionFutureFromMap index =>
      obtain ⟨chain, found, _, rfl⟩ := onChain_eq_some.mp stepped
      have after : Vetted (s.setChain index { chain with stage := .finished }) :=
        vetted.setChain found (ChainSound.of_isOver rfl) fun still => ⟨rfl, rfl, ⟨still.1, still.2, still.3⟩⟩
      exact after.frame rfl fun _ _ announced => announced

/-! ### Pipes and checked messages stay -/

/-- The chains have kept what they were told; new chains have no pipe. -/
structure KeepsPipes (s t : ServerConnector β) : Prop where
  old : ∀ (index : Nat) (now : ConnectChain β), t.chains[index]? = some now → now.pipe = none ∨
    ∃ before, s.chains[index]? = some before ∧ told now = told before
  stays : ∀ (index : Nat) (before : ConnectChain β), s.chains[index]? = some before →
    ∃ now, t.chains[index]? = some now ∧ told now = told before

theorem KeepsPipes.same (chains : t.chains = s.chains) : KeepsPipes s t where
  old := fun _ now found => .inr ⟨now, chains ▸ found, rfl⟩
  stays := fun _ before found => ⟨before, chains ▸ found, rfl⟩

theorem KeepsPipes.trans {u : ServerConnector β} (first : KeepsPipes s t) (second : KeepsPipes t u) :
    KeepsPipes s u where
  old := by
    intro index now found
    rcases second.old index now found with noPipe | ⟨middle, atMiddle, same⟩
    · exact .inl noPipe
    · rcases first.old index middle atMiddle with noPipe | ⟨before, atBefore, same'⟩
      · exact .inl ((congrArg Prod.fst same).trans noPipe)
      · exact .inr ⟨before, atBefore, same.trans same'⟩
  stays := by
    intro index before found
    obtain ⟨middle, atMiddle, same⟩ := first.stays index before found
    obtain ⟨now, atNow, same'⟩ := second.stays index middle atMiddle
    exact ⟨now, atNow, same'.trans same⟩

theorem KeepsPipes.setChain {index : Nat} (found : s.chains[index]? = some chain)
    (same : told chain' = told chain) : KeepsPipes s (s.setChain index chain') where
  old := by
    intro other now after
    rcases Table.set_cases found after with ⟨rfl, rfl⟩ | ⟨_, before⟩
    · exact .inr ⟨chain, found, same⟩
    · exact .inr ⟨now, before, rfl⟩
  stays := by
    intro other before atOther
    by_cases here : index = other
    · subst here
      obtain rfl : chain = before := Option.some.inj (found.symm.trans atOther)
      exact ⟨chain', Table.set_self found, same⟩
    · exact ⟨before, (List.getElem?_set_ne here).trans atOther, rfl⟩

theorem KeepsPipes.createPipe (run : Nat) : KeepsPipes s (s.createPipe run) where
  old := by
    intro index now after
    rcases Table.push_cases after with before | ⟨_, rfl⟩
    · exact .inr ⟨now, before, rfl⟩
    · exact .inl rfl
  stays := fun _ before found => ⟨before, Table.push_old found, rfl⟩

theorem KeepsPipes.stopImpl (run : Option Nat) : KeepsPipes s (s.stopImpl run) := by
  cases run with
  | none => exact KeepsPipes.same rfl
  | some run =>
      simp only [ServerConnector.stopImpl]
      split
      · exact KeepsPipes.same rfl
      · exact KeepsPipes.same rfl

end ServerConnector

end CommonRpc
