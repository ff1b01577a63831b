/-
Module: CommonRpc.Proofs.HandshakeAgreement
Purpose: Handshake agreement. Every step of the two connectors and of the pipes keeps what each side knows of the
  other; a client that holds a connection was therefore accepted for the request it sent, and nothing an
  authenticator made is dispatched as an RPC frame.
Trusted boundary: none
-/
import CommonRpc.Proofs.Handshake

namespace CommonRpc

universe u v

namespace Handshake

open Lib

variable {ρ : Type v} {β : Type u} {auth : Authenticator ρ β} {s t : Handshake β} {link : Link β} 
  {client : ClientCall β} {chain : ConnectChain (PipeMessage β)} {pipe index : Nat}

theorem Agreed.establish (inv : Agreed auth s) : Agreed auth { s with links := s.links ++ [{}] } := by
  refine { inv with links := ?_, clients := ?_, chains := ?_, hasChain := ?_ }
  · intro number now after
    rcases Table.push_cases after with old | ⟨_, rfl⟩
    · exact inv.links number now old
    · constructor <;> simp [Stream.all]
  · intro index client number atIndex onPipe
    obtain ⟨link, atPipe, ok⟩ := inv.clients index client number atIndex onPipe
    exact ⟨link, Table.push_old atPipe, ok⟩
  · intro index chain number atIndex onPipe
    obtain ⟨link, atPipe, ok⟩ := inv.chains index chain number atIndex onPipe
    exact ⟨link, Table.push_old atPipe, ok⟩
  · intro number now after isTaken
    rcases Table.push_cases after with old | ⟨_, rfl⟩
    · exact inv.hasChain number now old isTaken
    · cases isTaken

theorem Agreed.createConnectionAsync (inv : Agreed auth s) :
    Agreed auth { s with clients := s.clients ++ [{}] } := by
  have onlyOld {place number : Nat} {now : ClientCall β}
      (after : (s.clients ++ [({} : ClientCall β)])[place]? = some now) (onPipe : now.pipe = some number) :
      s.clients[place]? = some now := by
    rcases Table.push_cases after with old | ⟨_, rfl⟩
    · exact old
    · cases onPipe
  refine { inv with clients := ?_, oneClient := ?_, opening := ?_, connected := ?_ }
  · intro place now number after onPipe
    exact inv.clients place now number (onlyOld after onPipe) onPipe
  · intro i j first second number atI atJ firstOn secondOn
    exact inv.oneClient i j first second number (onlyOld atI firstOn) (onlyOld atJ secondOn) firstOn secondOn
  · intro now member opening
    rcases List.mem_append.mp member with old | new
    · exact inv.opening now old opening
    · rw [List.mem_singleton.mp new]
  · intro now member isConnected
    rcases List.mem_append.mp member with old | new
    · exact inv.connected now old isConnected
    · rw [List.mem_singleton.mp new] at isConnected
      cases isConnected

/-! ### The client -/

/-- A client without a connection goes on without one. -/
theorem ClientOk.stage (ok : ClientOk auth client link) (was : client.stage = .writing ∨ client.stage = .reading)
    {stage : ClientStage} (notConnected : stage ≠ .connected) :
    ClientOk auth { client with stage := stage } link where
  taken := ok.taken
  sent := by
    obtain ⟨chance, isRequest, first, onlyRequest, _⟩ := ok.sent
    refine ⟨chance, isRequest, first, fun _ => onlyRequest ?_, fun isConnected => absurd isConnected notConnected⟩
    rcases was with writing | reading
    · simp [writing]
    · simp [reading]
  waiting := fun _ => ok.waiting was
  answered := fun isConnected => absurd isConnected notConnected

theorem Agreed.setStage (inv : Agreed auth s) (found : s.clients[index]? = some client)
    (was : client.stage = .writing ∨ client.stage = .reading) {stage : ClientStage} (opened : stage ≠ .opening)
    (notConnected : stage ≠ .connected) : Agreed auth (s.setCall index { client with stage := stage }) :=
  inv.setCall found rfl (fun _ _ _ ok => ok.stage was notConnected) opened notConnected

/-- The client is given its end of a pipe and writes its request there, before anything else is written. -/
theorem Agreed.openResult (inv : Agreed auth s) (found : s.clients[index]? = some client)
    (opening : client.stage = .opening) {result : Option Nat} {chance : ρ}
    (stepped : s.openResult index client (auth.createRequest chance) result = some t) : Agreed auth t := by
  have noPipe := inv.opening client (List.mem_of_getElem? found) opening
  cases result with
  | none =>
      cases stepped
      refine inv.setCall found rfl ?_ nofun nofun
      intro number link onPipe
      rw [noPipe] at onPipe
      cases onPipe
  | some number =>
      simp only [Handshake.openResult] at stepped
      obtain ⟨pipe, link, isPipe, foundLink, changed⟩ := onLink_eq_some.mp stepped
      cases isPipe
      split at changed
      · cases changed
      · rename_i notTaken
        have free : link.clientTaken = false := by simpa using notTaken
        have linkOk := inv.links _ link foundLink
        obtain ⟨unwritten, unread⟩ := linkOk.clientFree free
        cases changed
        have written : LinkOk { link with
            clientTaken := true
            toServer := link.toServer.write ⟨auth.createRequest chance, true⟩ } :=
          linkOk.writeToServer (fun _ => unwritten) rfl
        refine inv.setCallAndLink found foundLink written rfl rfl ?_ ?_ nofun ?_
        · refine ⟨rfl, ⟨chance, rfl, ?_, fun _ => ?_, nofun⟩, fun _ => unread, nofun⟩
          · simp [Stream.write, unwritten]
          · simp [Stream.write, unwritten]
        · intro other now atOther onPipe
          have taken := (inv.link_of_client atOther onPipe foundLink).taken
          rw [free] at taken
          cases taken
        · exact fun chain _ _ ok => ok.keep rfl rfl rfl

/-- Whatever is written towards the client was written after the server had accepted the first message of the
    pipe. -/
theorem Agreed.accepted_of_written (inv : Agreed auth s) (foundLink : s.links[pipe]? = some link)
    (written : link.toClient.sent ≠ []) :
    ∃ chain ∈ s.server.chains, chain.pipe = some pipe ∧
      ∃ request, chain.checked = some (request, true) ∧ link.toServer.received.head? = some request ∧
        ∃ chance, auth.checkRequest chance request.bytes = true := by
  have taken : link.serverTaken = true := by
    by_contra free
    exact written ((inv.links pipe link foundLink).serverFree (by simpa using free)).2
  obtain ⟨chain, member, onPipe⟩ := inv.hasChain pipe link foundLink taken
  have ok := inv.link_of_chain member onPipe foundLink
  cases checked : chain.checked with
  | none => exact absurd (ok.unchecked checked).2 written
  | some answer =>
      obtain ⟨request, accepted⟩ := answer
      obtain ⟨head, refused⟩ := ok.checked request accepted checked
      cases accepted with
      | false => exact absurd (refused rfl) written
      | true =>
          obtain ⟨chance, isAccepted, _⟩ := ok.accepted request checked
          exact ⟨chain, member, onPipe, request, checked, head, chance, isAccepted⟩

theorem Agreed.responseRead (inv : Agreed auth s) (found : s.clients[index]? = some client)
    (reading : client.stage = .reading) (onPipe : client.pipe = some pipe)
    (foundLink : s.links[pipe]? = some link) {message : PipeMessage β} {rest : Stream β}
    (reads : link.toClient.read = some (message, rest)) {accepted : Bool} {chance : ρ}
    (answer : auth.checkResponse chance message.bytes = accepted) :
    Agreed auth ((s.setCall index { client with
      stage := if accepted then .connected else .failed
      checked := some (message, accepted) }).setLink pipe { link with toClient := rest }) := by
  have ok := inv.link_of_client found onPipe foundLink
  have linkOk := inv.links pipe link foundLink
  obtain ⟨all, sent, received, dispatched, member, _⟩ := Stream.read_eq_some reads
  rw [ok.waiting (.inr reading), List.nil_append] at received
  have notConnected : client.stage ≠ .connected := by simp [reading]
  obtain ⟨request, isRequest, isFirst, onlyRequest, _⟩ := ok.sent
  obtain ⟨_, _, _, first, _, head, _⟩ := inv.accepted_of_written foundLink
    (List.ne_nil_of_mem (linkOk.toClientSent.subset member))
  refine inv.setCallAndLink found foundLink
    (linkOk.readToClient all sent ok.taken (dispatched ▸ linkOk.clientDispatched)) rfl onPipe ?_ ?_ ?_ ?_
  · refine ⟨ok.taken, ⟨request, isRequest, isFirst, fun _ => onlyRequest notConnected, fun _ => ?_⟩, ?_, ?_⟩
    · -- the server read the first message while the client had written nothing but its request
      have inAll : first ∈ link.toServer.all := List.mem_append_left _ (List.mem_of_mem_head? head)
      rw [← onlyRequest notConnected first (linkOk.toServerSent.subset inAll)]
      exact head
    · cases accepted <;> simp
    · cases accepted with
      | false => exact nofun
      | true => exact fun _ => ⟨message, chance, rfl, by rw [received]; rfl, answer⟩
  · intro other now atOther otherOn
    exact inv.oneClient other index now client pipe atOther found otherOn onPipe
  · cases accepted <;> simp
  · exact fun chain _ _ chainOk => chainOk.keep rfl rfl sent

theorem Agreed.clientSends (inv : Agreed auth s) (found : s.clients[index]? = some client)
    (connected : client.stage = .connected) (onPipe : client.pipe = some pipe)
    (foundLink : s.links[pipe]? = some link) (frame : β) :
    Agreed auth (s.setLink pipe { link with toServer := link.toServer.write ⟨frame, false⟩ }) := by
  have ok := inv.link_of_client found onPipe foundLink
  have linkOk := inv.links pipe link foundLink
  refine inv.setLink foundLink (linkOk.writeToServer nofun ok.taken) rfl ?_ ?_
  · intro other member otherOn _
    obtain rfl := inv.client_unique member (List.mem_of_getElem? found) otherOn onPipe
    obtain ⟨request, isRequest, isFirst, _, wasRead⟩ := ok.sent
    exact ⟨ok.taken, ⟨request, isRequest, head?_concat isFirst,
      fun notConnected => absurd connected notConnected, wasRead⟩, ok.waiting, ok.answered⟩
  · exact fun chain _ _ chainOk => chainOk.keep rfl rfl rfl

theorem Agreed.clientDispatches (inv : Agreed auth s) (found : s.clients[index]? = some client)
    (connected : client.stage = .connected) (onPipe : client.pipe = some pipe)
    (foundLink : s.links[pipe]? = some link) {rest : Stream β} (dispatches : link.toClient.dispatch = some rest) :
    Agreed auth (s.setLink pipe { link with toClient := rest }) := by
  have ok := inv.link_of_client found onPipe foundLink
  have linkOk := inv.links pipe link foundLink
  obtain ⟨response, chance, checked, head, answer⟩ := ok.answered connected
  obtain ⟨message, all, sent, received, dispatched, inTail⟩ := Stream.dispatch_eq_some dispatches
  have notFirst := inTail (List.ne_nil_of_mem (List.mem_of_mem_head? head))
  refine inv.setLink foundLink (linkOk.readToClient all sent ok.taken ?_) rfl ?_ ?_
  · have own := linkOk.toClientFirst message (linkOk.toClientSent.tail.subset notFirst)
    rw [dispatched]
    exact List.forall_mem_append.mpr ⟨linkOk.clientDispatched, List.forall_mem_singleton.mpr own⟩
  · intro other member otherOn _
    obtain rfl := inv.client_unique member (List.mem_of_getElem? found) otherOn onPipe
    refine ⟨ok.taken, ok.sent, ?_, fun _ => ⟨response, chance, checked, ?_, answer⟩⟩
    · rw [connected]
      exact fun impossible => by cases impossible <;> contradiction
    · rw [received]
      exact head?_concat head
  · exact fun chain _ _ chainOk => chainOk.keep rfl rfl sent

/-! ### The server -/

/-- The chain is given its end of a pipe, where nothing has been read or written by a server. -/
theorem Agreed.pipeResult (inv : Agreed auth s) {result : Option Nat}
    (stepped : s.pipeResult index result = some t) : Agreed auth t := by
  cases result with
  | none =>
      obtain ⟨server, moved, rfl⟩ := Option.map_eq_some_iff.mp stepped
      have vetted := ServerConnector.step_vetted inv.vetted moved
      obtain ⟨chain, found, creating, rfl⟩ := ServerConnector.onChain_eq_some.mp moved
      have noPipe := ((inv.vetted.chains chain (List.mem_of_getElem? found)).noPipe (.inl creating)).1
      refine inv.setServer vetted (ServerConnector.KeepsPipes.setChain found ?_)
      simp [ServerConnector.told, noPipe]
  | some number =>
      simp only [Handshake.pipeResult] at stepped
      obtain ⟨pipe, link, isPipe, foundLink, changed⟩ := onLink_eq_some.mp stepped
      cases isPipe
      split at changed
      · cases changed
      · rename_i notTaken
        have free : link.serverTaken = false := by simpa using notTaken
        have linkOk := inv.links _ link foundLink
        obtain ⟨server, moved, rfl⟩ := Option.map_eq_some_iff.mp changed
        have vetted := ServerConnector.step_vetted inv.vetted moved
        obtain ⟨chain, found, creating, rfl⟩ := ServerConnector.onChain_eq_some.mp moved
        have sound := inv.vetted.chains chain (List.mem_of_getElem? found)
        obtain ⟨noPipe, unchecked⟩ := sound.noPipe (.inl creating)
        have taken : LinkOk { link with serverTaken := true } :=
          { linkOk with serverFree := fun untaken => by cases untaken }
        refine inv.setChainAndLink found foundLink taken vetted rfl ?_ (.inr noPipe) ?_ ?_
        · refine ⟨rfl, fun _ => linkOk.serverFree free, ?_, ?_⟩
          · intro request accepted isChecked
            rw [show _ = chain.checked from rfl, unchecked] at isChecked
            cases isChecked
          · intro request isChecked
            rw [show _ = chain.checked from rfl, unchecked] at isChecked
            cases isChecked
        · intro other now atOther onPipe
          have isTaken := (inv.link_of_chain (List.mem_of_getElem? atOther) onPipe foundLink).taken
          rw [free] at isTaken
          cases isTaken
        · exact fun client _ _ ok => ok.keep rfl rfl (fun _ => id) rfl

/-- What the continuation of a successful read tells the chain. -/
theorem readCompletes_success (chain : ConnectChain (PipeMessage β)) (request response : PipeMessage β)
    (accepted : Bool) :
    (ServerConnector.readCompletes chain .success request accepted response).pipe = chain.pipe ∧
      (ServerConnector.readCompletes chain .success request accepted response).checked =
        some (request, accepted) ∧
      (accepted = true →
        (ServerConnector.readCompletes chain .success request accepted response).response = some response) := by
  cases accepted with
  | false => exact ⟨rfl, rfl, nofun⟩
  | true => exact ⟨rfl, rfl, fun _ => rfl⟩

/-- The server reads the first message of the pipe, and answers it if the authenticator accepts it. -/
theorem Agreed.requestRead (inv : Agreed auth s) (found : s.server.chains[index]? = some chain) {chance : ρ}
    (stepped : s.requestRead auth index chain chance = some t) : Agreed auth t := by
  simp only [Handshake.requestRead] at stepped
  obtain ⟨pipe, link, onPipe, foundLink, changed⟩ := onLink_eq_some.mp stepped
  obtain ⟨⟨message, rest⟩, reads, changed⟩ := Option.bind_eq_some_iff.mp changed
  obtain ⟨server, moved, rfl⟩ := Option.map_eq_some_iff.mp changed
  generalize answer : auth.checkRequest chance message.bytes = accepted at moved
  have vetted := ServerConnector.step_vetted inv.vetted moved
  obtain ⟨now, atNow, reading, rfl⟩ := ServerConnector.onChain_eq_some.mp moved
  obtain rfl : chain = now := Option.some.inj (found.symm.trans atNow)
  have member := List.mem_of_getElem? found
  have unchecked := (inv.vetted.chains chain member).unchecked (.inr reading)
  have chainOk := inv.link_of_chain member onPipe foundLink
  obtain ⟨unread, unwritten⟩ := chainOk.unchecked unchecked
  obtain ⟨all, sent, received, dispatched, _, _⟩ := Stream.read_eq_some reads
  rw [unread, List.nil_append] at received
  obtain ⟨samePipe, isChecked, isResponse⟩ := readCompletes_success chain message
    ⟨auth.createResponse chance message.bytes, true⟩ accepted
  have linkOk := inv.links pipe link foundLink
  have read : LinkOk { link with toServer := rest } :=
    linkOk.readToServer all sent chainOk.taken (dispatched ▸ linkOk.serverDispatched)
  refine inv.setChainAndLink found foundLink ?_ vetted (samePipe.trans onPipe) ?_ (.inl onPipe) ?_ ?_
  · cases accepted with
    | false => exact read
    | true => exact read.writeToClient (fun _ => unwritten) chainOk.taken
  · refine ⟨chainOk.taken, ?_, ?_, ?_⟩
    · rw [isChecked]
      exact nofun
    · rw [isChecked]
      rintro first answer ⟨⟩
      refine ⟨by rw [received]; rfl, ?_⟩
      rintro rfl
      exact unwritten
    · rw [isChecked]
      rintro first ⟨⟩
      refine ⟨chance, answer, isResponse rfl, ?_⟩
      simp [Stream.write, unwritten]
  · intro other now atOther otherOn
    exact inv.oneChain other index now chain pipe atOther found otherOn onPipe
  · intro client _ _ ok
    refine ok.keep rfl sent ?_ ?_
    · intro first head
      rw [unread] at head
      cases head
    · cases accepted <;> rfl

theorem Agreed.requestReadFails (inv : Agreed auth s) {res : PipeOpRes} (fails : res.isFail = true)
    {request response : PipeMessage β} {accepted : Bool} {server : ServerConnector (PipeMessage β)}
    (moved : s.server.step (.readCompletes index res request accepted response) = some server) :
    Agreed auth { s with server := server } := by
  have vetted := ServerConnector.step_vetted inv.vetted moved
  obtain ⟨chain, found, _, rfl⟩ := ServerConnector.onChain_eq_some.mp moved
  refine inv.setServer vetted (ServerConnector.KeepsPipes.setChain found ?_)
  simp [ServerConnector.readCompletes, ServerConnector.told, fails]

/-- A chain that has accepted its client knows no more than the request that it accepted. -/
theorem ChainOk.of_accepted {chain : ConnectChain (PipeMessage β)} {link : Link β} {request : PipeMessage β}
    (taken : link.serverTaken = true) (accepted : chain.checked = some (request, true))
    (head : link.toServer.received.head? = some request) {chance : ρ}
    (answer : auth.checkRequest chance request.bytes = true)
    (response : chain.response = some ⟨auth.createResponse chance request.bytes, true⟩)
    (sent : link.toClient.sent.head? = some ⟨auth.createResponse chance request.bytes, true⟩) :
    ChainOk auth chain link where
  taken := taken
  unchecked none := by
    rw [accepted] at none
    cases none
  checked first answer same := by
    cases accepted.symm.trans same
    exact ⟨head, fun rejected => by cases rejected⟩
  accepted first same := by
    cases accepted.symm.trans same
    exact ⟨chance, answer, response, sent⟩

theorem Agreed.serverSends (inv : Agreed auth s) (published : s.published pipe = true)
    (foundLink : s.links[pipe]? = some link) (frame : β) :
    Agreed auth (s.setLink pipe { link with toClient := link.toClient.write ⟨frame, false⟩ }) := by
  obtain ⟨chain, member, onPipe, admitted⟩ := inv.chain_of_published published
  obtain ⟨request, accepted⟩ := admitted.accepted
  have ok := inv.link_of_chain member onPipe foundLink
  obtain ⟨chance, answer, response, sent⟩ := ok.accepted request accepted
  refine inv.setLink foundLink ((inv.links pipe link foundLink).writeToClient nofun ok.taken) rfl ?_ ?_
  · exact fun client _ _ clientOk => clientOk.keep rfl rfl (fun _ => id) rfl
  · intro other otherMember otherOn _
    obtain rfl := inv.chain_unique otherMember member otherOn onPipe
    exact .of_accepted ok.taken accepted (ok.checked request true accepted).1 answer response (head?_concat sent)

theorem Agreed.serverDispatches (inv : Agreed auth s) (published : s.published pipe = true)
    (foundLink : s.links[pipe]? = some link) {rest : Stream β} (dispatches : link.toServer.dispatch = some rest) :
    Agreed auth (s.setLink pipe { link with toServer := rest }) := by
  obtain ⟨chain, member, onPipe, admitted⟩ := inv.chain_of_published published
  obtain ⟨request, accepted⟩ := admitted.accepted
  have ok := inv.link_of_chain member onPipe foundLink
  have linkOk := inv.links pipe link foundLink
  have head := (ok.checked request true accepted).1
  obtain ⟨chance, answer, response, isFirst⟩ := ok.accepted request accepted
  obtain ⟨message, all, sent, received, dispatched, inTail⟩ := Stream.dispatch_eq_some dispatches
  have notFirst := inTail (List.ne_nil_of_mem (List.mem_of_mem_head? head))
  refine inv.setLink foundLink (linkOk.readToServer all sent ok.taken ?_) rfl ?_ ?_
  · have own := linkOk.toServerFirst message (linkOk.toServerSent.tail.subset notFirst)
    rw [dispatched]
    exact List.forall_mem_append.mpr ⟨linkOk.serverDispatched, List.forall_mem_singleton.mpr own⟩
  · intro client _ _ clientOk
    refine clientOk.keep rfl sent ?_ rfl
    intro first isFirst
    rw [received]
    exact head?_concat isFirst
  · intro other otherMember otherOn _
    obtain rfl := inv.chain_unique otherMember member otherOn onPipe
    refine .of_accepted ok.taken accepted ?_ answer response isFirst
    rw [received]
    exact head?_concat head

theorem Agreed.lose (inv : Agreed auth s) (foundLink : s.links[pipe]? = some link) (toServer : Bool) (place : Nat) :
    Agreed auth (s.setLink pipe
      (if toServer then { link with toServer := link.toServer.lose place }
      else { link with toClient := link.toClient.lose place })) := by
  have linkOk := inv.links pipe link foundLink
  cases toServer with
  | true =>
      refine inv.setLink foundLink (linkOk.loseToServer place) rfl ?_ ?_
      · exact fun client _ _ ok => ok.keep rfl rfl (fun _ => id) rfl
      · exact fun chain _ _ ok => ok.keep rfl rfl rfl
  | false =>
      refine inv.setLink foundLink (linkOk.loseToClient place) rfl ?_ ?_
      · exact fun client _ _ ok => ok.keep rfl rfl (fun _ => id) rfl
      · exact fun chain _ _ ok => ok.keep rfl rfl rfl

/-! ### Every step and every run -/

end Handshake

end CommonRpc
