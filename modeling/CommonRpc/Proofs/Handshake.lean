/-
Module: CommonRpc.Proofs.Handshake
Purpose: What the two connectors know of each other. On each pipe at most the first message of a direction was
  made by an authenticator, and the handshake of the side that reads it takes it before its connection can
  dispatch anything. The server writes to a pipe only after it has accepted the first message of that pipe, so
  whatever a client reads was written by a server that accepted the request of that client.
Trusted boundary: none
-/
import CommonRpc.Core.Handshake
import CommonRpc.Lib.Table
import CommonRpc.Proofs.ServerAdmission

namespace CommonRpc

universe u v

/-! ### The streams of a pipe -/

namespace Stream

variable {β : Type u} {stream rest : Stream β} {message : PipeMessage β}

/-- Everything that was read or may still be read, in order. -/
def all (stream : Stream β) : List (PipeMessage β) := stream.received ++ stream.inFlight

theorem all_write : (stream.write message).all = stream.all ++ [message] := by
  simp [all, write]

theorem all_lose (stream : Stream β) (index : Nat) : ((stream.lose index).all).Sublist stream.all :=
  (List.eraseIdx_sublist stream.inFlight index).append_left stream.received

/-- A read takes the next message; after the first read it is not the first of the stream. -/
theorem read_eq_some (reads : stream.read = some (message, rest)) :
    rest.all = stream.all ∧ rest.sent = stream.sent ∧ rest.received = stream.received ++ [message] ∧
      rest.dispatched = stream.dispatched ∧ message ∈ stream.all ∧
      (stream.received ≠ [] → message ∈ stream.all.tail) := by
  simp only [read] at reads
  split at reads
  · cases reads
  · rename_i next others inFlight
    cases reads
    refine ⟨by simp [all, inFlight], rfl, rfl, rfl, by simp [all, inFlight], ?_⟩
    intro read
    rw [all, inFlight, List.tail_append_of_ne_nil read]
    simp

theorem dispatch_eq_some (dispatches : stream.dispatch = some rest) :
    ∃ message, rest.all = stream.all ∧ rest.sent = stream.sent ∧ rest.received = stream.received ++ [message] ∧
      rest.dispatched = stream.dispatched ++ [message] ∧
      (stream.received ≠ [] → message ∈ stream.all.tail) := by
  obtain ⟨⟨message, after⟩, reads, rfl⟩ := Option.map_eq_some_iff.mp dispatches
  obtain ⟨all, sent, received, dispatched, _, tail⟩ := read_eq_some reads
  exact ⟨message, all, sent, received, congrArg (· ++ [message]) dispatched, tail⟩

end Stream

namespace Handshake

open Lib

variable {ρ : Type v} {β : Type u} {auth : Authenticator ρ β} {s t : Handshake β} {link link' : Link β}
  {client client' : ClientCall β} {chain chain' : ConnectChain (PipeMessage β)}

/-! ### The invariant -/

/-- What holds of a pipe by itself. -/
structure LinkOk (link : Link β) : Prop where
  /-- Only the first message of a direction may come from an authenticator. -/
  toServerFirst : ∀ message ∈ link.toServer.sent.tail, message.isAuth = false
  toClientFirst : ∀ message ∈ link.toClient.sent.tail, message.isAuth = false
  toServerSent : link.toServer.all.Sublist link.toServer.sent
  toClientSent : link.toClient.all.Sublist link.toClient.sent
  serverDispatched : ∀ message ∈ link.toServer.dispatched, message.isAuth = false
  clientDispatched : ∀ message ∈ link.toClient.dispatched, message.isAuth = false
  clientFree : link.clientTaken = false → link.toServer.sent = [] ∧ link.toClient.received = []
  serverFree : link.serverTaken = false → link.toServer.received = [] ∧ link.toClient.sent = []

/-- What the client that has one end of a pipe knows of it. -/
structure ClientOk (auth : Authenticator ρ β) (client : ClientCall β) (link : Link β) : Prop where
  taken : link.clientTaken = true
  /-- Before it has its connection, the client has written nothing but its request. -/
  sent : ∃ chance, client.request = some (auth.createRequest chance) ∧
    link.toServer.sent.head? = some ⟨auth.createRequest chance, true⟩ ∧
    (client.stage ≠ .connected → ∀ message ∈ link.toServer.sent, message = ⟨auth.createRequest chance, true⟩) ∧
    (client.stage = .connected → link.toServer.received.head? = some ⟨auth.createRequest chance, true⟩)
  waiting : client.stage = .writing ∨ client.stage = .reading → link.toClient.received = []
  answered : client.stage = .connected →
    ∃ response chance, client.checked = some (response, true) ∧ link.toClient.received.head? = some response ∧
      auth.checkResponse chance response.bytes = true

/-- What the chain that has the other end knows of it. -/
structure ChainOk (auth : Authenticator ρ β) (chain : ConnectChain (PipeMessage β)) (link : Link β) : Prop where
  taken : link.serverTaken = true
  unchecked : chain.checked = none → link.toServer.received = [] ∧ link.toClient.sent = []
  checked : ∀ request accepted, chain.checked = some (request, accepted) →
    link.toServer.received.head? = some request ∧ (accepted = false → link.toClient.sent = [])
  /-- The first message it sent is the response to the message that it accepted. -/
  accepted : ∀ request, chain.checked = some (request, true) →
    ∃ chance, auth.checkRequest chance request.bytes = true ∧
      chain.response = some ⟨auth.createResponse chance request.bytes, true⟩ ∧
      link.toClient.sent.head? = some ⟨auth.createResponse chance request.bytes, true⟩

structure Agreed (auth : Authenticator ρ β) (s : Handshake β) : Prop where
  vetted : s.server.Vetted
  links : ∀ (pipe : Nat) (link : Link β), s.links[pipe]? = some link → LinkOk link
  clients : ∀ (index : Nat) (client : ClientCall β) (pipe : Nat), s.clients[index]? = some client →
    client.pipe = some pipe → ∃ link, s.links[pipe]? = some link ∧ ClientOk auth client link
  chains : ∀ (index : Nat) (chain : ConnectChain (PipeMessage β)) (pipe : Nat),
    s.server.chains[index]? = some chain → chain.pipe = some pipe →
    ∃ link, s.links[pipe]? = some link ∧ ChainOk auth chain link
  oneClient : ∀ (i j : Nat) (first second : ClientCall β) (pipe : Nat), s.clients[i]? = some first →
    s.clients[j]? = some second → first.pipe = some pipe → second.pipe = some pipe → i = j
  oneChain : ∀ (i j : Nat) (first second : ConnectChain (PipeMessage β)) (pipe : Nat),
    s.server.chains[i]? = some first → s.server.chains[j]? = some second →
    first.pipe = some pipe → second.pipe = some pipe → i = j
  hasChain : ∀ (pipe : Nat) (link : Link β), s.links[pipe]? = some link → link.serverTaken = true →
    ∃ chain ∈ s.server.chains, chain.pipe = some pipe
  opening : ∀ client ∈ s.clients, client.stage = .opening → client.pipe = none
  connected : ∀ client ∈ s.clients, client.stage = .connected → ∃ pipe, client.pipe = some pipe

section Update

variable {pipe : Nat}

/-- A fact about some pipe survives the change of one pipe, if it survives there. -/
theorem exists_setLink {P : Link β → Prop} (found : s.links[pipe]? = some link) {other : Nat}
    (before : ∃ old, s.links[other]? = some old ∧ P old) (changed : other = pipe → P link → P link') :
    ∃ now, (s.links.set pipe link')[other]? = some now ∧ P now := by
  obtain ⟨old, atOther, holds⟩ := before
  by_cases same : other = pipe
  · subst same
    obtain rfl : link = old := Option.some.inj (found.symm.trans atOther)
    exact ⟨link', Table.set_self found, changed rfl holds⟩
  · exact ⟨old, (List.getElem?_set_ne (Ne.symm same)).trans atOther, holds⟩

/-- One user of a pipe is replaced together with the pipe: if nobody else has that end, all users still fit the
    pipes they have. -/
theorem fits_setLink {α : Type*} {f : α → Option Nat} {P : α → Link β → Prop} {users : List α} {user user' : α}
    {index : Nat} (found : users[index]? = some user) (foundLink : s.links[pipe]? = some link)
    (onPipe : f user' = some pipe) (fits : P user' link')
    (alone : ∀ (other : Nat) (now : α), users[other]? = some now → f now = some pipe → other = index)
    (before : ∀ (other : Nat) (now : α) (spot : Nat), users[other]? = some now → f now = some spot →
      ∃ old, s.links[spot]? = some old ∧ P now old)
    (other : Nat) (now : α) (spot : Nat) (after : (users.set index user')[other]? = some now)
    (isOn : f now = some spot) : ∃ new, (s.links.set pipe link')[spot]? = some new ∧ P now new := by
  rcases Table.set_cases found after with ⟨rfl, rfl⟩ | ⟨elsewhere, old⟩
  · obtain rfl : pipe = spot := Option.some.inj (onPipe.symm.trans isOn)
    exact ⟨link', Table.set_self foundLink, fits⟩
  · apply exists_setLink foundLink (before other now spot old isOn)
    rintro rfl
    exact absurd (alone other now old isOn) elsewhere

theorem links_setLink (inv : Agreed auth s) (found : s.links[pipe]? = some link) (ok : LinkOk link') (other : Nat)
    (now : Link β) (after : (s.links.set pipe link')[other]? = some now) : LinkOk now := by
  rcases Table.set_cases found after with ⟨_, rfl⟩ | ⟨_, old⟩
  · exact ok
  · exact inv.links other now old

theorem hasChain_setLink (inv : Agreed auth s) (found : s.links[pipe]? = some link)
    (taken : link'.serverTaken = link.serverTaken) (other : Nat) (now : Link β)
    (after : (s.links.set pipe link')[other]? = some now) (isTaken : now.serverTaken = true) :
    ∃ chain ∈ s.server.chains, chain.pipe = some other := by
  rcases Table.set_cases found after with ⟨rfl, rfl⟩ | ⟨_, old⟩
  · exact inv.hasChain _ link found (taken ▸ isTaken)
  · exact inv.hasChain other now old isTaken

/-- The pipe changes; both ends keep what they know of it. -/
theorem Agreed.setLink (inv : Agreed auth s) (found : s.links[pipe]? = some link) (ok : LinkOk link')
    (taken : link'.serverTaken = link.serverTaken)
    (clientOk : ∀ client ∈ s.clients, client.pipe = some pipe →
      ClientOk auth client link → ClientOk auth client link')
    (chainOk : ∀ chain ∈ s.server.chains, chain.pipe = some pipe →
      ChainOk auth chain link → ChainOk auth chain link') :
    Agreed auth (s.setLink pipe link') := by
  refine
    { inv with
      links := links_setLink inv found ok
      clients := ?_
      chains := ?_
      hasChain := hasChain_setLink inv found taken }
  · intro index client other atIndex onPipe
    apply exists_setLink found (inv.clients index client other atIndex onPipe)
    rintro rfl
    exact clientOk client (List.mem_of_getElem? atIndex) onPipe
  · intro index chain other atIndex onPipe
    apply exists_setLink found (inv.chains index chain other atIndex onPipe)
    rintro rfl
    exact chainOk chain (List.mem_of_getElem? atIndex) onPipe

/-- A client goes on without touching its pipe. -/
theorem Agreed.setCall (inv : Agreed auth s) {index : Nat} (found : s.clients[index]? = some client)
    (samePipe : client'.pipe = client.pipe)
    (ok : ∀ pipe link, client.pipe = some pipe → ClientOk auth client link → ClientOk auth client' link)
    (opened : client'.stage ≠ .opening) (notConnected : client'.stage ≠ .connected) :
    Agreed auth (s.setCall index client') := by
  refine { inv with clients := ?_, oneClient := ?_, opening := ?_, connected := ?_ }
  · intro other now pipe after onPipe
    rcases Table.set_cases found after with ⟨rfl, rfl⟩ | ⟨_, old⟩
    · have wasOn : client.pipe = some pipe := samePipe.symm.trans onPipe
      obtain ⟨link, atPipe, before⟩ := inv.clients _ client pipe found wasOn
      exact ⟨link, atPipe, ok pipe link wasOn before⟩
    · exact inv.clients other now pipe old onPipe
  · have before {place : Nat} {now : ClientCall β} (after : (s.clients.set index client')[place]? = some now) :
        ∃ earlier, s.clients[place]? = some earlier ∧ earlier.pipe = now.pipe := by
      rcases Table.set_cases found after with ⟨rfl, rfl⟩ | ⟨_, old⟩
      · exact ⟨client, found, samePipe.symm⟩
      · exact ⟨now, old, rfl⟩
    intro i j first second pipe atI atJ firstOn secondOn
    obtain ⟨first', oldFirst, firstPipe⟩ := before atI
    obtain ⟨second', oldSecond, secondPipe⟩ := before atJ
    exact inv.oneClient i j first' second' pipe oldFirst oldSecond (firstPipe.trans firstOn)
      (secondPipe.trans secondOn)
  · exact Table.forall_set inv.opening fun opening => absurd opening opened
  · exact Table.forall_set inv.connected fun isConnected => absurd isConnected notConnected

/-- A client goes on and changes its pipe; nobody else has that end of the pipe. -/
theorem Agreed.setCallAndLink (inv : Agreed auth s) {index : Nat} (found : s.clients[index]? = some client)
    (foundLink : s.links[pipe]? = some link) (ok : LinkOk link')
    (taken : link'.serverTaken = link.serverTaken) (onPipe : client'.pipe = some pipe)
    (clientOk : ClientOk auth client' link')
    (alone : ∀ (other : Nat) (now : ClientCall β), s.clients[other]? = some now → now.pipe = some pipe →
      other = index)
    (opened : client'.stage ≠ .opening)
    (chainOk : ∀ chain ∈ s.server.chains, chain.pipe = some pipe →
      ChainOk auth chain link → ChainOk auth chain link') :
    Agreed auth ((s.setCall index client').setLink pipe link') := by
  refine
    { inv with
      links := links_setLink (s := s) inv foundLink ok
      clients := fits_setLink (s := s) found foundLink onPipe clientOk alone inv.clients
      chains := ?_
      oneClient := ?_
      hasChain := hasChain_setLink (s := s) inv foundLink taken
      opening := ?_
      connected := ?_ }
  · intro other chain spot atOther isOn
    apply exists_setLink foundLink (inv.chains other chain spot atOther isOn)
    rintro rfl
    exact chainOk chain (List.mem_of_getElem? atOther) isOn
  · exact Table.set_unique found inv.oneClient onPipe alone
  · exact Table.forall_set inv.opening fun opening => absurd opening opened
  · exact Table.forall_set inv.connected fun _ => ⟨pipe, onPipe⟩

/-- The server connector takes a step that hands nothing to a chain. -/
theorem Agreed.setServer (inv : Agreed auth s) {server : ServerConnector (PipeMessage β)} (vetted : server.Vetted)
    (keeps : s.server.KeepsPipes server) : Agreed auth { s with server := server } := by
  have before {index spot : Nat} {now : ConnectChain (PipeMessage β)} (atIndex : server.chains[index]? = some now)
      (onPipe : now.pipe = some spot) :
      ∃ old, s.server.chains[index]? = some old ∧ old.pipe = some spot ∧ now.checked = old.checked ∧
        now.response = old.response := by
    rcases keeps.old index now atIndex with noPipe | ⟨old, atOld, same⟩
    · rw [noPipe] at onPipe
      cases onPipe
    · obtain ⟨samePipe, sameChecked, sameResponse⟩ :
          now.pipe = old.pipe ∧ now.checked = old.checked ∧ now.response = old.response := by
        simpa [ServerConnector.told] using same
      exact ⟨old, atOld, samePipe.symm.trans onPipe, sameChecked, sameResponse⟩
  refine { inv with vetted := vetted, chains := ?_, oneChain := ?_, hasChain := ?_ }
  · intro index now spot atIndex onPipe
    obtain ⟨old, atOld, oldOn, sameChecked, sameResponse⟩ := before atIndex onPipe
    obtain ⟨link, atPipe, isOk⟩ := inv.chains index old spot atOld oldOn
    refine ⟨link, atPipe, isOk.taken, sameChecked ▸ isOk.unchecked, sameChecked ▸ isOk.checked, ?_⟩
    rw [sameChecked, sameResponse]
    exact isOk.accepted
  · intro i j first second spot atI atJ firstOn secondOn
    obtain ⟨first', oldFirst, firstOn', _⟩ := before atI firstOn
    obtain ⟨second', oldSecond, secondOn', _⟩ := before atJ secondOn
    exact inv.oneChain i j first' second' spot oldFirst oldSecond firstOn' secondOn'
  · intro spot link atPipe isTaken
    obtain ⟨chain, member, onPipe⟩ := inv.hasChain spot link atPipe isTaken
    obtain ⟨place, atPlace⟩ := List.mem_iff_getElem?.mp member
    obtain ⟨now, atNow, same⟩ := keeps.stays place chain atPlace
    exact ⟨now, List.mem_of_getElem? atNow, (congrArg Prod.fst same).trans onPipe⟩

/-- A chain is handed its pipe or a message, and its pipe changes; no other chain has that end of the pipe. -/
theorem Agreed.setChainAndLink (inv : Agreed auth s) {index : Nat} (found : s.server.chains[index]? = some chain)
    (foundLink : s.links[pipe]? = some link) (ok : LinkOk link')
    (vetted : (s.server.setChain index chain').Vetted) (onPipe : chain'.pipe = some pipe)
    (chainOk : ChainOk auth chain' link')
    (was : chain.pipe = some pipe ∨ chain.pipe = none)
    (alone : ∀ (other : Nat) (now : ConnectChain (PipeMessage β)), s.server.chains[other]? = some now →
      now.pipe = some pipe → other = index)
    (clientOk : ∀ client ∈ s.clients, client.pipe = some pipe →
      ClientOk auth client link → ClientOk auth client link') :
    Agreed auth ({ s with server := s.server.setChain index chain' }.setLink pipe link') := by
  refine
    { inv with
      vetted := vetted
      links := links_setLink (s := s) inv foundLink ok
      clients := ?_
      chains := fits_setLink (s := s) found foundLink onPipe chainOk alone inv.chains
      oneChain := ?_
      hasChain := ?_ }
  · intro other client spot atOther isOn
    apply exists_setLink foundLink (inv.clients other client spot atOther isOn)
    rintro rfl
    exact clientOk client (List.mem_of_getElem? atOther) isOn
  · exact Table.set_unique found inv.oneChain onPipe alone
  · intro other now after isTaken
    by_cases here : other = pipe
    · exact ⟨chain', List.mem_of_getElem? (Table.set_self found), here ▸ onPipe⟩
    · -- the chain of another pipe is not the one that was changed
      have old : s.links[other]? = some now := (List.getElem?_set_ne (Ne.symm here)).symm.trans after
      obtain ⟨owner, member, ownerOn⟩ := inv.hasChain other now old isTaken
      obtain ⟨place, atPlace⟩ := List.mem_iff_getElem?.mp member
      have elsewhere : index ≠ place := by
        rintro rfl
        obtain rfl : chain = owner := Option.some.inj (found.symm.trans atPlace)
        rcases was with isPipe | noPipe
        · exact here (Option.some.inj (ownerOn.symm.trans isPipe))
        · rw [noPipe] at ownerOn
          cases ownerOn
      exact ⟨owner, List.mem_of_getElem? ((List.getElem?_set_ne elsewhere).trans atPlace), ownerOn⟩

end Update

/-! ### The steps of a pipe -/

theorem mem_tail_concat {messages : List (PipeMessage β)} {message new : PipeMessage β}
    (member : message ∈ (messages ++ [new]).tail) : message ∈ messages.tail ∨ message = new := by
  cases messages with
  | nil => cases member
  | cons first rest => simpa using member

/-- A handshake message is only written as the first message of a stream. -/
theorem first_write {stream : Stream β} {message : PipeMessage β}
    (ok : ∀ now ∈ stream.sent.tail, now.isAuth = false) (first : message.isAuth = true → stream.sent = []) :
    ∀ now ∈ (stream.write message).sent.tail, now.isAuth = false := by
  intro now member
  rw [Stream.write] at member
  cases auth : message.isAuth with
  | true =>
      rw [first auth] at member
      cases member
  | false =>
      rcases mem_tail_concat member with old | rfl
      · exact ok now old
      · exact auth

/-- A connection or the first handshake message of the client is written towards the server. -/
theorem LinkOk.writeToServer (ok : LinkOk link) {message : PipeMessage β} {taken : Bool}
    (first : message.isAuth = true → link.toServer.sent = []) (isTaken : taken = true) :
    LinkOk { link with clientTaken := taken, toServer := link.toServer.write message } := by
  refine
    { ok with
      toServerFirst := first_write ok.toServerFirst first
      toServerSent := Stream.all_write ▸ ok.toServerSent.append_right _
      clientFree := ?_ }
  rw [isTaken]
  exact nofun

theorem LinkOk.writeToClient (ok : LinkOk link) {message : PipeMessage β}
    (first : message.isAuth = true → link.toClient.sent = []) (isTaken : link.serverTaken = true) :
    LinkOk { link with toClient := link.toClient.write message } := by
  refine
    { ok with
      toClientFirst := first_write ok.toClientFirst first
      toClientSent := Stream.all_write ▸ ok.toClientSent.append_right _
      serverFree := ?_ }
  intro free
  rw [isTaken] at free
  cases free

/-- A message is read off a stream: by a handshake, or by a connection, which dispatches it. -/
theorem LinkOk.readToServer (ok : LinkOk link) {rest : Stream β} (all : rest.all = link.toServer.all)
    (sent : rest.sent = link.toServer.sent) (isTaken : link.serverTaken = true)
    (dispatched : ∀ message ∈ rest.dispatched, message.isAuth = false) :
    LinkOk { link with toServer := rest } := by
  refine
    { ok with
      toServerFirst := sent ▸ ok.toServerFirst
      toServerSent := ?_
      serverDispatched := dispatched
      clientFree := sent ▸ ok.clientFree
      serverFree := ?_ }
  · rw [all, sent]
    exact ok.toServerSent
  · intro free
    rw [isTaken] at free
    cases free

theorem LinkOk.readToClient (ok : LinkOk link) {rest : Stream β} (all : rest.all = link.toClient.all)
    (sent : rest.sent = link.toClient.sent) (isTaken : link.clientTaken = true)
    (dispatched : ∀ message ∈ rest.dispatched, message.isAuth = false) :
    LinkOk { link with toClient := rest } := by
  refine
    { ok with
      toClientFirst := sent ▸ ok.toClientFirst
      toClientSent := ?_
      clientDispatched := dispatched
      clientFree := ?_
      serverFree := sent ▸ ok.serverFree }
  · rw [all, sent]
    exact ok.toClientSent
  · intro free
    rw [isTaken] at free
    cases free

theorem LinkOk.loseToServer (ok : LinkOk link) (index : Nat) :
    LinkOk { link with toServer := link.toServer.lose index } :=
  { ok with toServerSent := (Stream.all_lose link.toServer index).trans ok.toServerSent }

theorem LinkOk.loseToClient (ok : LinkOk link) (index : Nat) :
    LinkOk { link with toClient := link.toClient.lose index } :=
  { ok with toClientSent := (Stream.all_lose link.toClient index).trans ok.toClientSent }

/-- What a client knows of its pipe survives what the server and the pipe do. -/
theorem ClientOk.keep (ok : ClientOk auth client link) (taken : link'.clientTaken = link.clientTaken)
    (sent : link'.toServer.sent = link.toServer.sent)
    (head : ∀ message, link.toServer.received.head? = some message →
      link'.toServer.received.head? = some message)
    (received : link'.toClient.received = link.toClient.received) : ClientOk auth client link' where
  taken := taken.trans ok.taken
  sent := by
    obtain ⟨chance, isRequest, first, onlyRequest, wasRead⟩ := ok.sent
    rw [sent]
    exact ⟨chance, isRequest, first, onlyRequest, fun stage => head _ (wasRead stage)⟩
  waiting := received ▸ ok.waiting
  answered := received ▸ ok.answered

/-- What a chain knows of its pipe survives what the client and the pipe do. -/
theorem ChainOk.keep (ok : ChainOk auth chain link) (taken : link'.serverTaken = link.serverTaken)
    (received : link'.toServer.received = link.toServer.received)
    (sent : link'.toClient.sent = link.toClient.sent) : ChainOk auth chain link' where
  taken := taken.trans ok.taken
  unchecked := by
    rw [received, sent]
    exact ok.unchecked
  checked := by
    rw [received, sent]
    exact ok.checked
  accepted := by
    rw [sent]
    exact ok.accepted

theorem head?_concat {messages : List (PipeMessage β)} {message new : PipeMessage β}
    (head : messages.head? = some message) : (messages ++ [new]).head? = some message := by
  cases messages with
  | nil => cases head
  | cons first rest => exact head

/-! ### Who is at the ends of a pipe -/

theorem onLink_eq_some {pipe : Option Nat} {next : Nat → Link β → Option (Handshake β)} :
    s.onLink pipe next = some t ↔
      ∃ number link, pipe = some number ∧ s.links[number]? = some link ∧ next number link = some t := by
  cases pipe with
  | none => simp [onLink]
  | some number =>
      simp only [onLink]
      split
      · simp [*]
      · simp [*]

/-- Two chains over one pipe are one chain. -/
theorem Agreed.chain_unique (inv : Agreed auth s) {pipe : Nat} (first : chain ∈ s.server.chains)
    (second : chain' ∈ s.server.chains) (firstOn : chain.pipe = some pipe) (secondOn : chain'.pipe = some pipe) :
    chain = chain' := by
  obtain ⟨i, atI⟩ := List.mem_iff_getElem?.mp first
  obtain ⟨j, atJ⟩ := List.mem_iff_getElem?.mp second
  obtain rfl := inv.oneChain i j chain chain' pipe atI atJ firstOn secondOn
  exact Option.some.inj (atI.symm.trans atJ)

theorem Agreed.client_unique (inv : Agreed auth s) {pipe : Nat} (first : client ∈ s.clients)
    (second : client' ∈ s.clients) (firstOn : client.pipe = some pipe) (secondOn : client'.pipe = some pipe) :
    client = client' := by
  obtain ⟨i, atI⟩ := List.mem_iff_getElem?.mp first
  obtain ⟨j, atJ⟩ := List.mem_iff_getElem?.mp second
  obtain rfl := inv.oneClient i j client client' pipe atI atJ firstOn secondOn
  exact Option.some.inj (atI.symm.trans atJ)

theorem Agreed.link_of_client (inv : Agreed auth s) {index pipe : Nat} (found : s.clients[index]? = some client)
    (onPipe : client.pipe = some pipe) (foundLink : s.links[pipe]? = some link) : ClientOk auth client link := by
  obtain ⟨own, atOwn, ok⟩ := inv.clients index client pipe found onPipe
  obtain rfl : link = own := Option.some.inj (foundLink.symm.trans atOwn)
  exact ok

theorem Agreed.link_of_chain (inv : Agreed auth s) {pipe : Nat} (member : chain ∈ s.server.chains)
    (onPipe : chain.pipe = some pipe) (foundLink : s.links[pipe]? = some link) : ChainOk auth chain link := by
  obtain ⟨index, found⟩ := List.mem_iff_getElem?.mp member
  obtain ⟨own, atOwn, ok⟩ := inv.chains index chain pipe found onPipe
  obtain rfl : link = own := Option.some.inj (foundLink.symm.trans atOwn)
  exact ok

/-- The chain of a published connection has accepted the first message of its pipe. -/
theorem Agreed.chain_of_published (inv : Agreed auth s) {pipe : Nat} (published : s.published pipe = true) :
    ∃ chain ∈ s.server.chains, chain.pipe = some pipe ∧ ServerConnector.Admitted chain := by
  obtain ⟨notification, member, isOver⟩ := List.any_eq_true.mp published
  split at isOver
  · rename_i id overPipe
    obtain ⟨chain, inChains, _, onPipe, admitted⟩ := inv.vetted.published id overPipe member
    exact ⟨chain, inChains, of_decide_eq_true isOver ▸ onPipe, admitted⟩
  · cases isOver

end Handshake

end CommonRpc
