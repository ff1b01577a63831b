/-
Module: CommonRpc.Proofs.Connection
Purpose: No request of a connection is lost or completed twice, whatever the order of the send callbacks, the
  responses, the timers and the end of the receive loop. The invariant is stated of the connection's book (the
  request map, the timers, the promises set and the requests filed) relative to the set of requests whose
  send callback is to come, since a send callback first leaves that set and then looks at the map.
Trusted boundary: none
-/
import CommonRpc.Core.Connection
import CommonRpc.Proofs.MultipleTimer

namespace CommonRpc.Connection

/-- A response frame that carries the number of the request was received with the outcome. -/
def Answers (received : List Buffer) (outcome : RequestOutcome) : Prop :=
  outcome.buffer ∈ received ∧ getTransferMsgType outcome.buffer = .ok .res ∧
    getMsgNumberRes outcome.buffer = .ok outcome.number

/-- What decides about the promises of a connection. -/
structure Book where
  requestMap : List RequestData
  timer : MultipleTimer UInt64
  results : List RequestOutcome
  issued : List UInt64
  received : List Buffer

def book (c : Connection) : Book := ⟨c.requestMap, c.timer, c.results, c.issued, c.received⟩

namespace Book

/-- The invariant; `owes` are the requests whose send callback is to come. -/
structure Consistent (b : Book) (owes : UInt64 → Prop) : Prop where
  timers : b.timer.WellFormed
  distinct : b.issued.Nodup
  accounted :
    (b.results.map RequestOutcome.number ++ b.requestMap.map RequestData.number).Perm b.issued
  started : ∀ data ∈ b.requestMap, data.timerId < b.timer.nextId
  captured : ∀ data ∈ b.requestMap, ∀ {number}, b.timer.Calls data.timerId number → number = data.number
  armed : ∀ data ∈ b.requestMap, data.failReqResult = none → b.timer.Armed data.timerId
  pending : ∀ data ∈ b.requestMap, data.isReqSent = false → owes data.number
  failing : ∀ data ∈ b.requestMap, ∀ result, data.failReqResult = some result →
    data.isReqSent = false ∧ result ≠ .ok
  owned : ∀ id, b.timer.Armed id → ∃ data ∈ b.requestMap, data.timerId = id ∧ data.failReqResult = none
  answered : ∀ outcome ∈ b.results, outcome.result = .ok → Answers b.received outcome

namespace Consistent

variable {b : Book} {owes owes' : UInt64 → Prop} {number : UInt64} {data : RequestData}

theorem numbers_nodup (good : b.Consistent owes) :
    (b.results.map RequestOutcome.number ++ b.requestMap.map RequestData.number).Nodup :=
  good.accounted.nodup_iff.mpr good.distinct

theorem map_nodup (good : b.Consistent owes) : (b.requestMap.map RequestData.number).Nodup :=
  good.numbers_nodup.of_append_right

theorem eq_of_number (good : b.Consistent owes) {other : RequestData} (member : data ∈ b.requestMap)
    (member' : other ∈ b.requestMap) (same : data.number = other.number) : data = other :=
  List.inj_on_of_nodup_map good.map_nodup member member' same

/-- An armed timer belongs to the request its callback captured. -/
theorem owner (good : b.Consistent owes) {id : Nat} (armed : b.timer.Armed id)
    (calls : b.timer.Calls id number) :
    ∃ data ∈ b.requestMap, data.timerId = id ∧ data.number = number ∧ data.failReqResult = none := by
  obtain ⟨data, member, rfl, waiting⟩ := good.owned id armed
  exact ⟨data, member, rfl, (good.captured data member calls).symm, waiting⟩

theorem mono (good : b.Consistent owes) (more : ∀ number, owes number → owes' number) :
    b.Consistent owes' :=
  { good with pending := fun data member unsent => more _ (good.pending data member unsent) }

theorem receive (good : b.Consistent owes) (message : Buffer) :
    ({ b with received := b.received ++ [message] } : Book).Consistent owes :=
  { good with
    answered := by
      intro outcome member ok
      obtain ⟨received, isRes, carries⟩ := good.answered outcome member ok
      exact ⟨List.mem_append_left _ received, isRes, carries⟩ }

/-- Timers that were cancelled already may go. -/
theorem retime (good : b.Consistent owes) {timer' : MultipleTimer UInt64}
    (shrinks : b.timer.Shrinks timer') (same : ∀ i, timer'.Armed i ↔ b.timer.Armed i) :
    ({ b with timer := timer' } : Book).Consistent owes :=
  { good with
    timers := shrinks.wellFormed good.timers
    started := by
      intro data member
      exact shrinks.nextId ▸ good.started data member
    captured := fun data member {number} calls => good.captured data member (shrinks.calls calls)
    armed := fun data member waiting => (same _).mpr (good.armed data member waiting)
    owned := fun id armed => good.owned id ((same id).mp armed) }

/-- A new request is filed and its timer started. -/
theorem file (good : b.Consistent owes) (fresh : number ∉ b.issued) (kept : ∀ n, owes n → owes' n)
    (owed : owes' number) :
    ({ b with
        timer := b.timer.start number
        requestMap := b.requestMap ++ [{ number := number, timerId := b.timer.nextId }]
        issued := b.issued ++ [number] } : Book).Consistent owes' where
  timers := good.timers.start number
  distinct := good.distinct.append (List.nodup_singleton number) (by simpa using fresh)
  accounted := by
    rw [List.map_append, ← List.append_assoc]
    exact good.accounted.append_right [number]
  started := by
    intro data member
    rcases List.mem_append.mp member with old | new
    · exact Nat.lt_succ_of_lt (good.started data old)
    · rw [List.mem_singleton.mp new]
      exact Nat.lt_succ_self _
  captured := by
    intro data member n calls
    rcases List.mem_append.mp member with old | new
    · rcases MultipleTimer.calls_start.mp calls with before | ⟨same, -⟩
      · exact good.captured data old before
      · exact absurd same (good.started data old).ne
    · rw [List.mem_singleton.mp new] at calls ⊢
      rcases MultipleTimer.calls_start.mp calls with before | ⟨-, same⟩
      · exact absurd (good.timers.calls_lt before) (lt_irrefl _)
      · exact same.symm
  armed := by
    intro data member waiting
    rcases List.mem_append.mp member with old | new
    · exact MultipleTimer.armed_start.mpr (.inl (good.armed data old waiting))
    · rw [List.mem_singleton.mp new]
      exact MultipleTimer.armed_start.mpr (.inr rfl)
  pending := by
    intro data member unsent
    rcases List.mem_append.mp member with old | new
    · exact kept _ (good.pending data old unsent)
    · rw [List.mem_singleton.mp new]
      exact owed
  failing := by
    intro data member result failed
    rcases List.mem_append.mp member with old | new
    · exact good.failing data old result failed
    · rw [List.mem_singleton.mp new] at failed
      cases failed
  owned := by
    intro id armed
    rcases MultipleTimer.armed_start.mp armed with before | rfl
    · obtain ⟨data, member, same⟩ := good.owned id before
      exact ⟨data, List.mem_append_left _ member, same⟩
    · exact ⟨_, List.mem_append_right _ (List.mem_singleton.mpr rfl), rfl, rfl⟩
  answered := good.answered

/-- A request leaves the map and its promise is set; its timer is no longer armed. -/
theorem remove (good : b.Consistent owes) (member : data ∈ b.requestMap) {timer' : MultipleTimer UInt64}
    (shrinks : b.timer.Shrinks timer')
    (disarmed : ∀ i, timer'.Armed i ↔ b.timer.Armed i ∧ i ≠ data.timerId) {result : RequestResult}
    {buffer : Buffer} (honest : result = .ok → Answers b.received ⟨data.number, result, buffer⟩) :
    ({ b with
        timer := timer'
        requestMap := b.requestMap.filter fun other => other.number ≠ data.number
        results := b.results ++ [⟨data.number, result, buffer⟩] } : Book).Consistent
      fun n => owes n ∧ n ≠ data.number where
  timers := shrinks.wellFormed good.timers
  distinct := good.distinct
  accounted := by
    have left : (b.requestMap.filter fun other => other.number ≠ data.number).map RequestData.number =
        (b.requestMap.map RequestData.number).erase data.number := by
      rw [good.map_nodup.erase_eq_filter, List.filter_map]
      congr 1
      apply List.filter_congr
      intro other _
      simp [bne]
      rfl
    have taken := List.perm_cons_erase (List.mem_map_of_mem (f := RequestData.number) member)
    rw [left, List.map_append, List.append_assoc]
    exact (taken.symm.append_left _).trans good.accounted
  started := by
    intro other kept
    exact shrinks.nextId ▸ good.started other (List.mem_of_mem_filter kept)
  captured := fun other kept {n} calls =>
    good.captured other (List.mem_of_mem_filter kept) (shrinks.calls calls)
  armed := by
    intro other kept waiting
    obtain ⟨member', differs⟩ := List.mem_filter.mp kept
    have armed := good.armed other member' waiting
    refine (disarmed _).mpr ⟨armed, fun same => ?_⟩
    -- a shared timer would have captured both numbers
    obtain ⟨n, calls⟩ := armed.calls
    have number₁ := good.captured other member' calls
    have number₂ := good.captured data member (same ▸ calls)
    exact of_decide_eq_true differs (number₁.symm.trans number₂)
  pending := by
    intro other kept unsent
    obtain ⟨member', differs⟩ := List.mem_filter.mp kept
    exact ⟨good.pending other member' unsent, of_decide_eq_true differs⟩
  failing := fun other kept => good.failing other (List.mem_of_mem_filter kept)
  owned := by
    intro id armed
    obtain ⟨before, differs⟩ := (disarmed id).mp armed
    obtain ⟨other, member', rfl, waiting⟩ := good.owned id before
    refine ⟨other, List.mem_filter.mpr ⟨member', decide_eq_true fun same => differs ?_⟩, rfl, waiting⟩
    rw [good.eq_of_number member' member same]
  answered := by
    intro outcome listed ok
    rcases List.mem_append.mp listed with old | new
    · exact good.answered outcome old ok
    · rw [List.mem_singleton.mp new] at ok ⊢
      exact honest ok

/-- The send callback of a request that is not in the map. -/
theorem forget (good : b.Consistent owes) (gone : ∀ data ∈ b.requestMap, data.number ≠ number) :
    b.Consistent fun n => owes n ∧ n ≠ number :=
  { good with pending := fun data member unsent => ⟨good.pending data member unsent, gone data member⟩ }

/-- A request was sent. -/
theorem markSent (good : b.Consistent owes)
    (waiting : ∀ data ∈ b.requestMap, data.number = number → data.failReqResult = none) :
    ({ b with requestMap := b.requestMap.map fun other =>
        if other.number = number then { other with isReqSent := true } else other } : Book).Consistent
      fun n => owes n ∧ n ≠ number := by
  -- only the flag of an entry changes
  have origin : ∀ data' ∈ b.requestMap.map (fun other =>
      if other.number = number then { other with isReqSent := true } else other),
      ∃ data ∈ b.requestMap, data'.number = data.number ∧ data'.timerId = data.timerId ∧
        data'.failReqResult = data.failReqResult ∧
        (data.number = number ∧ data'.isReqSent = true ∨
          data.number ≠ number ∧ data'.isReqSent = data.isReqSent) := by
    intro data' changed
    obtain ⟨data, member, rfl⟩ := List.mem_map.mp changed
    refine ⟨data, member, ?_⟩
    by_cases hit : data.number = number
    · rw [if_pos hit]
      exact ⟨rfl, rfl, rfl, .inl ⟨hit, rfl⟩⟩
    · rw [if_neg hit]
      exact ⟨rfl, rfl, rfl, .inr ⟨hit, rfl⟩⟩
  exact {
    timers := good.timers
    distinct := good.distinct
    accounted := by
      have same : RequestData.number ∘ (fun other : RequestData =>
          if other.number = number then { other with isReqSent := true } else other) =
          RequestData.number := by
        funext other
        rw [Function.comp_apply]
        split
        · rfl
        · rfl
      rw [List.map_map, same]
      exact good.accounted
    started := by
      intro data' changed
      obtain ⟨data, member, -, timerId, -⟩ := origin data' changed
      exact timerId ▸ good.started data member
    captured := by
      intro data' changed n calls
      obtain ⟨data, member, sameNumber, timerId, -⟩ := origin data' changed
      rw [sameNumber]
      exact good.captured data member (timerId ▸ calls)
    armed := by
      intro data' changed none
      obtain ⟨data, member, -, timerId, fails, -⟩ := origin data' changed
      exact timerId ▸ good.armed data member (fails ▸ none)
    pending := by
      intro data' changed unsent
      obtain ⟨data, member, sameNumber, -, -, ⟨-, sent⟩ | ⟨differs, sent⟩⟩ := origin data' changed
      · rw [sent] at unsent
        cases unsent
      · rw [sameNumber]
        exact ⟨good.pending data member (sent ▸ unsent), differs⟩
    failing := by
      intro data' changed result failed
      obtain ⟨data, member, -, -, fails, ⟨hit, -⟩ | ⟨-, sent⟩⟩ := origin data' changed
      · rw [fails, waiting data member hit] at failed
        cases failed
      · rw [sent]
        exact good.failing data member result (fails ▸ failed)
    owned := by
      intro id armed
      obtain ⟨data, member, timerId, none⟩ := good.owned id armed
      refine ⟨_, List.mem_map.mpr ⟨data, member, rfl⟩, ?_⟩
      split
      · exact ⟨timerId, none⟩
      · exact ⟨timerId, none⟩
    answered := good.answered }

/-- The receive loop ends: the requests that were sent complete, the others are left to their send callback. -/
theorem finish (good : b.Consistent owes) {result : RequestResult} (fails : result ≠ .ok) :
    ({ b with
        timer := b.requestMap.foldl (fun timer data => timer.cancel data.timerId) b.timer
        requestMap := (b.requestMap.filter fun data => !data.isReqSent).map fun data =>
          { data with failReqResult := some result }
        results := b.results ++
          (b.requestMap.filter RequestData.isReqSent).map fun data => ⟨data.number, result, none⟩ } :
      Book).Consistent owes := by
  have shrinks : b.timer.Shrinks
      (b.requestMap.foldl (fun timer data => timer.cancel data.timerId) b.timer) :=
    MultipleTimer.shrinks_cancel_foldl RequestData.timerId b.requestMap
  have origin : ∀ data' ∈ (b.requestMap.filter fun data => !data.isReqSent).map (fun data =>
      { data with failReqResult := some result }),
      ∃ data ∈ b.requestMap, data.isReqSent = false ∧ data' = { data with failReqResult := some result } := by
    intro data' changed
    obtain ⟨data, kept, rfl⟩ := List.mem_map.mp changed
    obtain ⟨member, unsent⟩ := List.mem_filter.mp kept
    exact ⟨data, member, by simpa using unsent, rfl⟩
  exact {
    timers := shrinks.wellFormed good.timers
    distinct := good.distinct
    accounted := by
      have parts := (List.filter_append_perm RequestData.isReqSent b.requestMap).map RequestData.number
      rw [List.map_append] at parts
      rw [List.map_append, List.map_map, List.map_map, List.append_assoc]
      exact (parts.append_left _).trans good.accounted
    started := by
      intro data' changed
      obtain ⟨data, member, -, rfl⟩ := origin data' changed
      exact shrinks.nextId ▸ good.started data member
    captured := by
      intro data' changed n calls
      obtain ⟨data, member, -, rfl⟩ := origin data' changed
      exact good.captured data member (shrinks.calls calls)
    armed := by
      intro data' changed waiting
      obtain ⟨data, -, -, rfl⟩ := origin data' changed
      cases waiting
    pending := by
      intro data' changed unsent
      obtain ⟨data, member, -, rfl⟩ := origin data' changed
      exact good.pending data member unsent
    failing := by
      intro data' changed result' failed
      obtain ⟨data, -, unsent, rfl⟩ := origin data' changed
      cases failed
      exact ⟨unsent, fails⟩
    owned := by
      -- every armed timer had an entry, and all of those were cancelled
      intro id armed
      obtain ⟨before, others⟩ := (MultipleTimer.armed_cancel_foldl _ _).mp armed
      obtain ⟨data, member, same, -⟩ := good.owned id before
      exact absurd same.symm (others data member)
    answered := by
      intro outcome listed ok
      rcases List.mem_append.mp listed with old | new
      · exact good.answered outcome old ok
      · obtain ⟨data, -, rfl⟩ := List.mem_map.mp new
        exact absurd ok fails }

end Consistent

end Book

variable {c c' : Connection} {owes : UInt64 → Prop} {number : UInt64} {message : Buffer}

section Find

theorem find_eq_some {data : RequestData} (found : c.find number = some data) :
    data ∈ c.requestMap ∧ data.number = number :=
  ⟨List.mem_of_find?_eq_some found, by simpa using List.find?_some found⟩

theorem find_eq_none (missing : c.find number = none) : ∀ data ∈ c.requestMap, data.number ≠ number := by
  simpa [find] using missing

end Find

section Frame

/-- The send callbacks that are to come are the same ones. -/
structure SameSends (c c' : Connection) : Prop where
  calling : c'.calling = c.calling
  sending : c'.sending = c.sending

theorem SameSends.outstanding (same : SameSends c c') (out : c.SendOutstanding number) :
    c'.SendOutstanding number := by
  unfold SendOutstanding at out ⊢
  rwa [same.calling, same.sending]

/-- The requests and their send callbacks are as they were. -/
def Untouched (c c' : Connection) : Prop := c'.book = c.book ∧ SameSends c c'

theorem Untouched.consistent (same : Untouched c c') (good : c.book.Consistent c.SendOutstanding) :
    c'.book.Consistent c'.SendOutstanding := by
  rw [same.1]
  exact good.mono fun n out => same.2.outstanding out

theorem start_untouched (c : Connection) : Untouched c c.start := by
  unfold start
  split
  · exact ⟨rfl, rfl, rfl⟩
  · exact ⟨rfl, rfl, rfl⟩

theorem handleReceivedRequest_untouched (c : Connection) (message : Buffer) :
    Untouched c (c.handleReceivedRequest message) := by
  unfold handleReceivedRequest
  split
  · exact ⟨rfl, rfl, rfl⟩
  · exact ⟨rfl, rfl, rfl⟩

theorem processWatchEvent_untouched (c : Connection) (now : Int) :
    Untouched c (c.processWatchEvent now) := by
  simp only [processWatchEvent]
  split
  · exact ⟨rfl, rfl, rfl⟩
  · split
    · exact ⟨rfl, rfl, rfl⟩
    · exact ⟨rfl, rfl, rfl⟩

theorem watch_untouched (c : Connection) (now : Int) : Untouched c (c.watch now) := by
  obtain ⟨book, sends⟩ := processWatchEvent_untouched c now
  simp only [watch]
  split
  · exact ⟨book, sends.calling, sends.sending⟩
  · exact ⟨book, sends⟩

theorem completeRequest_sends (result : RequestResult) (resMsg : Buffer) :
    SameSends c (c.completeRequest number result resMsg) := by
  unfold completeRequest
  split
  · exact ⟨rfl, rfl⟩
  · exact ⟨rfl, rfl⟩

theorem processRequestSent_sends : SameSends c (c.processRequestSent number) := by
  unfold processRequestSent
  split
  · exact ⟨rfl, rfl⟩
  · split
    · exact ⟨rfl, rfl⟩
    · exact ⟨rfl, rfl⟩

theorem sendCallback_sends (result : PipeOpRes) : SameSends c (c.sendCallback number result) := by
  cases result with
  | success => exact processRequestSent_sends
  | canceled => exact completeRequest_sends _ _
  | failed => exact completeRequest_sends _ _
  | timeout => exact completeRequest_sends _ _

end Frame

/-- `complete_request`, on a request that is in the map or not. -/
theorem completeRequest_consistent (good : c.book.Consistent owes) {result : RequestResult}
    {resMsg : Buffer} (honest : result = .ok → Answers c.received ⟨number, result, resMsg⟩) :
    (c.completeRequest number result resMsg).book.Consistent fun n => owes n ∧ n ≠ number := by
  unfold completeRequest
  split
  · rename_i missing
    exact good.forget (find_eq_none missing)
  · rename_i data found
    obtain ⟨member, rfl⟩ := find_eq_some found
    exact good.remove member (MultipleTimer.shrinks_cancel _ _) (fun _ => MultipleTimer.armed_cancel) honest

theorem processRequestSent_consistent (good : c.book.Consistent owes) :
    (c.processRequestSent number).book.Consistent fun n => owes n ∧ n ≠ number := by
  unfold processRequestSent
  split
  · rename_i missing
    exact good.forget (find_eq_none missing)
  · rename_i data found
    obtain ⟨member, rfl⟩ := find_eq_some found
    split
    · rename_i result failed
      have fails := (good.failing data member result failed).2
      apply good.remove member (MultipleTimer.Shrinks.refl _)
      · -- the timer of a failed request was cancelled when the receive loop ended
        intro i
        refine ⟨fun armed => ⟨armed, fun same => ?_⟩, And.left⟩
        obtain ⟨n, calls⟩ := armed.calls
        obtain ⟨other, member', -, sameNumber, waiting⟩ := good.owner armed calls
        have captured := good.captured data member (same ▸ calls)
        rw [good.eq_of_number member' member (sameNumber.trans captured), failed] at waiting
        cases waiting
      · intro ok
        exact absurd ok fails
    · rename_i waiting
      apply good.markSent
      intro other member' same
      rw [good.eq_of_number member' member same]
      exact waiting

theorem sendCallback_consistent (good : c.book.Consistent owes) (result : PipeOpRes) :
    (c.sendCallback number result).book.Consistent fun n => owes n ∧ n ≠ number := by
  cases result with
  | success => exact processRequestSent_consistent good
  | canceled => exact completeRequest_consistent good (by simp)
  | failed => exact completeRequest_consistent good (by simp)
  | timeout => exact completeRequest_consistent good (by simp)

/-- A timer handler that calls back: the request it was started for completes, if it is still there. -/
theorem timeout_consistent (good : c.book.Consistent owes) {id : Nat} {timer' : MultipleTimer UInt64}
    (handled : c.timer.handle id = some (timer', some number)) :
    ({ c with timer := timer' }.completeRequest number .timeout none).book.Consistent owes := by
  have calls : c.timer.Calls id number := MultipleTimer.calls_of_handle handled
  unfold completeRequest
  split
  · rename_i missing
    apply good.retime (MultipleTimer.shrinks_handle handled)
    intro i
    rw [MultipleTimer.armed_handle handled]
    refine ⟨And.left, fun armed => ⟨armed, ?_⟩⟩
    rintro rfl
    obtain ⟨data, member, -, same, -⟩ := good.owner armed calls
    exact find_eq_none missing data member same
  · rename_i data found
    obtain ⟨member, rfl⟩ := find_eq_some found
    have shrinks := (MultipleTimer.shrinks_handle handled).trans (MultipleTimer.shrinks_cancel _ data.timerId)
    refine (good.remove member shrinks ?_ fun ok => by cases ok).mono fun n kept => kept.1
    intro i
    rw [MultipleTimer.armed_cancel, MultipleTimer.armed_handle handled]
    refine ⟨fun armed => ⟨armed.1.1, armed.2⟩, fun armed => ⟨⟨armed.1, ?_⟩, armed.2⟩⟩
    rintro rfl
    obtain ⟨other, member', timerId, same, -⟩ := good.owner armed.1 calls
    rw [good.eq_of_number member' member same] at timerId
    exact armed.2 timerId.symm

section Dispatch

/-- What the handling of a received message can do: nothing to the book, or complete a request with it. -/
inductive Dispatched (c c' : Connection) (message : Buffer) : Prop where
  | kept (same : Untouched c c')
  | completed (number : UInt64) (isRes : getTransferMsgType message = .ok .res)
      (carries : getMsgNumberRes message = .ok number)
      (book : c'.book = (c.completeRequest number .ok message).book) (sends : SameSends c c')

theorem dispatchReceiveEvent_dispatched (c : Connection) (message : Buffer) :
    Dispatched c (c.dispatchReceiveEvent message) message := by
  unfold dispatchReceiveEvent dispatch
  cases type : getTransferMsgType message with
  | error e => exact .kept ⟨rfl, rfl, rfl⟩
  | ok kind =>
      cases kind with
      | req =>
          obtain ⟨book, sends⟩ := handleReceivedRequest_untouched c message
          exact .kept ⟨book, sends.calling, sends.sending⟩
      | res =>
          simp only [handleReceivedResponse]
          cases carries : getMsgNumberRes message with
          | error e => exact .kept ⟨rfl, rfl, rfl⟩
          | ok number =>
              have sends : SameSends c (c.completeRequest number .ok message) := completeRequest_sends _ _
              exact .completed number type carries rfl ⟨sends.calling, sends.sending⟩
      | ping => exact .kept ⟨rfl, rfl, rfl⟩
      | pong => exact .kept ⟨rfl, rfl, rfl⟩
      | unnamed _ _ => exact .kept ⟨rfl, rfl, rfl⟩

theorem dispatchReceiveEvent_consistent (good : c.book.Consistent owes) (received : message ∈ c.received) :
    (c.dispatchReceiveEvent message).book.Consistent owes := by
  rcases dispatchReceiveEvent_dispatched c message with ⟨book, -⟩ | ⟨number, isRes, carries, book, -⟩
  · exact book ▸ good
  · rw [book]
    exact (completeRequest_consistent good fun _ => ⟨received, isRes, carries⟩).mono fun n kept => kept.1

end Dispatch

section Run

theorem requestAsync_consistent (good : c.book.Consistent c.SendOutstanding) (message : Bytes)
    (running : Bool) (distinct : c.distinctNumbers (.requestAsync message running) = true)
    (unlocked : c.isUnlocked = true) :
    (c.requestAsync message running).book.Consistent (c.requestAsync message running).SendOutstanding := by
  unfold requestAsync
  split
  · exact good
  · split
    · exact good
    · rename_i number carries
      have fresh : number ∉ c.issued := by simpa [distinctNumbers, carries] using distinct
      have missing : c.find number = none := by
        simp only [find, List.find?_eq_none, decide_eq_true_eq]
        intro data member same
        apply fresh
        exact good.accounted.subset (List.mem_append_right _ (List.mem_map.mpr ⟨data, member, same⟩))
      have kept : ∀ n, c.SendOutstanding n →
          ({ c.addRequestToMap number with calling := some (number, message) } : Connection).SendOutstanding n := by
        rintro n (sent | ⟨other, called⟩)
        · exact .inl sent
        · rw [isUnlocked, called] at unlocked
          cases unlocked
      have filed := good.file fresh kept (.inr ⟨message, rfl⟩)
      simpa [addRequestToMap, missing, book] using filed

/-- One step of a connection keeps its book. -/
theorem step_consistent (good : c.book.Consistent c.SendOutstanding) {e : Event}
    (distinct : c.distinctNumbers e = true) (stepped : c.step e = some c') :
    c'.book.Consistent c'.SendOutstanding := by
  cases e with
  | start =>
      simp only [step, Option.ite_none_right_eq_some, Option.some.injEq] at stepped
      obtain ⟨-, rfl⟩ := stepped
      exact (start_untouched c).consistent good
  | deactivate =>
      simp only [step, Option.ite_none_right_eq_some, Option.some.injEq] at stepped
      obtain ⟨-, rfl⟩ := stepped
      exact good
  | requestAsync message running =>
      simp only [step, Option.ite_none_right_eq_some, Option.some.injEq] at stepped
      obtain ⟨unlocked, rfl⟩ := stepped
      exact requestAsync_consistent good message running distinct unlocked
  | requestSend =>
      simp only [step, Option.map_eq_some_iff] at stepped
      obtain ⟨⟨number, message⟩, called, rfl⟩ := stepped
      apply good.mono
      rintro n (sent | ⟨other, called'⟩)
      · exact .inl (List.mem_append_left _ sent)
      · rw [called, Option.some.injEq, Prod.mk.injEq] at called'
        exact .inl (List.mem_append_right _ (List.mem_singleton.mpr called'.1.symm))
  | sendDone number result =>
      simp only [step, Option.ite_none_right_eq_some, Option.some.injEq] at stepped
      obtain ⟨-, rfl⟩ := stepped
      have called : ({ c with sending := c.sending.erase number } : Connection).book.Consistent
          c.SendOutstanding := good
      apply (sendCallback_consistent called result).mono
      rintro n ⟨sent | out, differs⟩
      · exact (sendCallback_sends result).outstanding (.inl ((List.mem_erase_of_ne differs).mpr sent))
      · exact (sendCallback_sends result).outstanding (.inr out)
  | received message =>
      simp only [step, Option.ite_none_right_eq_some, Option.some.injEq] at stepped
      obtain ⟨-, rfl⟩ := stepped
      have logged : ({ c with received := c.received ++ [message] } : Connection).book.Consistent
          c.SendOutstanding := good.receive message
      have latest : message ∈ c.received ++ [message] := List.mem_append_right _ (List.mem_singleton.mpr rfl)
      refine (dispatchReceiveEvent_consistent logged latest).mono fun n out => ?_
      rcases dispatchReceiveEvent_dispatched { c with received := c.received ++ [message] } message with
        ⟨-, sends⟩ | ⟨-, -, -, -, sends⟩
      · exact sends.outstanding out
      · exact sends.outstanding out
  | receiveEnd result =>
      simp only [step, Option.ite_none_right_eq_some, Option.some.injEq] at stepped
      obtain ⟨-, rfl⟩ := stepped
      apply good.finish
      split
      · simp
      · simp
  | timerExpires timerId =>
      simp only [step, Option.map_eq_some_iff] at stepped
      obtain ⟨timer', expired, rfl⟩ := stepped
      exact good.retime (MultipleTimer.shrinks_expire expired) fun i => MultipleTimer.armed_expire expired
  | timerHandler timerId =>
      simp only [step] at stepped
      split at stepped
      · cases stepped
      · rename_i timer' handled
        cases stepped
        apply good.retime (MultipleTimer.shrinks_handle handled)
        intro i
        rw [MultipleTimer.armed_handle handled]
        refine ⟨And.left, fun armed => ⟨armed, ?_⟩⟩
        rintro rfl
        exact good.timers.not_armed_of_handle handled armed
      · rename_i timer' number handled
        cases stepped
        refine (timeout_consistent good handled).mono fun n out => ?_
        exact (completeRequest_sends _ _).outstanding out
  | watch now =>
      simp only [step, Option.ite_none_right_eq_some, Option.some.injEq] at stepped
      obtain ⟨-, rfl⟩ := stepped
      exact (watch_untouched c now).consistent good
  | respond message =>
      simp only [step, Option.some.injEq] at stepped
      cases stepped
      exact good

theorem initial_consistent (hasService : Bool) (pingTimeout : Int) :
    (initial hasService pingTimeout).book.Consistent (initial hasService pingTimeout).SendOutstanding where
  timers := MultipleTimer.wellFormed_empty
  distinct := List.nodup_nil
  accounted := List.Perm.refl _
  started := fun _ member => absurd member List.not_mem_nil
  captured := fun _ member => absurd member List.not_mem_nil
  armed := fun _ member => absurd member List.not_mem_nil
  pending := fun _ member => absurd member List.not_mem_nil
  failing := fun _ member => absurd member List.not_mem_nil
  owned := by
    rintro id ⟨entry, member, -⟩
    exact absurd member List.not_mem_nil
  answered := fun _ member => absurd member List.not_mem_nil

/-- The book of a connection is consistent after every run in which the requests have distinct numbers. -/
theorem run_consistent {hasService : Bool} {pingTimeout : Int} {es : List Event}
    (ran : (machine.restrict distinctNumbers).run (initial hasService pingTimeout) es = some c) :
    c.book.Consistent c.SendOutstanding := by
  apply Lib.Machine.run_invariant (P := fun c => c.book.Consistent c.SendOutstanding) _
    (initial_consistent hasService pingTimeout) ran
  intro a e b good stepped
  obtain ⟨distinct, taken⟩ := Lib.Machine.restrict_step.mp stepped
  exact step_consistent good distinct taken

/-- A request that is in the map has a source of completion: its timer, or its send callback. -/
theorem Book.Consistent.live (good : c.book.Consistent owes) {data : RequestData}
    (member : data ∈ c.requestMap) : c.timer.Armed data.timerId ∨ owes data.number := by
  cases failed : data.failReqResult with
  | none => exact .inl (good.armed data member failed)
  | some result => exact .inr (good.pending data member (good.failing data member result failed).1)

/-- Over every interleaving: a promise is set at most once, and a request whose promise is not set is in the
    map; a request in the map has an armed timer or a send callback to come; a request completes with `ok`
    only with a received response that carries its number; an armed timer has its request in the map. -/
theorem request_promises_kept {hasService : Bool} {pingTimeout : Int} {es : List Event} {c : Connection}
    (ran : (machine.restrict distinctNumbers).run (initial hasService pingTimeout) es = some c) :
    ((c.results.map RequestOutcome.number).Nodup ∧
        (c.results.map RequestOutcome.number ++ c.requestMap.map RequestData.number).Perm c.issued) ∧
      (∀ data ∈ c.requestMap, c.timer.Armed data.timerId ∨ c.SendOutstanding data.number) ∧
      ((∀ id, ¬ c.timer.Armed id) → (∀ number, ¬ c.SendOutstanding number) → c.requestMap = []) ∧
      (∀ outcome ∈ c.results, outcome.result = .ok →
        outcome.buffer ∈ c.received ∧ getTransferMsgType outcome.buffer = .ok .res ∧
          getMsgNumberRes outcome.buffer = .ok outcome.number) ∧
      ∀ entry ∈ c.timer.timers, entry.cancelled = false →
        ∃ data ∈ c.requestMap, data.timerId = entry.id ∧ data.number = entry.callback := by
  have good := run_consistent ran
  refine ⟨⟨good.numbers_nodup.of_append_left, good.accounted⟩, fun data member => good.live member, ?_,
    good.answered, ?_⟩
  · intro unarmed unsent
    apply List.eq_nil_iff_forall_not_mem.mpr
    intro data member
    rcases good.live member with armed | out
    · exact unarmed _ armed
    · exact unsent _ out
  · intro entry member running
    obtain ⟨data, member', timerId, number, -⟩ :=
      good.owner ⟨entry, member, rfl, running⟩ ⟨entry, member, rfl, rfl⟩
    exact ⟨data, member', timerId, number⟩

/-- Two requests on one connection. The timer of the first expires before the response comes and its handler
    runs afterwards; the receive loop ends before the second was sent. -/
theorem request_promises_kept_race :
    ∃ c, (machine.restrict distinctNumbers).run (initial false 1000)
        [.start, .requestAsync [0, 0, 0, 0, 0, 0, 0, 0, 0, 0, 0, 0, 7, 0, 0, 0, 1] true, .requestSend,
          .sendDone 7 .success, .timerExpires 0,
          .received (some [1, 0, 0, 0, 0, 0, 0, 0, 0, 0, 0, 0, 7, 0]), .timerHandler 0,
          .requestAsync [0, 0, 0, 0, 0, 0, 0, 0, 0, 0, 0, 0, 8, 0, 0, 0, 1] true, .requestSend,
          .receiveEnd .failed, .sendDone 8 .success] = some c ∧
      c.results = [⟨7, .ok, some [1, 0, 0, 0, 0, 0, 0, 0, 0, 0, 0, 0, 7, 0]⟩, ⟨8, .failed, none⟩] ∧
      (c.results.map RequestOutcome.number).Nodup :=
  Lib.Machine.exists_run ⟨_, rfl, rfl⟩ fun ran _ => (request_promises_kept ran).1.1

end Run

end CommonRpc.Connection
