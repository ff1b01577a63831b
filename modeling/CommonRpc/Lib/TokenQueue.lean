/-
Module: CommonRpc.Lib.TokenQueue
Purpose: A queue whose first entry is worked on while the others wait. The work is a token that passes from hand
  to hand: wherever it is, exactly one carrier has it. When the token is handed in, the entry is settled; the
  entry leaves the queue later, when the settlement is acknowledged, and only then the next one gets its token. A
  waiting entry may be taken out of the queue and is then settled on the side. Carriers, settlements and
  acknowledgements are bags: lists up to permutation.
Trusted boundary: none
-/
import Mathlib.Data.List.Nodup
import Mathlib.Data.List.Perm.Basic

namespace CommonRpc.Lib

/-- Entries are numbered in the order in which they are created. -/
structure TokenQueue where
  created : Nat
  queue : List Nat
  /-- Whose token somebody has. -/
  carriers : List Nat
  /-- Taken out of the queue while they were waiting. -/
  diverted : List Nat
  settled : List Nat
  /-- Settled, and the acknowledgement is on its way. -/
  pending : List Nat

namespace TokenQueue

/-- What can happen to a queue. -/
inductive Move (s : TokenQueue) : TokenQueue → Prop where
  /-- The tokens change hands. -/
  | carry {carriers : List Nat} (same : carriers.Perm s.carriers) : Move s { s with carriers }
  /-- An entry that finds the queue empty gets its token at once. -/
  | first {carriers : List Nat} (empty : s.queue = []) (given : carriers.Perm (s.created :: s.carriers)) :
      Move s { s with created := s.created + 1, queue := [s.created], carriers }
  | enqueue (busy : s.queue ≠ []) :
      Move s { s with created := s.created + 1, queue := s.queue ++ [s.created] }
  /-- A token is handed in. -/
  | settle {id : Nat} {carriers : List Nat} (carried : s.carriers.Perm (id :: carriers)) :
      Move s { s with carriers, settled := s.settled ++ [id], pending := s.pending ++ [id] }
  | divert {id back : Nat} {waiting : List Nat} (active : s.queue = back :: waiting) (waits : id ∈ waiting) :
      Move s { s with queue := back :: waiting.erase id, diverted := s.diverted ++ [id] }
  | settleDiverted {id : Nat} {diverted : List Nat} (taken : s.diverted.Perm (id :: diverted)) :
      Move s { s with diverted, settled := s.settled ++ [id], pending := s.pending ++ [id] }
  /-- The settlement of the first entry is acknowledged, and the next one gets its token. -/
  | acknowledge {id : Nat} {waiting pending carriers : List Nat} (known : s.pending.Perm (id :: pending))
      (active : s.queue = id :: waiting) (given : carriers.Perm (waiting.head?.toList ++ s.carriers)) :
      Move s { s with queue := waiting, carriers, pending }
  /-- The settlement of an entry that was taken out is acknowledged. -/
  | pass {id : Nat} {pending : List Nat} (known : s.pending.Perm (id :: pending))
      (other : s.queue.head? ≠ some id) : Move s { s with pending }

/-- Where every entry is. -/
structure Sound (s : TokenQueue) : Prop where
  /-- It has its token somewhere, waits, was taken out or is settled, and no two of these. -/
  account : ∀ id, s.carriers.count id + s.diverted.count id + s.settled.count id + s.queue.tail.count id =
    if id < s.created then 1 else 0
  /-- Only the first entry has a token. -/
  active : ∀ id ∈ s.carriers, s.queue.head? = some id
  /-- The first entry has its token or is settled. -/
  first : ∀ id, s.queue.head? = some id → s.carriers.count id + s.settled.count id = 1
  known : ∀ id, s.pending.count id ≤ s.settled.count id
  /-- The first entry stays until its settlement is acknowledged. -/
  kept : ∀ id, s.queue.head? = some id → s.settled.count id ≤ s.pending.count id

theorem sound_empty : Sound ⟨0, [], [], [], [], []⟩ where
  account := by simp
  active := nofun
  first := nofun
  known := by simp
  kept := nofun

namespace Sound

variable {s t : TokenQueue}

/-- Only what was created is anywhere. -/
theorem lt_created (sound : s.Sound) {id : Nat}
    (somewhere : 0 < s.carriers.count id + s.diverted.count id + s.settled.count id + s.queue.tail.count id) :
    id < s.created := by
  have account := sound.account id
  split at account
  · assumption
  · omega

theorem lt_created_of_carries (sound : s.Sound) {id : Nat} (carries : id ∈ s.carriers) : id < s.created := by
  have one := List.count_pos_iff.mpr carries
  exact sound.lt_created (by omega)

theorem lt_created_of_diverted (sound : s.Sound) {id : Nat} (diverted : id ∈ s.diverted) : id < s.created := by
  have one := List.count_pos_iff.mpr diverted
  exact sound.lt_created (by omega)

theorem lt_created_of_settled (sound : s.Sound) {id : Nat} (settled : id ∈ s.settled) : id < s.created := by
  have one := List.count_pos_iff.mpr settled
  exact sound.lt_created (by omega)

theorem lt_created_of_queued (sound : s.Sound) {id : Nat} (queued : id ∈ s.queue) : id < s.created := by
  apply sound.lt_created
  cases queue : s.queue with
  | nil => simp [queue] at queued
  | cons back waiting =>
      rw [queue] at queued
      cases queued with
      | head =>
          have first := sound.first id (by rw [queue]; rfl)
          omega
      | tail _ waits =>
          have one := List.count_pos_iff.mpr waits
          rw [List.tail_cons]
          omega

theorem settled_of_pending (sound : s.Sound) {id : Nat} (pending : id ∈ s.pending) : id ∈ s.settled := by
  have known := sound.known id
  have one := List.count_pos_iff.mpr pending
  exact List.count_pos_iff.mp (by omega)

/-- The only token is that of the first entry. -/
theorem carriers_eq_nil (sound : s.Sound) {id : Nat} (first : s.queue.head? = some id)
    (settled : id ∈ s.settled) : s.carriers = [] := by
  rw [List.eq_nil_iff_forall_not_mem]
  intro other carried
  have same : other = id := Option.some.inj ((sound.active other carried).symm.trans first)
  subst same
  have both := sound.first other first
  have one := List.count_pos_iff.mpr carried
  have two := List.count_pos_iff.mpr settled
  omega

/-- An entry that was taken out has no token and is neither settled nor first. -/
theorem alone_of_diverted (sound : s.Sound) {id : Nat} (diverted : id ∈ s.diverted) :
    id ∉ s.carriers ∧ id ∉ s.settled ∧ s.queue.head? ≠ some id := by
  have account := sound.account id
  have one := List.count_pos_iff.mpr diverted
  rw [if_pos (sound.lt_created_of_diverted diverted)] at account
  refine ⟨fun carried => ?_, fun settled => ?_, fun first => ?_⟩
  · have two := List.count_pos_iff.mpr carried
    omega
  · have two := List.count_pos_iff.mpr settled
    omega
  · have own := sound.first id first
    omega

/-- A waiting entry is not settled. -/
theorem notMem_settled_of_waits (sound : s.Sound) {id : Nat} (waits : id ∈ s.queue.tail) : id ∉ s.settled := by
  intro settled
  have account := sound.account id
  have one := List.count_pos_iff.mpr waits
  have two := List.count_pos_iff.mpr settled
  split at account
  · omega
  · omega

/-- A settlement is acknowledged once. -/
theorem nodup_pending (sound : s.Sound) : s.pending.Nodup := by
  rw [List.nodup_iff_count_le_one]
  intro id
  have known := sound.known id
  have account := sound.account id
  split at account
  · omega
  · omega

/-- There is at most one token. -/
theorem length_carriers_le (sound : s.Sound) : s.carriers.length ≤ 1 := by
  cases carriers : s.carriers with
  | nil => exact Nat.zero_le 1
  | cons id rest =>
      have isFirst := sound.active id (carriers ▸ .head rest)
      have same : ∀ other ∈ s.carriers, id = other := fun other carried =>
        Option.some.inj (isFirst.symm.trans (sound.active other carried))
      have all : s.carriers.count id = s.carriers.length := List.count_eq_length.mpr same
      have first := sound.first id isFirst
      rw [carriers] at all first
      omega

/-- When nothing is on its way, every entry is settled. -/
theorem idle (sound : s.Sound) (carriers : s.carriers = []) (diverted : s.diverted = [])
    (pending : s.pending = []) : s.queue = [] ∧ ∀ id < s.created, s.settled.count id = 1 := by
  have empty : s.queue = [] := by
    cases queue : s.queue with
    | nil => rfl
    | cons id waiting =>
        have isFirst : s.queue.head? = some id := by rw [queue]; rfl
        have first := sound.first id isFirst
        have kept := sound.kept id isFirst
        rw [carriers] at first
        rw [pending] at kept
        simp only [List.count_nil] at first kept
        omega
  refine ⟨empty, fun id created => ?_⟩
  have account := sound.account id
  rw [carriers, diverted, empty, if_pos created] at account
  simpa using account

end Sound

theorem Move.sound {s t : TokenQueue} (sound : s.Sound) (move : Move s t) : t.Sound := by
  cases move with
  | carry same =>
      refine ⟨fun id => ?_, fun id mem => sound.active id (same.mem_iff.mp mem), fun id first => ?_, sound.known,
        sound.kept⟩
      · rw [same.count_eq]
        exact sound.account id
      · rw [same.count_eq]
        exact sound.first id first
  | first empty given =>
      have count (id : Nat) := given.count_eq id
      have account := sound.account
      rw [empty] at account
      have idle : s.carriers = [] := by
        rw [List.eq_nil_iff_forall_not_mem]
        intro id carried
        have first := sound.active id carried
        rw [empty] at first
        cases first
      refine ⟨fun id => ?_, fun id mem => ?_, fun id first => ?_, sound.known, fun id first => ?_⟩
      · have before := account id
        have after := count id
        simp only [List.count_cons, List.tail_cons, List.tail_nil, List.count_nil] at before after ⊢
        grind
      · have isFirst := given.mem_iff.mp mem
        simp [idle] at isFirst
        simp [isFirst]
      · have before := account id
        have after := count id
        grind
      · have before := account id
        grind
  | enqueue busy =>
      obtain ⟨back, waiting, queue⟩ := List.exists_cons_of_ne_nil busy
      have account := sound.account
      have active := sound.active
      have first := sound.first
      have kept := sound.kept
      rw [queue] at account active first kept
      rw [queue]
      refine ⟨fun id => ?_, active, first, sound.known, kept⟩
      have before := account id
      grind
  | @settle id carriers carried =>
      have count (other : Nat) := carried.count_eq other
      have isFirst := sound.active id (carried.mem_iff.mpr (.head _))
      refine ⟨fun other => ?_, fun other mem => ?_, fun other first => ?_, fun other => ?_, fun other first => ?_⟩
      · have before := sound.account other
        have after := count other
        grind
      · exact sound.active other (carried.mem_iff.mpr (.tail _ mem))
      · have before := sound.first other first
        have after := count other
        grind
      · have before := sound.known other
        grind
      · have before := sound.kept other first
        grind
  | @divert id back waiting active waits =>
      have count (other : Nat) := (List.perm_cons_erase waits).count_eq other
      have account := sound.account
      have carried := sound.active
      have first := sound.first
      have kept := sound.kept
      rw [active] at account carried first kept
      refine ⟨fun other => ?_, carried, first, sound.known, kept⟩
      have before := account other
      have after := count other
      grind
  | @settleDiverted id diverted taken =>
      have count (other : Nat) := taken.count_eq other
      have notFirst : s.queue.head? ≠ some id := by
        intro first
        have own := sound.first id first
        have account := sound.account id
        have counted := count id
        grind
      refine ⟨fun other => ?_, sound.active, fun other first => ?_, fun other => ?_, fun other first => ?_⟩
      · have before := sound.account other
        have after := count other
        grind
      · have before := sound.first other first
        grind
      · have before := sound.known other
        grind
      · have before := sound.kept other first
        grind
  | @acknowledge id waiting pending carriers known active given =>
      have isFirst : s.queue.head? = some id := by rw [active]; rfl
      have settled := sound.settled_of_pending (known.mem_iff.mpr (.head _))
      have idle := sound.carriers_eq_nil isFirst settled
      have account := sound.account
      rw [active, idle] at account
      rw [idle, List.append_nil] at given
      have count (other : Nat) := given.count_eq other
      refine ⟨fun other => ?_, fun other mem => ?_, fun other first => ?_, fun other => ?_, fun other first => ?_⟩
      · have before := account other
        have after := count other
        cases waiting with
        | nil => simpa [after] using before
        | cons next later =>
            simp only [List.head?_cons, Option.toList_some, List.count_cons, List.count_nil, List.tail_cons] at *
            omega
      · exact Option.mem_toList.mp (given.mem_iff.mp mem)
      · have before := account other
        have after := count other
        cases waiting with
        | nil => cases first
        | cons next later =>
            cases first
            grind
      · have before := sound.known other
        have after := known.count_eq other
        grind
      · -- the next entry was waiting, so it is not settled
        have before := account other
        cases waiting with
        | nil => cases first
        | cons next later =>
            cases first
            grind
  | @pass id pending known other =>
      have count (any : Nat) := known.count_eq any
      refine ⟨sound.account, sound.active, sound.first, fun any => ?_, fun any first => ?_⟩
      · have before := sound.known any
        have after := count any
        grind
      · have before := sound.kept any first
        have after := count any
        grind

end TokenQueue

end CommonRpc.Lib
