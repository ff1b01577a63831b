/-
Module: CommonRpc.Lib.Table
Purpose: Tables: lists whose entries are addressed by their position, are replaced in place and are added at the
  end, so that an entry keeps its number. Each lemma says where an entry of the changed table comes from.
Trusted boundary: none
-/
import Mathlib.Algebra.GroupWithZero.Nat
import Mathlib.Data.List.Perm.Basic

namespace CommonRpc.Lib.Table

universe u v

variable {α : Type u} {entries more : List α} {i j : Nat} {old new found : α}

theorem lt_of_entry (entry : entries[i]? = some found) : i < entries.length :=
  (List.getElem?_eq_some_iff.mp entry).1

theorem set_self (before : entries[i]? = some old) : (entries.set i new)[i]? = some new :=
  List.getElem?_set_self (lt_of_entry before)

/-- An entry after a replacement is the new one, or an old one in another place. -/
theorem set_cases (before : entries[i]? = some old) (after : (entries.set i new)[j]? = some found) :
    j = i ∧ found = new ∨ j ≠ i ∧ entries[j]? = some found := by
  by_cases same : j = i
  · subst same
    rw [set_self before] at after
    exact .inl ⟨rfl, (Option.some.inj after).symm⟩
  · rw [List.getElem?_set_ne (Ne.symm same)] at after
    exact .inr ⟨same, after⟩

/-- What holds of every entry holds after one was replaced by another of which it holds. -/
theorem forall_set {P : α → Prop} (old : ∀ entry ∈ entries, P entry) (isNew : P new) :
    ∀ entry ∈ entries.set i new, P entry := by
  intro entry member
  rcases List.mem_or_eq_of_mem_set member with before | rfl
  · exact old entry before
  · exact isNew

/-- No two entries have the same key, and the new one has a key that no other entry has. -/
theorem set_unique {κ : Type v} {key : α → Option κ} {k : κ} (before : entries[i]? = some old)
    (unique : ∀ (p q : Nat) (first second : α) (k : κ), entries[p]? = some first → entries[q]? = some second →
      key first = some k → key second = some k → p = q)
    (own : key new = some k)
    (alone : ∀ (q : Nat) (other : α), entries[q]? = some other → key other = some k → q = i)
    (p q : Nat) (first second : α) (k' : κ) (atP : (entries.set i new)[p]? = some first)
    (atQ : (entries.set i new)[q]? = some second) (firstKey : key first = some k')
    (secondKey : key second = some k') : p = q := by
  rcases set_cases before atP with ⟨rfl, rfl⟩ | ⟨_, oldFirst⟩ <;>
    rcases set_cases before atQ with ⟨rfl, rfl⟩ | ⟨_, oldSecond⟩
  · rfl
  · obtain rfl : k = k' := Option.some.inj (own.symm.trans firstKey)
    exact (alone q second oldSecond secondKey).symm
  · obtain rfl : k = k' := Option.some.inj (own.symm.trans secondKey)
    exact alone p first oldFirst firstKey
  · exact unique p q first second k' oldFirst oldSecond firstKey secondKey

theorem push_old (before : entries[i]? = some found) : (entries ++ more)[i]? = some found :=
  List.getElem?_append_left (lt_of_entry before) ▸ before

/-- An entry after one was added is an old one, or the new one. -/
theorem push_cases (after : (entries ++ [new])[i]? = some found) :
    entries[i]? = some found ∨ i = entries.length ∧ found = new := by
  rcases Nat.lt_trichotomy i entries.length with inside | last | beyond
  · exact .inl (List.getElem?_append_left inside ▸ after)
  · subst last
    rw [List.getElem?_concat_length] at after
    exact .inr ⟨rfl, (Option.some.inj after).symm⟩
  · rw [List.getElem?_eq_none (by rw [List.length_append]; exact beyond)] at after
    cases after

/-- If only one entry passes the test, the test selects it. -/
theorem filter_eq_singleton {test : α → Bool} (entry : entries[i]? = some found) (passes : test found = true)
    (unique : ∀ (j : Nat) (other : α), entries[j]? = some other → test other = true → j = i) :
    entries.filter test = [found] := by
  induction entries generalizing i with
  | nil => cases entry
  | cons head tail ih =>
      cases i with
      | zero =>
          cases entry
          have rejected : tail.filter test = [] := by
            refine List.filter_eq_nil_iff.mpr fun other mem passes' => ?_
            obtain ⟨j, entry⟩ := List.getElem?_of_mem mem
            cases unique (j + 1) other entry passes'
          rw [List.filter_cons_of_pos passes, rejected]
      | succ i =>
          have headFails : ¬ test head = true := fun passes' => by cases unique 0 head rfl passes'
          rw [List.filter_cons_of_neg headFails]
          exact ih entry fun j other entry' passes' => Nat.succ.inj (unique (j + 1) other entry' passes')

/-- A replacement gives up the old entry and brings in the new one. -/
theorem countP_set {test : α → Bool} (before : entries[i]? = some old) :
    (entries.set i new).countP test + (if test old then 1 else 0) =
      entries.countP test + (if test new then 1 else 0) := by
  obtain ⟨inside, isOld⟩ := List.getElem?_eq_some_iff.mp before
  have counted : (if test old then 1 else 0) ≤ entries.countP test := by
    split
    · exact List.one_le_countP_iff.mpr ⟨old, List.mem_of_getElem? before, ‹_›⟩
    · exact Nat.zero_le _
  rw [List.countP_set inside, isOld]
  omega

/-- Whether some entry passes the test does not depend on one that fails it. -/
theorem any_set {test : α → Bool} (before : entries[i]? = some old) (oldFails : test old = false)
    (newFails : test new = false) : (entries.set i new).any test = entries.any test := by
  induction entries generalizing i with
  | nil => cases before
  | cons head tail ih =>
      cases i with
      | zero =>
          cases before
          rw [List.set_cons_zero, List.any_cons, List.any_cons, oldFails, newFails]
      | succ i => rw [List.set_cons_succ, List.any_cons, List.any_cons, ih before]

/-- A sum over the entries gives up the share of the old entry for that of the new one. -/
theorem sum_map_set {share : α → Nat} (before : entries[i]? = some old) :
    ((entries.set i new).map share).sum + share old = (entries.map share).sum + share new := by
  induction entries generalizing i with
  | nil => cases before
  | cons head tail ih =>
      cases i with
      | zero =>
          cases before
          simp only [List.set_cons_zero, List.map_cons, List.sum_cons]
          omega
      | succ i =>
          have later := ih before
          simp only [List.set_cons_succ, List.map_cons, List.sum_cons]
          omega

/-- A list made from the entries gives up the part of the old entry for that of the new one. -/
theorem flatMap_set {β : Type v} (before : entries[i]? = some old) (new : α) (part : α → List β) :
    ∃ start rest, entries.flatMap part = start ++ part old ++ rest ∧
      (entries.set i new).flatMap part = start ++ part new ++ rest := by
  obtain ⟨inside, here⟩ := List.getElem?_eq_some_iff.mp before
  refine ⟨(entries.take i).flatMap part, (entries.drop (i + 1)).flatMap part, ?_, ?_⟩
  · rw [← here, List.append_assoc, ← List.flatMap_cons, List.getElem_cons_drop, ← List.flatMap_append,
      List.take_append_drop]
  · rw [List.set_eq_take_append_cons_drop, if_pos inside, List.flatMap_append, List.flatMap_cons,
      List.append_assoc]

section Writes

variable {writes : List (Nat × α)}

/-- Writes elsewhere leave an entry as it is. -/
theorem foldl_set_of_notMem (elsewhere : i ∉ writes.map Prod.fst) :
    (writes.foldl (fun table write => table.set write.1 write.2) entries)[i]? = entries[i]? := by
  induction writes generalizing entries with
  | nil => rfl
  | cons write writes ih =>
      rw [List.map_cons, List.mem_cons, not_or] at elsewhere
      rw [List.foldl_cons, ih elsewhere.2, List.getElem?_set_ne (Ne.symm elsewhere.1)]

/-- After writes to different places each place has what was written to it. -/
theorem foldl_set_of_mem (distinct : (writes.map Prod.fst).Nodup)
    (inside : ∀ write ∈ writes, write.1 < entries.length) (written : (i, new) ∈ writes) :
    (writes.foldl (fun table write => table.set write.1 write.2) entries)[i]? = some new := by
  induction writes generalizing entries with
  | nil => cases written
  | cons write writes ih =>
      obtain ⟨first, distinct⟩ := List.nodup_cons.mp distinct
      have within := inside write (.head _)
      rw [List.foldl_cons]
      rcases List.mem_cons.mp written with rfl | later
      · rw [foldl_set_of_notMem first, List.getElem?_set_self within]
      · refine ih distinct (fun write mem => ?_) later
        rw [List.length_set]
        exact inside write (.tail _ mem)

theorem length_foldl_set :
    (writes.foldl (fun table write => table.set write.1 write.2) entries).length = entries.length := by
  induction writes generalizing entries with
  | nil => rfl
  | cons write writes ih => rw [List.foldl_cons, ih, List.length_set]

end Writes

/-- An entry is taken out. -/
theorem eraseIdx_perm (entry : entries[i]? = some found) : entries.Perm (found :: entries.eraseIdx i) := by
  obtain ⟨inside, rfl⟩ := List.getElem?_eq_some_iff.mp entry
  exact (List.getElem_cons_eraseIdx_perm inside).symm

/-- An entry after one was changed by a function comes from the entry in the same place. -/
theorem modify_cases {change : α → α} (after : (entries.modify i change)[j]? = some found) :
    ∃ old, entries[j]? = some old ∧ found = if i = j then change old else old := by
  rw [List.getElem?_modify] at after
  obtain ⟨old, before, rfl⟩ := Option.map_eq_some_iff.mp after
  exact ⟨old, before, rfl⟩

/-- The entries at increasing places. -/
theorem sublist_of_increasing {ids : List Nat} (increasing : ids.Pairwise (· < ·)) {f : Nat → α}
    (known : ∀ id ∈ ids, entries[id]? = some (f id)) : (ids.map f).Sublist entries := by
  have inside : ∀ id ∈ ids, id < entries.length := fun id member => lt_of_entry (known id member)
  have ordered : (ids.pmap Fin.mk inside).Pairwise (· < ·) := increasing.pmap inside fun _ _ _ _ less => less
  have places := List.map_getElem_sublist ordered
  have same : ids.map f = (ids.pmap Fin.mk inside).map fun place => entries[place] := by
    rw [List.map_pmap, ← List.pmap_eq_map (p := fun id => id < entries.length) inside]
    apply List.pmap_congr_left
    intro id member _ here
    exact (List.getElem?_eq_some_iff.mp (known id member)).2.symm
  rw [same]
  exact places

/-- An entry among those from some place on. -/
theorem drop_split (later : j ≤ i) (entry : entries[i]? = some found) :
    ∃ skipped, entries.drop j = skipped ++ found :: entries.drop (i + 1) := by
  obtain ⟨n, rfl⟩ := Nat.exists_eq_add_of_le later
  obtain ⟨inside, rfl⟩ := List.getElem?_eq_some_iff.mp entry
  refine ⟨(entries.drop j).take n, ?_⟩
  rw [← List.drop_eq_getElem_cons inside, ← List.drop_drop, List.take_append_drop]

/-- The beginning of a table goes on with the entry behind it. -/
theorem prefix_next (start : more <+: entries) (next : entries[more.length]? = some found) :
    more ++ [found] <+: entries := by
  obtain ⟨rest, rfl⟩ := start
  rw [List.getElem?_append_right (Nat.le_refl _), Nat.sub_self, ← List.head?_eq_getElem?] at next
  obtain ⟨tail, rfl⟩ := List.head?_eq_some_iff.mp next
  exact ⟨tail, by simp⟩

end CommonRpc.Lib.Table
