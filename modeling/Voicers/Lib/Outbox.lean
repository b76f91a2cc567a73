import Voicers.Lib.FirstMatch
import Mathlib.Logic.Function.Basic

/-! Values put under keys by writes that end later, in any order. A value is
not put again while it is the last one known to be written, or under way. -/

namespace Lib

structure Outbox (κ β : Type) where
  pending : List (Nat × κ × β)
  published : κ → Option β
  next : Nat
  ids : (pending.map Prod.fst).Nodup
  fresh : ∀ entry ∈ pending, entry.1 < next

namespace Outbox

variable {κ β : Type}

def empty : Outbox κ β where
  pending := []
  published := fun _ => none
  next := 0
  ids := .nil
  fresh := by simp

def put (o : Outbox κ β) (record : κ × β) : Outbox κ β where
  pending := o.pending ++ [(o.next, record)]
  published := o.published
  next := o.next + 1
  ids := by
    rw [List.map_append, List.map_singleton, ← List.concat_eq_append]
    refine List.Nodup.concat ?_ o.ids
    intro hmem
    obtain ⟨entry, hentry, heq⟩ := List.mem_map.mp hmem
    exact absurd (heq ▸ o.fresh entry hentry) (Nat.lt_irrefl _)
  fresh := by
    intro entry hentry
    rcases List.mem_append.mp hentry with hold | hnew
    · exact Nat.lt_succ_of_lt (o.fresh entry hold)
    · obtain rfl := List.mem_singleton.mp hnew
      exact Nat.lt_succ_self _

/-- The write is over; what it has written is not recorded. -/
def abandon (o : Outbox κ β) (query : Nat) : Outbox κ β where
  pending := o.pending.filter (fun entry => entry.1 ≠ query)
  published := o.published
  next := o.next
  ids := (List.filter_sublist.map _).nodup o.ids
  fresh := fun entry hentry => o.fresh entry (List.mem_of_mem_filter hentry)

variable [DecidableEq κ] [DecidableEq β]

def offer (accepts : κ → β → Bool) (o : Outbox κ β) (record : κ × β) : Outbox κ β :=
  if o.published record.1 = some record.2 then o
  else if o.pending.any (fun entry => entry.2 = record) then o
  else if accepts record.1 record.2 then o.put record
  else o

def complete (o : Outbox κ β) (query : Nat) : Outbox κ β :=
  match o.pending.find? (fun entry => entry.1 = query) with
  | none => o
  | some (_, key, value) =>
    { o.abandon query with published := Function.update o.published key (some value) }

omit [DecidableEq κ] [DecidableEq β]

/-- The value is written, or will be. -/
def Holds (o : Outbox κ β) (record : κ × β) : Prop :=
  o.published record.1 = some record.2 ∨ ∃ query, (query, record) ∈ o.pending

/-- A write that ends leaves each record of its key with its own value, or with
another write under way. -/
def Settles (o : Outbox κ β) (query : Nat) (records : List (κ × β)) : Prop :=
  ∀ key value, (query, key, value) ∈ o.pending → ∀ record ∈ records, record.1 = key →
    record.2 = value ∨ ∃ other, other ≠ query ∧ (other, record) ∈ o.pending

variable {o : Outbox κ β} {accepts : κ → β → Bool} {record : κ × β}

theorem Holds.published_of_quiet (h : o.Holds record) (hquiet : o.pending = []) :
    o.published record.1 = some record.2 := by
  rcases h with hpublished | ⟨query, hpending⟩
  · exact hpublished
  · rw [hquiet] at hpending
    exact absurd hpending List.not_mem_nil

theorem Holds.put (h : o.Holds record) (new : κ × β) : (o.put new).Holds record := by
  rcases h with hpublished | ⟨query, hpending⟩
  · exact .inl hpublished
  · exact .inr ⟨query, List.mem_append_left _ hpending⟩

theorem holds_put (o : Outbox κ β) (record : κ × β) : (o.put record).Holds record :=
  .inr ⟨o.next, List.mem_append_right _ (List.mem_singleton_self _)⟩

variable [DecidableEq κ] [DecidableEq β]

theorem Holds.offer (h : o.Holds record) (new : κ × β) : (o.offer accepts new).Holds record := by
  unfold Outbox.offer
  split_ifs
  · exact h
  · exact h
  · exact h.put new
  · exact h

theorem holds_offer (haccepts : accepts record.1 record.2 = true) :
    (o.offer accepts record).Holds record := by
  unfold Outbox.offer
  split_ifs with hpublished hpending
  · exact .inl hpublished
  · obtain ⟨⟨query, _⟩, hmem, heq⟩ := List.any_eq_true.mp hpending
    obtain rfl := of_decide_eq_true heq
    exact .inr ⟨query, hmem⟩
  · exact holds_put o record

theorem Holds.foldl_offer {records : List (κ × β)} (h : o.Holds record) :
    (records.foldl (Outbox.offer accepts) o).Holds record := by
  induction records generalizing o with
  | nil => exact h
  | cons new records ih => exact ih (h.offer new)

/-- Offering records leaves each of them written or under way. -/
theorem holds_foldl_offer {records : List (κ × β)}
    (haccepts : ∀ record ∈ records, accepts record.1 record.2 = true) (hmem : record ∈ records) :
    (records.foldl (Outbox.offer accepts) o).Holds record := by
  induction records generalizing o with
  | nil => exact absurd hmem List.not_mem_nil
  | cons new records ih =>
    rcases List.mem_cons.mp hmem with rfl | hrest
    · exact (holds_offer (haccepts record List.mem_cons_self)).foldl_offer
    · exact ih (fun r hr => haccepts r (List.mem_cons_of_mem _ hr)) hrest

omit [DecidableEq β] in
theorem complete_eq {query : Nat} {key : κ} {value : β} (h : (query, key, value) ∈ o.pending) :
    o.complete query =
      { o.abandon query with published := Function.update o.published key (some value) } := by
  have hfind : o.pending.find? (fun entry => entry.1 = query) = some (query, key, value) :=
    find?_of_nodup o.ids h
  unfold Outbox.complete
  rw [hfind]

omit [DecidableEq β] in
/-- Held records stay so over the end of a write exactly when it settles them. -/
theorem holds_complete_iff {query : Nat} {records : List (κ × β)}
    (h : ∀ record ∈ records, o.Holds record) :
    (∀ record ∈ records, (o.complete query).Holds record) ↔ o.Settles query records := by
  by_cases hended : ∃ key value, (query, key, value) ∈ o.pending
  · obtain ⟨key, value, hmem⟩ := hended
    rw [complete_eq hmem]
    have hkept : ∀ record : κ × β, (∃ other, (other, record) ∈ (o.abandon query).pending) ↔
        ∃ other, other ≠ query ∧ (other, record) ∈ o.pending := by
      intro record
      simp [abandon, List.mem_filter, and_comm]
    constructor
    · intro hafter key' value' hmem' record hrecord hkey
      have hsame : (query, key, value) = (query, key', value') := by
        have hfind := find?_of_nodup o.ids hmem
        rw [find?_of_nodup o.ids hmem'] at hfind
        exact (Option.some.inj hfind).symm
      obtain ⟨rfl, rfl⟩ := Prod.mk.inj (Prod.mk.inj hsame).2
      rcases hafter record hrecord with hpublished | hpending
      · left
        rw [hkey] at hpublished
        dsimp only at hpublished
        rw [Function.update_self] at hpublished
        exact (Option.some.inj hpublished).symm
      · exact .inr ((hkept record).mp hpending)
    · intro hsettles record hrecord
      by_cases hkey : record.1 = key
      · rcases hsettles key value hmem record hrecord hkey with hvalue | hother
        · left
          dsimp only
          rw [hkey, hvalue, Function.update_self]
        · exact .inr ((hkept record).mpr hother)
      · rcases h record hrecord with hpublished | ⟨other, hother⟩
        · left
          dsimp only
          rwa [Function.update_of_ne hkey]
        · right
          refine (hkept record).mpr ⟨other, ?_, hother⟩
          rintro rfl
          have hfind := find?_of_nodup o.ids hmem
          rw [find?_of_nodup o.ids hother] at hfind
          obtain rfl := (Prod.mk.inj (Option.some.inj hfind)).2
          exact hkey rfl
  · have hsame : o.complete query = o := by
      unfold Outbox.complete
      cases hfind : o.pending.find? (fun entry => entry.1 = query) with
      | none => rfl
      | some entry =>
        have hid : entry.1 = query := by simpa using List.find?_some hfind
        exact absurd ⟨entry.2.1, entry.2.2, hid ▸ List.mem_of_find?_eq_some hfind⟩ hended
    rw [hsame]
    refine iff_of_true h fun key value hmem => ?_
    exact absurd ⟨key, value, hmem⟩ hended

omit [DecidableEq β] in
/-- The end of a write makes no record held that was not. -/
theorem holds_of_complete {query : Nat} (h : (o.complete query).Holds record) : o.Holds record := by
  unfold Outbox.complete at h
  cases hfind : o.pending.find? (fun entry => entry.1 = query) with
  | none =>
    rw [hfind] at h
    exact h
  | some entry =>
    obtain ⟨id, key, value⟩ := entry
    rw [hfind] at h
    rcases h with hpublished | ⟨other, hother⟩
    · dsimp only at hpublished
      by_cases hkey : record.1 = key
      · rw [hkey, Function.update_self] at hpublished
        have hrecord : record = (key, value) := Prod.ext hkey (Option.some.inj hpublished).symm
        exact .inr ⟨id, hrecord ▸ List.mem_of_find?_eq_some hfind⟩
      · rw [Function.update_of_ne hkey] at hpublished
        exact .inl hpublished
    · exact .inr ⟨other, List.mem_of_mem_filter hother⟩

omit [DecidableEq β] in
theorem length_complete_lt {query : Nat} {key : κ} {value : β}
    (h : (query, key, value) ∈ o.pending) :
    (o.complete query).pending.length < o.pending.length := by
  rw [complete_eq h]
  exact List.length_filter_lt_length_iff_exists.mpr ⟨_, h, by simp⟩

omit [DecidableEq β] in
theorem holds_of_foldl_complete {queries : List Nat}
    (h : (queries.foldl Outbox.complete o).Holds record) : o.Holds record := by
  induction queries generalizing o with
  | nil => exact h
  | cons query queries ih => exact holds_of_complete (ih h)

omit [DecidableEq β] in
theorem exists_quiet (o : Outbox κ β) :
    ∃ queries : List Nat, (queries.foldl Outbox.complete o).pending = [] := by
  induction hlength : o.pending.length using Nat.strongRecOn generalizing o with
  | ind n ih =>
    cases hpending : o.pending with
    | nil => exact ⟨[], hpending⟩
    | cons entry rest =>
      have hmem : (entry.1, entry.2.1, entry.2.2) ∈ o.pending := by simp [hpending]
      have hlt := length_complete_lt hmem
      rw [hlength] at hlt
      obtain ⟨queries, hquiet⟩ := ih _ hlt (o.complete entry.1) rfl
      exact ⟨entry.1 :: queries, hquiet⟩

end Outbox

end Lib
