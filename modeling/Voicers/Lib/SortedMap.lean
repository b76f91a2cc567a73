import Mathlib.Data.List.Sort
import Mathlib.Data.List.Perm.Basic
import Mathlib.Order.Basic

/-! Ordered finite maps as strictly sorted association lists. The operations
evaluate in the kernel, and sortedness is a field, so a map with a repeated
or misplaced key cannot be built. -/

namespace Lib

structure SortedMap (κ ν : Type) [LinearOrder κ] where
  entries : List (κ × ν)
  sorted : entries.Pairwise (fun a b => a.1 < b.1)
deriving DecidableEq

namespace SortedMap

variable {κ ν : Type} [LinearOrder κ]

def empty : SortedMap κ ν := ⟨[], .nil⟩

def length (m : SortedMap κ ν) : Nat := m.entries.length

def get? (m : SortedMap κ ν) (k : κ) : Option ν :=
  (m.entries.find? (fun e => e.1 = k)).map Prod.snd

def first? (m : SortedMap κ ν) : Option (κ × ν) := m.entries.head?

def erase (m : SortedMap κ ν) (k : κ) : SortedMap κ ν :=
  ⟨m.entries.filter (fun e => e.1 ≠ k), m.sorted.filter _⟩

theorem sorted_splice {l : List (κ × ν)} (hl : l.Pairwise (fun a b => a.1 < b.1)) (k : κ) (v : ν) :
    (l.filter (fun e => e.1 < k) ++ (k, v) :: l.filter (fun e => k < e.1)).Pairwise
      (fun a b => a.1 < b.1) := by
  refine List.pairwise_append.mpr ⟨hl.filter _, List.pairwise_cons.mpr ⟨?_, hl.filter _⟩, ?_⟩
  · intro e he
    simpa using (List.mem_filter.mp he).2
  · intro a ha b hb
    have hak : a.1 < k := by simpa using (List.mem_filter.mp ha).2
    rcases List.mem_cons.mp hb with rfl | hb
    · exact hak
    · exact hak.trans (by simpa using (List.mem_filter.mp hb).2)

/-- Adds an entry unless the key is taken; the entry already there stays. -/
def insertNew (m : SortedMap κ ν) (k : κ) (v : ν) : SortedMap κ ν :=
  if (m.get? k).isSome then m else ⟨_, sorted_splice m.sorted k v⟩

theorem get?_eq_some_iff {m : SortedMap κ ν} {k : κ} {v : ν} :
    m.get? k = some v ↔ (k, v) ∈ m.entries := by
  obtain ⟨l, hl⟩ := m
  simp only [get?]
  induction l with
  | nil => simp
  | cons e l ih =>
    have hp := List.pairwise_cons.mp hl
    by_cases he : e.1 = k
    · have hnot : (k, v) ∉ l := fun hm => absurd (hp.1 _ hm) (by simp [he])
      obtain ⟨a, b⟩ := e
      simp_all [Prod.ext_iff, eq_comm]
    · have hne : (k, v) ≠ e := fun h => he (by simp [← h])
      simp only [List.find?_cons, he, decide_false, List.mem_cons, hne, false_or]
      exact ih hp.2

theorem get?_eq_none_iff {m : SortedMap κ ν} {k : κ} :
    m.get? k = none ↔ ∀ v, (k, v) ∉ m.entries := by
  rw [Option.eq_none_iff_forall_not_mem]
  exact forall_congr' fun v => not_congr get?_eq_some_iff

theorem mem_erase {m : SortedMap κ ν} {k : κ} {e : κ × ν} :
    e ∈ (m.erase k).entries ↔ e ∈ m.entries ∧ e.1 ≠ k := by
  simp [erase, List.mem_filter]

theorem filter_ne_of_lt {l : List (κ × ν)} {k : κ} (h : ∀ x ∈ l, k < x.1) :
    l.filter (fun e => e.1 ≠ k) = l :=
  List.filter_eq_self.mpr fun x hx => by simpa using (h x hx).ne'

theorem erase_perm {m : SortedMap κ ν} {k : κ} {v : ν} (h : m.get? k = some v) :
    m.entries.Perm ((k, v) :: (m.erase k).entries) := by
  have hm := get?_eq_some_iff.mp h
  obtain ⟨l, hl⟩ := m
  simp only [erase] at hm ⊢
  induction l with
  | nil => simp at hm
  | cons e l ih =>
    have hp := List.pairwise_cons.mp hl
    rcases List.mem_cons.mp hm with rfl | hm
    · rw [List.filter_cons_of_neg (by simp), filter_ne_of_lt hp.1]
    · have hne : e.1 ≠ k := (hp.1 _ hm).ne
      have hi := ih hp.2 (get?_eq_some_iff.mpr hm) hm
      simp only [hne, ne_eq, not_false_eq_true, decide_true, List.filter_cons_of_pos]
      exact (hi.cons e).trans (List.Perm.swap _ _ _)

theorem length_erase {m : SortedMap κ ν} {k : κ} {v : ν} (h : m.get? k = some v) :
    (m.erase k).length + 1 = m.length := by
  simpa [length] using (erase_perm h).length_eq.symm

theorem insertNew_of_some {m : SortedMap κ ν} {k : κ} {v w : ν} (h : m.get? k = some w) :
    m.insertNew k v = m := by
  simp [insertNew, h]

theorem insertNew_entries {m : SortedMap κ ν} {k : κ} (h : m.get? k = none) (v : ν) :
    (m.insertNew k v).entries =
      m.entries.filter (fun e => e.1 < k) ++ (k, v) :: m.entries.filter (fun e => k < e.1) := by
  simp [insertNew, h]

theorem insertNew_perm {m : SortedMap κ ν} {k : κ} (h : m.get? k = none) (v : ν) :
    (m.insertNew k v).entries.Perm ((k, v) :: m.entries) := by
  rw [insertNew_entries h v]
  have hgt : m.entries.filter (fun e => k < e.1) = m.entries.filter (fun e => !decide (e.1 < k)) := by
    apply List.filter_congr
    intro e he
    have hne : e.1 ≠ k := fun hk => get?_eq_none_iff.mp h e.2 (by simpa [← hk] using he)
    rcases lt_or_gt_of_ne hne with hlt | hlt <;> simp [hlt, hlt.not_gt]
  refine List.perm_middle.trans (List.Perm.cons _ ?_)
  rw [hgt]
  exact List.filter_append_perm _ _

theorem mem_insertNew {m : SortedMap κ ν} {k : κ} {v : ν} {e : κ × ν} :
    e ∈ (m.insertNew k v).entries ↔ e ∈ m.entries ∨ (m.get? k = none ∧ e = (k, v)) := by
  cases h : m.get? k with
  | none => simp [(insertNew_perm h v).mem_iff, or_comm]
  | some w => simp [insertNew_of_some h]

theorem nodup_entries (m : SortedMap κ ν) : m.entries.Nodup :=
  m.sorted.imp fun h he => by simp [he] at h

theorem filter_notMem_suffix [DecidableEq ν] {m : SortedMap κ ν} {a b : List (κ × ν)}
    (h : m.entries = a ++ b) : m.entries.filter (fun e => e ∉ b) = a := by
  have hd : (a ++ b).Nodup := h ▸ m.nodup_entries
  rw [h, List.filter_append]
  have ha : a.filter (fun e => e ∉ b) = a := by
    apply List.filter_eq_self.mpr
    intro e he
    simpa using fun hb => List.disjoint_of_nodup_append hd he hb
  have hb : b.filter (fun e => e ∉ b) = [] := by simp
  rw [ha, hb, List.append_nil]

theorem first?_eq_none_iff {m : SortedMap κ ν} : m.first? = none ↔ m.length = 0 := by
  simp [first?, length]

theorem mem_of_first? {m : SortedMap κ ν} {e : κ × ν} (h : m.first? = some e) :
    e ∈ m.entries := List.mem_of_mem_head? h

theorem first?_le {m : SortedMap κ ν} {e x : κ × ν} (h : m.first? = some e)
    (hx : x ∈ m.entries) : e.1 ≤ x.1 := by
  obtain ⟨l, hl⟩ := m
  cases l with
  | nil => simp [first?] at h
  | cons a l =>
    simp only [first?, List.head?_cons, Option.some.injEq] at h
    subst h
    rcases List.mem_cons.mp hx with rfl | hx
    · exact le_rfl
    · exact ((List.pairwise_cons.mp hl).1 x hx).le

theorem entries_eq_cons {m : SortedMap κ ν} {e : κ × ν} (h : m.first? = some e) :
    m.entries = e :: (m.erase e.1).entries := by
  obtain ⟨l, hl⟩ := m
  cases l with
  | nil => simp [first?] at h
  | cons a l =>
    simp only [first?, List.head?_cons, Option.some.injEq] at h
    subst h
    simp only [erase]
    rw [List.filter_cons_of_neg (by simp), filter_ne_of_lt (List.pairwise_cons.mp hl).1]

theorem get?_of_first? {m : SortedMap κ ν} {e : κ × ν} (h : m.first? = some e) :
    m.get? e.1 = some e.2 := get?_eq_some_iff.mpr (mem_of_first? h)

section

variable {μ : Type} {f : ν → μ} {m : SortedMap κ ν} {k : κ}

def mapValues (f : ν → μ) (m : SortedMap κ ν) : SortedMap κ μ :=
  ⟨m.entries.map fun e => (e.1, f e.2), List.pairwise_map.mpr m.sorted⟩

@[simp] theorem length_mapValues : (m.mapValues f).length = m.length := List.length_map _

@[simp] theorem first?_mapValues :
    (m.mapValues f).first? = m.first?.map fun e => (e.1, f e.2) := List.head?_map

@[simp] theorem get?_mapValues : (m.mapValues f).get? k = (m.get? k).map f := by
  simp only [get?, mapValues, List.find?_map, Option.map_map]
  rfl

@[simp] theorem erase_mapValues : (m.mapValues f).erase k = (m.erase k).mapValues f := by
  simp only [erase, mapValues, List.filter_map]
  rfl

@[simp] theorem insertNew_mapValues (v : ν) :
    (m.mapValues f).insertNew k (f v) = (m.insertNew k v).mapValues f := by
  unfold insertNew
  by_cases h : (m.get? k).isSome = true
  · simp [h]
  · simp only [get?_mapValues, Option.isSome_map, h, Bool.false_eq_true, if_false]
    simp only [mapValues, List.filter_map, List.map_append, List.map_cons]
    rfl

theorem mapValues_congr {g : ν → μ} (h : ∀ e ∈ m.entries, f e.2 = g e.2) :
    m.mapValues f = m.mapValues g := by
  have hentries : (m.mapValues f).entries = (m.mapValues g).entries :=
    List.map_congr_left fun e he => by rw [h e he]
  cases hf : m.mapValues f
  cases hg : m.mapValues g
  simpa [hf, hg] using hentries

end

end SortedMap

end Lib
