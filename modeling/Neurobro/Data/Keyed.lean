import Mathlib.Data.List.Perm.Basic
import Mathlib.Data.List.Nodup

/-! A map that keeps its rows in the order in which their keys came: a new value for a known
key takes the old one's place. -/
namespace Neurobro.Keyed

open List

variable {α K : Type} [DecidableEq K] (key : α → K)

def get (k : K) (l : List α) : Option α := l.find? fun x => decide (key x = k)

def delete (k : K) (l : List α) : List α := l.filter fun x => decide (key x ≠ k)

def set (x : α) : List α → List α
  | [] => [x]
  | y :: rest => if key y = key x then x :: rest else y :: set x rest

variable {key}

theorem get_some (found : get key k l = some x) : x ∈ l ∧ key x = k :=
  ⟨mem_of_find?_eq_some found,of_decide_eq_true (List.find?_some (p := fun x => decide (key x = k)) found)⟩

theorem get_none : get key k l = none ↔ ∀ x ∈ l, key x ≠ k := by
  simp [get]

theorem get_cons_same (same : key x = k) : get key k (x :: l) = some x :=
  List.find?_cons_of_pos (decide_eq_true same)

theorem get_cons_other (apart : key x ≠ k) : get key k (x :: l) = get key k l :=
  List.find?_cons_of_neg (by simpa using apart)

theorem mem_delete : x ∈ delete key k l ↔ x ∈ l ∧ key x ≠ k := by
  simp [delete]

theorem delete_absent (absent : ∀ x ∈ l, key x ≠ k) : delete key k l = l := by
  rw [delete,filter_eq_self]
  exact fun x member => decide_eq_true (absent x member)

/-- Where every key is there once, the row of a key is the one that is found. -/
theorem get_mem (once : (l.map key).Nodup) (member : x ∈ l) : get key (key x) l = some x := by
  cases found : get key (key x) l with
  | none => exact absurd rfl (get_none.mp found x member)
  | some y =>
    obtain ⟨there,same⟩ := get_some found
    rw [inj_on_of_nodup_map once there member same]

theorem get_eq_some (once : (l.map key).Nodup) : get key k l = some x ↔ x ∈ l ∧ key x = k:= by
  constructor
  · exact get_some
  · rintro ⟨member,rfl⟩
    exact get_mem once member

/-- What is found does not depend on the order. -/
theorem get_perm (once : (l.map key).Nodup) (perm : l.Perm l') (k : K) : get key k l = get key k l' := by
  have once' : (l'.map key).Nodup := (perm.map key).nodup_iff.mp once
  apply Option.ext
  intro x
  rw [get_eq_some once,get_eq_some once',perm.mem_iff]

theorem set_perm (once : (l.map key).Nodup) (x : α) : (set key x l).Perm (x :: delete key (key x) l) := by
  induction l with
  | nil => exact List.Perm.refl _
  | cons y rest ih =>
    rw [map_cons,nodup_cons] at once
    by_cases same : key y = key x
    · have absent : ∀ z ∈ rest, key z ≠ key x := by
        intro z member other
        exact once.1 (mem_map.mpr ⟨z,member,other.trans same.symm⟩)
      have gone : delete key (key x) (y :: rest) = rest := by
        rw [delete,filter_cons_of_neg (by simp [same])]
        exact delete_absent absent
      rw [set,if_pos same,gone]
    · have kept : delete key (key x) (y :: rest) = y :: delete key (key x) rest := by
        rw [delete,filter_cons_of_pos (by simp [same])]
        rfl
      rw [set,if_neg same,kept]
      exact ((ih once.2).cons y).trans (List.Perm.swap x y _)

theorem nodup_delete (once : (l.map key).Nodup) (k : K) : ((delete key k l).map key).Nodup :=
  once.sublist (filter_sublist.map key)

theorem set_absent (absent : ∀ y ∈ l, key y ≠ key x) : set key x l = l ++ [x] := by
  induction l with
  | nil => rfl
  | cons y rest ih =>
    rw [set,if_neg (absent y mem_cons_self),ih fun z member => absent z (mem_cons_of_mem _ member)]
    rfl

theorem perm_delete {l : List α} (once : (l.map key).Nodup) (member : x ∈ l) : l.Perm (x :: delete key (key x) l) := by
  induction l with
  | nil => cases member
  | cons y rest ih =>
    rw [map_cons,nodup_cons] at once
    rcases mem_cons.mp member with rfl | later
    · have gone : delete key (key x) (x :: rest) = rest := by
        rw [delete,filter_cons_of_neg (by simp)]
        exact delete_absent fun z there same => once.1 (mem_map.mpr ⟨z,there,same⟩)
      rw [gone]
    · have apart : key y ≠ key x := fun same => once.1 (mem_map.mpr ⟨x,later,same.symm⟩)
      have kept : delete key (key x) (y :: rest) = y :: delete key (key x) rest := by
        rw [delete,filter_cons_of_pos (by simp [apart])]
        rfl
      rw [kept]
      exact ((ih once.2 later).cons y).trans (List.Perm.swap x y _)

theorem get_append {k : K} {l l' : List α} : get key k (l ++ l') = (get key k l).or (get key k l') := List.find?_append

theorem get_map {β : Type} {f : α → β} {key' : β → K} (same : ∀ x, key' (f x) = key x) {k : K} {l : List α} :
    get key' k (l.map f) = (get key k l).map f := by
  simp only [get,List.find?_map]
  congr 2
  funext x
  simp [same]

theorem delete_append {k : K} {l l' : List α} : delete key k (l ++ l') = delete key k l ++ delete key k l' :=
  filter_append _ _

theorem delete_map {β : Type} {f : α → β} {key' : β → K} (same : ∀ x, key' (f x) = key x) {k : K} {l : List α} :
    delete key' k (l.map f) = (delete key k l).map f := by
  simp only [delete,filter_map]
  congr 2
  funext x
  simp [same]

theorem delete_delete : delete key k (delete key k l) = delete key k l :=
  delete_absent fun _ member => (mem_delete.mp member).2

theorem get_delete (apart : k' ≠ k) : get key k' (delete key k l) = get key k' l := by
  induction l with
  | nil => rfl
  | cons y rest ih =>
    by_cases gone : key y = k
    · have other : key y ≠ k' := fun same => apart (same.symm.trans gone)
      have left_ : delete key k (y :: rest) = delete key k rest := filter_cons_of_neg (by simp [gone])
      have later : get key k' (y :: rest) = get key k' rest := get_cons_other other
      rw [left_,later,ih]
    · have kept : delete key k (y :: rest) = y :: delete key k rest := filter_cons_of_pos (by simp [gone])
      by_cases here : key y = k'
      · rw [kept,get_cons_same here,get_cons_same here]
      · rw [kept,get_cons_other here,get_cons_other here,ih]

/-- Rows that cannot be the one looked for may be left out. -/
theorem get_filter (kept : ∀ x ∈ l, key x = k → p x = true) : get key k (l.filter p) = get key k l:= by
  induction l with
  | nil => rfl
  | cons y rest ih =>
    have tail := ih fun x member => kept x (mem_cons_of_mem _ member)
    by_cases here : key y = k
    · rw [filter_cons_of_pos (kept y mem_cons_self here)]
      simp [get,here]
    · have later : get key k (y :: rest) = get key k rest := get_cons_other here
      rw [later,← tail]
      by_cases holds : p y = true
      · rw [filter_cons_of_pos holds]
        exact get_cons_other here
      · rw [filter_cons_of_neg holds]

/-- A known key takes no more room. -/
theorem length_set (x : α) : (set key x l).length = if (get key (key x) l).isSome then l.length else l.length + 1:= by
  induction l with
  | nil => rfl
  | cons y rest ih =>
    by_cases same : key y = key x
    · simp [set,get,same]
    · rw [set,if_neg same,length_cons,ih,get,get,List.find?_cons_of_neg (by simp [same]),length_cons]
      split <;> rfl

theorem length_delete : (delete key k l).length ≤ l.length := length_filter_le _ _

/-- A row less where the key is known. -/
theorem length_delete_lt (known : (get key k l).isSome) : (delete key k l).length < l.length := by
  obtain ⟨x,found⟩ := Option.isSome_iff_exists.mp known
  obtain ⟨member,same⟩ := get_some found
  exact length_filter_lt_length_iff_exists.mpr ⟨x,member,by simp [same]⟩

end Neurobro.Keyed
