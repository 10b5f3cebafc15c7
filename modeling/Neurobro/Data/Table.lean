import Mathlib.Data.List.AList
import Mathlib.Data.List.Sort

/-! One collection of a record store: at most one row for each key, read back in an
order that depends on the keys only. -/
namespace Neurobro

open List

abbrev Table (K V : Type) := AList fun _ : K => V

namespace Table

variable {K V : Type} [DecidableEq K]

def get (t : Table K V) (k : K) : Option V := t.lookup k

def put (t : Table K V) (k : K) (v : V) : Table K V := AList.insert k v t

def delete (t : Table K V) (k : K) : Table K V := AList.erase k t

def size (t : Table K V) : Nat := t.keys.length

/-- Rows in the order of `rank`, a keyed hash of the record identifier. -/
def list (rank : K → Nat) (t : Table K V) : List V :=
  (t.entries.insertionSort fun a b => rank a.1 ≤ rank b.1).map Sigma.snd

def mapRows (f : V → V) (t : Table K V) : Table K V :=
  ⟨t.entries.map fun row => ⟨row.1,f row.2⟩,by
    have same : (t.entries.map fun row => (⟨row.1,f row.2⟩ : (_ : K) × V)).keys = t.entries.keys := by
      simp [List.keys]
    unfold List.NodupKeys
    rw [same]
    exact t.nodupKeys⟩

@[simp] theorem get_empty (k : K) : get (∅ : Table K V) k = none := AList.lookup_empty k

theorem get_put (t : Table K V) (k k' : K) (v : V) :
    (t.put k v).get k' = if k' = k then some v else t.get k' := by
  unfold get put
  by_cases same : k' = k
  · subst same; simp
  · rw [if_neg same,AList.lookup_insert_ne same]

@[simp] theorem get_put_same (t : Table K V) (k : K) (v : V) : (t.put k v).get k = some v := by
  simp [get_put]

theorem get_put_other (t : Table K V) (v : V) (apart : k' ≠ k) : (t.put k v).get k' = t.get k':= by simp [get_put,apart]

@[simp] theorem put_put_same (t : Table K V) (k : K) (v v' : V) : (t.put k v).put k v' = t.put k v' :=
  AList.insert_insert t

theorem size_put (t : Table K V) (k : K) (v : V) :
    (t.put k v).size = if (t.get k).isSome then t.size else t.size + 1 := by
  unfold size put get
  rw [AList.keys_insert,length_cons]
  by_cases known : k ∈ t
  · have some := length_pos_of_mem (AList.mem_keys.mp known)
    rw [if_pos (AList.lookup_isSome.mpr known),length_erase_of_mem (AList.mem_keys.mp known)]
    omega
  · rw [if_neg fun found => known (AList.lookup_isSome.mp found),
      erase_of_not_mem fun member => known (AList.mem_keys.mpr member)]

theorem get_delete (t : Table K V) (k k' : K) :
    (t.delete k).get k' = if k' = k then none else t.get k' := by
  unfold get delete
  by_cases same : k' = k
  · subst same; simp
  · rw [if_neg same,AList.lookup_erase_ne same]

theorem mem_list {rank : K → Nat} {t : Table K V} : v ∈ t.list rank ↔ ∃ k, t.get k = some v:= by
  unfold list get
  simp only [mem_map,mem_insertionSort]
  constructor
  · rintro ⟨⟨k,v'⟩,member,rfl⟩
    exact ⟨k,AList.mem_lookup_iff.mpr member⟩
  · rintro ⟨k,found⟩
    exact ⟨⟨k,v⟩,AList.mem_lookup_iff.mp found,rfl⟩

theorem get_mapRows (f : V → V) (t : Table K V) (k : K) :
    (t.mapRows f).get k = (t.get k).map f := by
  obtain ⟨entries,nodup⟩ := t
  unfold mapRows get AList.lookup
  induction entries with
  | nil => rfl
  | cons row rest ih =>
    obtain ⟨k',v⟩ := row
    have tail := ih (nodupKeys_cons.mp nodup).2
    by_cases same : k = k'
    · subst same; simp [dlookup_cons_eq]
    · simp only [map_cons] at tail ⊢
      rw [dlookup_cons_ne _ _ same,dlookup_cons_ne _ _ same]
      exact tail

end Table

end Neurobro
