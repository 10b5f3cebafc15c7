import Mathlib.Data.List.Perm.Subperm

/-! Instants on a line, counted in windows of a fixed length and kept apart from each other. -/
namespace Neurobro.Windows

open List

/-- The instants of the window that ends here. -/
def inWindow (length last : Int) (ts : List Int) : Nat := ts.countP fun t => decide (last - length < t ∧ t ≤ last)

/-- No window of this length holds more than so many. -/
def Within (length : Int) (most : Nat) (ts : List Int) : Prop := ∀ last, inWindow length last ts ≤ most

/-- Any two are at least this far apart. -/
def Spaced (gap : Int) (ts : List Int) : Prop := ts.Pairwise fun a b => a + gap ≤ b ∨ b + gap ≤ a

section Laws
variable {length gap last t : Int} {most : Nat} {ts us : List Int}

@[simp] theorem inWindow_append (a b : List Int) : inWindow length last (a ++ b) = inWindow length last a + inWindow length last b :=
  countP_append

@[simp] theorem within_nil : Within length most [] := fun _ => Nat.zero_le _

theorem Within.subperm (held : Within length most ts) (sub : us.Subperm ts) : Within length most us := fun last =>
  Nat.le_trans (sub.countP_le _) (held last)

theorem Spaced.subperm (held : Spaced gap ts) (sub : us.Subperm ts) : Spaced gap us := by
  obtain ⟨vs,perm,sub⟩ := sub
  have symm : ∀ {a b : Int}, (a + gap ≤ b ∨ b + gap ≤ a) → (b + gap ≤ a ∨ a + gap ≤ b) := fun either => either.symm
  exact (perm.pairwise_iff symm).mp (List.Pairwise.sublist sub held)

/-- One more instant, after all the others, where the window up to it has room. -/
theorem Within.push (held : Within length most ts) (room : ∀ last, t ≤ last → last - length < t → inWindow length last ts < most) :
    Within length most (ts ++ [t]) := by
  intro last
  rw [inWindow_append]
  by_cases inside : last - length < t ∧ t ≤ last
  · have one : inWindow length last [t] = 1 := by simp [inWindow,inside]
    have free := room last inside.2 inside.1
    omega
  · have none_ : inWindow length last [t] = 0 := by
      simp only [inWindow,countP_singleton]
      rw [if_neg (by simpa using inside)]
    have old := held last
    omega

theorem Spaced.push (held : Spaced gap ts) (after : ∀ s ∈ ts, s + gap ≤ t) : Spaced gap (ts ++ [t]) := by
  unfold Spaced
  rw [pairwise_append]
  exact ⟨held,pairwise_singleton _ _,fun a member b last => .inl (by rw [mem_singleton.mp last]; exact after a member)⟩

/-- A fixed delay moves the windows and keeps the distances. -/
theorem Within.delay (held : Within length most ts) (by_ : Int) : Within length most (ts.map (· + by_)) := by
  intro last
  have shifted : inWindow length last (ts.map (· + by_)) = inWindow length (last - by_) ts := by
    simp only [inWindow,countP_map]
    apply countP_congr
    intro t _
    simp only [Function.comp_apply,decide_eq_true_eq]
    omega
  rw [shifted]
  exact held _

theorem Spaced.delay (held : Spaced gap ts) (by_ : Int) : Spaced gap (ts.map (· + by_)) := by
  unfold Spaced
  rw [pairwise_map]
  exact held.imp fun either => by omega

/-- Distinct positions of a list bring no more than the list has. -/
theorem positions_subperm {is : List Nat} (distinct : is.Nodup) (inside : ∀ i ∈ is, i < ts.length) :
    (is.map fun i => ts.getD i 0).Subperm ts := by
  have range : is.Subperm (List.range ts.length) :=
    subperm_of_subset distinct fun i member => mem_range.mpr (inside i member)
  have all : (List.range ts.length).map (fun i => ts.getD i 0) = ts := by
    apply ext_getElem
    · simp
    · intro i _ bound
      simp [bound]
  obtain ⟨js,perm,sub⟩ := range
  have mapped := sub.map fun i => ts.getD i 0
  rw [all] at mapped
  exact ⟨_,perm.map _,mapped⟩

end Laws

end Neurobro.Windows
