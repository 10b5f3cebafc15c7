import Mathlib.Data.List.Forall2
import Neurobro.Data.Results

/-! Two lists related row by row: what was found in one has its counterpart in the other. -/
namespace Neurobro

theorem forall₂_self {α : Type} {R : α → α → Prop} (self : ∀ x, R x x) (l : List α) : List.Forall₂ R l l := by
  induction l with
  | nil => exact .nil
  | cons x rest ih => exact .cons (self x) ih

theorem forall₂_set {α : Type} {R : α → α → Prop} (self : ∀ x, R x x) {l : List α} {i : Nat} {b : α}
    (h : ∀ a, l[i]? = some a → R a b) : List.Forall₂ R l (l.set i b) := by
  induction l generalizing i with
  | nil => exact .nil
  | cons x rest ih =>
    cases i with
    | zero => exact .cons (h x rfl) (forall₂_self self rest)
    | succ i => exact .cons (self x) (ih fun a found => h a (by simpa using found))

theorem forall₂_mapM {α β ε : Type} {R : α → β → Prop} {f : α → Except ε β} {l : List α} {l' : List β}
    (h : l.mapM f = .ok l') (each : ∀ a b, f a = .ok b → R a b) : List.Forall₂ R l l' := by
  induction l generalizing l' with
  | nil =>
    rw [List.mapM_nil] at h
    cases Except.ok.inj h
    exact .nil
  | cons a rest ih =>
    rw [List.mapM_cons] at h
    obtain ⟨b,first,h⟩ := bind_ok h
    obtain ⟨others,next,h⟩ := bind_ok h
    cases Except.ok.inj h
    exact .cons (each a b first) (ih next)

theorem forall₂_getElem {α β : Type} {R : α → β → Prop} {l : List α} {l' : List β} (h : List.Forall₂ R l l') {i : Nat}
    {a : α} (found : l[i]? = some a) : ∃ b, l'[i]? = some b ∧ R a b := by
  induction h generalizing i with
  | nil => simp at found
  | @cons x y _ _ first _ ih =>
    cases i with
    | zero =>
      cases Option.some.inj found
      exact ⟨y,rfl,first⟩
    | succ i => exact ih (by simpa using found)

theorem forall₂_find {α : Type} {R : α → α → Prop} {p : α → Bool} (same : ∀ a b, R a b → p b = p a) {l l' : List α}
    (h : List.Forall₂ R l l') {a : α} (found : l.find? p = some a) : ∃ b, l'.find? p = some b ∧ R a b := by
  induction h with
  | nil => contradiction
  | @cons x y _ _ first _ ih =>
    by_cases holds : p x = true
    · have also_ : p y = true := by rw [same x y first,holds]
      rw [List.find?_cons_of_pos holds] at found
      cases Option.some.inj found
      exact ⟨y,List.find?_cons_of_pos also_,first⟩
    · rw [List.find?_cons_of_neg holds] at found
      obtain ⟨b,found',r⟩ := ih found
      exact ⟨b,by rw [List.find?_cons_of_neg (by rw [same x y first]; exact holds),found'],r⟩

theorem forall₂_mem {α β : Type} {R : α → β → Prop} {l : List α} {l' : List β} (h : List.Forall₂ R l l') {b : β}
    (member : b ∈ l') : ∃ a ∈ l, R a b := by
  induction h with
  | nil => cases member
  | @cons x y _ _ first _ ih =>
    rcases List.mem_cons.mp member with rfl | later
    · exact ⟨x,List.mem_cons_self,first⟩
    · obtain ⟨a,there,r⟩ := ih later
      exact ⟨a,List.mem_cons_of_mem _ there,r⟩

theorem forall₂_trans {α β γ : Type} {R : α → β → Prop} {R' : β → γ → Prop} {T : α → γ → Prop}
    (chain : ∀ a b c, R a b → R' b c → T a c) {l : List α} {l' : List β} {l'' : List γ} (first : List.Forall₂ R l l')
    (second : List.Forall₂ R' l' l'') : List.Forall₂ T l l'' := by
  induction first generalizing l'' with
  | nil =>
    cases second
    exact .nil
  | cons r _ ih =>
    cases second with
    | cons r' rest => exact .cons (chain _ _ _ r r') (ih rest)

theorem forall₂_map_eq {α β γ : Type} {R : α → β → Prop} {f : α → γ} {g : β → γ} {l : List α} {l' : List β}
    (h : List.Forall₂ R l l') (same : ∀ a b, R a b → f a = g b) : l.map f = l'.map g := by
  induction h with
  | nil => rfl
  | cons first _ ih => rw [List.map_cons,List.map_cons,same _ _ first,ih]

end Neurobro
