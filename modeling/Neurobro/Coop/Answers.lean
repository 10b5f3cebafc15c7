import Neurobro.Coop.Runs
import Neurobro.Coop.Histories

/-! Calls and their answers. A call is answered at most once: what has been answered
and what is still waited for never exceed what has been asked. -/
namespace Neurobro.Coop

open List

variable {S : Signature} {Op : Type}

/-- Calls of a kind. -/
def asks (p : S.Call → Bool) : Event S → Bool
  | .call _ q => p q
  | _ => false

/-- Answers to calls of a kind. -/
def tells (p : S.Call → Bool) : Event S → Bool
  | .reply _ q _ => p q
  | _ => false

namespace World

variable {p : S.Call → Bool} {w w' : World S} {body : Op → Proc S}

/-- Fibers parked on a call of a kind. -/
def awaits (p : S.Call → Bool) : Nat × Blocked S → Bool
  | (_,.call q _) => p q
  | _ => false

/-- Every answer given or outstanding has its call. -/
def Settled (p : S.Call → Bool) (w : World S) : Prop :=
  w.core.trace.countP (tells p) + w.parked.countP (awaits p) ≤ w.core.trace.countP (asks p)

theorem countP_remove (found : find i l = some a) : (remove i l).countP f + (if f (i,a) then 1 else 0) ≤ l.countP f:= by
  induction l with
  | nil => contradiction
  | cons head rest ih =>
    obtain ⟨j,b⟩ := head
    have fewer : (remove i rest).countP f ≤ rest.countP f := (filter_sublist).countP_le
    unfold find at found
    split at found
    · rename_i same
      subst same
      cases Option.some.inj found
      simp only [remove,bne_self_eq_false,Bool.false_eq_true,not_false_eq_true,filter_cons_of_neg,
        countP_cons] at fewer ⊢
      omega
    · rename_i apart
      have kept : remove i ((j,b) :: rest) = (j,b) :: remove i rest := by simp [remove,apart]
      have rest := ih found
      rw [kept,countP_cons,countP_cons]
      omega

theorem Settled.advance (settled : w.Settled p) (stepped : w.advance = some w') : w'.Settled p := by
  obtain ⟨c,stack,parked,finished,next⟩ := w
  cases stack with
  | nil => simp [World.advance] at stepped
  | cons head rest =>
    obtain ⟨i,proc⟩ := head
    unfold Settled at *
    cases proc with
    | act cmd more =>
      cases Option.some.inj stepped
      simpa [Core.act,countP_cons,tells,asks] using settled
    | wait q more =>
      cases Option.some.inj stepped
      simp only at settled
      cases asked : p q <;> simp [Core.call,tells,asks,awaits,asked] <;> omega
    | pause more | join target more =>
      cases Option.some.inj stepped
      simpa [countP_append,awaits] using settled
    | done r | look more | fork child more =>
      cases Option.some.inj stepped
      exact settled

theorem Settled.step (settled : w.Settled p) {choice : Choice S Op} (stepped : World.step body choice w = some w') :
    w'.Settled p := by
  cases choice with
  | run => exact settled.advance stepped
  | crash =>
    cases Option.some.inj stepped
    unfold Settled at *
    simp only [Core.crash,countP_cons,countP_nil,tells,asks,Bool.false_eq_true,if_false]
    omega
  | invoke op =>
    simp only [World.step] at stepped
    split at stepped
    · cases Option.some.inj stepped; exact settled
    · contradiction
  | shock change =>
    simp only [World.step] at stepped
    split at stepped
    · cases Option.some.inj stepped
      simpa [Settled,Core.shock,countP_cons,tells,asks] using settled
    · contradiction
  | resume i answer =>
    simp only [World.step] at stepped
    split at stepped
    · split at stepped
      · rename_i q next found
        obtain ⟨r,_,rfl⟩ := Option.map_eq_some_iff.mp stepped
        have fewer := countP_remove (f := awaits p) found
        unfold Settled at *
        cases asked : p q <;> simp [Core.reply,tells,asks,awaits,asked] at fewer ⊢ <;> omega
      · contradiction
    · contradiction
  | wake i =>
    have fewer : (remove i w.parked).countP (awaits p) ≤ w.parked.countP (awaits p) :=
      (filter_sublist).countP_le
    simp only [World.step] at stepped
    unfold Settled at *
    split at stepped
    · split at stepped
      · cases Option.some.inj stepped
        exact Nat.le_trans (Nat.add_le_add_left fewer _) settled
      · obtain ⟨r,_,rfl⟩ := Option.map_eq_some_iff.mp stepped
        exact Nat.le_trans (Nat.add_le_add_left fewer _) settled
      · contradiction
    · contradiction

theorem Settled.leads (settled : w.Settled p) (run : Leads body w w') : w'.Settled p := by
  induction run with
  | refl => exact settled
  | tail _ last ih =>
    obtain ⟨choice,stepped⟩ := last
    exact ih.step stepped

/-- No call is answered twice. -/
theorem Leads.answered {state : S.State} (run : Leads body (World.initial state) w) :
    w.core.trace.countP (tells p) ≤ w.core.trace.countP (asks p) := by
  have start : (World.initial state).Settled p := Nat.le_refl 0
  exact Nat.le_trans (Nat.le_add_right _ _) (start.leads run)

end World

/-- Two answers of a kind are two events of the history. -/
theorem Core.Followed.two {c : Core S}
    (followed : c.Followed (fun e => f e) q) {rest : List (Event S)} (top : c.trace = e :: rest)
    (tells : f e) (apart : ¬q e) : 2 ≤ c.trace.countP f := by
  obtain ⟨later,x,earlier,split,after,y,member,before⟩ := followed
  have inner : rest.countP f ≥ 1 := by
    refine countP_pos_iff.mpr ⟨y,?_,before⟩
    cases later with
    | nil =>
      obtain ⟨rfl,rfl⟩ := List.cons.inj (top.symm.trans split)
      exact (apart after).elim
    | cons z later =>
      obtain ⟨_,rfl⟩ := List.cons.inj (top.symm.trans split)
      simp [member]
  rw [top,countP_cons,if_pos tells]
  omega

end Neurobro.Coop
