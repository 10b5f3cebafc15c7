import Neurobro.Agent.OperationsConduct

/-! Effects over whole runs: what may overwrite a verified record, and that no effect is
dispatched twice. -/
namespace Neurobro.Agent

open Coop

variable {o : Options}

/-! ## Verified records -/

/-- Recovery does not write over a record that is verified by now. -/
def SparesVerified : Cmd → Instant o → Prop
  | .interrupt stored,c => ∀ e, c.state.store.effects.get stored.id = some e → e.state ≠ .verified
  | _,_ => True

theorem SparesVerified.quiet {id : EffectId} (spares : SparesVerified cmd c)
    (found : c.state.store.effects.get id = some e) (verified : e.state = .verified) : ¬cmd.interrupts id := by
  cases cmd with
  | interrupt stored =>
    rintro rfl
    exact spares e found verified
  | _ => exact fun no => no

/-- A verified record is final in every run whose recoveries spare it. -/
theorem verified_final {w w' : World (agent o)} (reachable : Reachable o w)
    (run : World.LeadsIf (body o) SparesVerified w w') {id : EffectId} {e : Effect}
    (found : w.core.state.store.effects.get id = some e) (verified : e.state = .verified) :
    w'.core.state.store.effects.get id = some e := by
  refine (reachable.changes run).keeps (A := fun c => c.state.store.effects.get id = some e) ?_ found
  intro c c' change stored
  cases change with
  | act i cmd _ _ spares =>
    obtain ⟨e',after,same⟩ := @exec_effect o _ cmd _ _ stored
    rw [← same verified (spares.quiet stored verified)]
    exact after
  | call | reply | crash => exact stored
  | shock x => cases x <;> exact stored

/-- An interruption leaves the record unknown, whatever it was. -/
theorem interrupt_overwrites (c : Instant o) (i : Nat) (stored : Effect) :
    ∃ e, (c.act i (.interrupt stored)).state.store.effects.get stored.id = some e ∧ e.state = .unknown :=
  ⟨_,Table.get_put_same _ _ _,rfl⟩

/-- Recovery has listed two dispatches; the second is verified while it waits for the first. -/
def overtaken : List (Choice (agent .plain) Op) :=
  [.invoke (.journalControlReply (spoken "7" "b" "") "b" none),.resume 1 capable,
    .invoke (.journalControlReply (spoken "7" "a" "") "a" none),.resume 2 (executed { state := .unknown }),
    .invoke .recoverEffects,.resume 0 (executed { state := .verified })]

/-- Then the listed row of the second is written back over its verified record. -/
theorem verified_not_final : ¬∀ (o : Options) (w w' : World (agent o)), Reachable o w →
    World.Leads (body o) w w' → ∀ id e, w.core.state.store.effects.get id = some e → e.state = .verified →
      ∃ e', w'.core.state.store.effects.get id = some e' ∧ e'.state = e.state ∧ e'.receipt = e.receipt := by
  intro final
  have played : (play overtaken boot).any fun w =>
      (w.core.state.effects .plain).any (·.state = .verified) &&
      (play [.resume 3 (executed { state := .unknown })] w).any fun w' =>
        (w'.core.state.effects .plain).all (·.state ≠ .verified) := by decide +kernel
  obtain ⟨w,reached,played⟩ := play_any played
  obtain ⟨before,played⟩ := Bool.and_eq_true_iff.mp played
  obtain ⟨w',run,after⟩ := play_any played
  obtain ⟨e,member,verified⟩ := List.any_eq_true.mp before
  obtain ⟨id,found⟩ := Table.mem_list.mp member
  have verified : e.state = .verified := by simpa using verified
  obtain ⟨e',found',same,_⟩ := final .plain w w' (boot_reachable.leads reached) run id e found verified
  have unverified := List.all_eq_true.mp after e' (Table.mem_list.mpr ⟨id,found'⟩)
  simp [same,verified] at unverified

/-- A crash spares it. -/
theorem verified_final_crash : ∃ (w w' : World (agent .plain)) (id : EffectId) (e : Effect),
    Reachable .plain w ∧ World.LeadsIf (body .plain) SparesVerified w w' ∧ w' ≠ w ∧ e.state = .verified ∧
      w'.core.state.store.effects.get id = some e := by
  have played : (play [.invoke (.journalControlReply (spoken "7" "b" "") "b" none),.resume 1 capable,
      .resume 0 (executed { state := .verified })] boot).any fun w =>
        (w.core.state.effects .plain).any (·.state = .verified) := by decide +kernel
  obtain ⟨w,reached,held⟩ := play_any played
  obtain ⟨e,member,verified⟩ := List.any_eq_true.mp held
  obtain ⟨id,found⟩ := Table.mem_list.mp member
  have verified : e.state = .verified := by simpa using verified
  have reachable := boot_reachable.leads reached
  have crashed : World.LeadsIf (body .plain) SparesVerified w
      { w with core := w.core.crash, stack := [], parked := [], finished := [] } :=
    .single ⟨.crash,rfl,fun no => nomatch no⟩
  refine ⟨w,_,id,e,reachable,crashed,fun same => ?_,verified,verified_final reachable crashed found verified⟩
  have longer := congrArg (fun w : World (agent .plain) => w.core.trace.length) same
  simp [Core.crash] at longer

/-! ## One dispatch for each operation -/

/-- However the calls interleave and wherever the process crashes. -/
theorem dispatched_at_most_once {w : World (agent o)} (reachable : Reachable o w) (id : EffectId) :
    w.core.AtMostOnce (dispatches id) := reachable.orderly.dispatchedOnce id

/-- The same reply is asked for again after a crash in mid-dispatch. -/
theorem dispatched_at_most_once_crash : ∃ (w : World (agent .plain)) (id : EffectId),
    w.core.Happened (dispatches id ·) ∧ .crash ∈ w.core.trace ∧ w.core.AtMostOnce (dispatches id) := by
  have played : (play [.invoke (.journalControlReply (spoken "7" "b" "") "b" none),.resume 1 capable,.crash,
      .invoke (.journalControlReply (spoken "7" "b" "") "b" none),.resume 3 capable,
      .resume 3 (executed { state := .unknown })] boot).any fun w =>
        w.parked.isEmpty && (w.core.state.effects .plain).any fun e => w.core.trace.any (dispatches e.id) &&
          w.core.trace.any fun event => match event with
            | .crash => true
            | _ => false := by decide +kernel
  obtain ⟨w,reached,held⟩ := play_any played
  obtain ⟨e,_,found⟩ := List.any_eq_true.mp (Bool.and_eq_true_iff.mp held).2
  obtain ⟨dispatched,crashed⟩ := Bool.and_eq_true_iff.mp found
  refine ⟨w,e.id,List.any_eq_true.mp dispatched,?_,dispatched_at_most_once (boot_reachable.leads reached) e.id⟩
  obtain ⟨event,member,crash⟩ := List.any_eq_true.mp crashed
  cases event <;> first | exact member | simp at crash

end Neurobro.Agent
