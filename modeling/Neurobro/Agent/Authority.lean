import Neurobro.Agent.Operations
import Neurobro.Data.Ledger

/-! The authority part of the store: intentions, grants, controls and public reply
deadlines. Every command acts on it by one of eight steps, which keep it well formed
and only ever advance the ledger of grants. -/
namespace Neurobro.Agent

structure Authority where
  tasks : Table TaskId TaskIntent
  grants : Table GrantId Grant
  controls : Table TaskId Control
  deadlines : Table TaskId OriginDeadline
  fresh : Nat

def State.authority (s : State) : Authority :=
  ⟨s.store.tasks,s.store.grants,s.store.controls,s.store.originDeadlines,s.fresh⟩

/-- A later form of one grant. -/
structure Grant.Amends (grant next : Grant) : Prop where
  id : next.id = grant.id
  revision : grant.revision ≤ next.revision
  revoked : grant.revokedAt.isSome → next.revokedAt.isSome

namespace Authority

variable {o : Options} {a a' : Authority}

def Current (a : Authority) (T : TaskId) (intent : TaskIntent) (grant : Grant) : Prop :=
  a.tasks.get T = some intent ∧ a.grants.get intent.grantId = some grant

/-- A public route always has a reply deadline for its own chat. -/
inductive Reroutes (o : Options) (T : TaskId) (deadlines : Table TaskId OriginDeadline) (route : Route) :
    Route → Table TaskId OriginDeadline → Prop where
  | same : Reroutes o T deadlines route route deadlines
  | toPrivate {next : Route} (peer : next.peerId = o.privateRoute.peerId) :
      Reroutes o T deadlines route next deadlines
  | toPublic {next : Route} {deadline : OriginDeadline} (peer : deadline.peerId = some next.peerId) :
      Reroutes o T deadlines route next (deadlines.put T deadline)

inductive Step (o : Options) (a : Authority) : Authority → Prop where
  | keep : Step o a a
  | draw (n : Nat) : Step o a { a with fresh := a.fresh + n }
  | amend {T : TaskId} {intent : TaskIntent} {grant next : Grant} (current : a.Current T intent grant)
      (amends : grant.Amends next) : Step o a { a with grants := a.grants.put grant.id next }
  | stop {T : TaskId} {intent : TaskIntent} {grant next : Grant} {control : Control}
      (current : a.Current T intent grant) (amends : grant.Amends next) (revoked : next.revokedAt.isSome) :
      Step o a { a with grants := a.grants.put grant.id next, controls := a.controls.put T control }
  | release (T : TaskId) : Step o a { a with controls := a.controls.delete T }
  | correct {T : TaskId} {intent revised : TaskIntent} {grant next granted : Grant} {control : Control}
      {deadlines : Table TaskId OriginDeadline}
      (current : a.Current T intent grant) (amends : grant.Amends next) (revoked : next.revokedAt.isSome)
      (id : revised.id = intent.id) (revision : revised.revision = intent.revision + 1)
      (named : revised.grantId = a.fresh) (grantId : granted.id = a.fresh)
      (routed : Reroutes o T a.deadlines intent.route revised.route deadlines)
      (held : control.cancelledAt = none) :
      Step o a
        { tasks := a.tasks.put T revised
          grants := (a.grants.put grant.id next).put a.fresh granted
          controls := a.controls.put T control
          deadlines
          fresh := a.fresh + 1 }
  | resume {T : TaskId} {intent : TaskIntent} {granted : Grant} (task : a.tasks.get T = some intent)
      (grantId : granted.id = a.fresh) :
      Step o a
        { a with
          tasks := a.tasks.put T { intent with grantId := a.fresh }
          grants := a.grants.put a.fresh granted
          controls := a.controls.delete T
          fresh := a.fresh + 1 }
  | create {T : TaskId} {intent : TaskIntent} {granted : Grant} {n : Nat}
      {deadlines : Table TaskId OriginDeadline}
      (new : a.tasks.get T = none) (id : intent.id = T) (revision : intent.revision = 1)
      (named : ∀ m, T = .uuid m → m < a.fresh + n) (later : a.fresh ≤ granted.id)
      (bound : granted.id < a.fresh + n) (grantId : intent.grantId = granted.id)
      (routed : Reroutes o T a.deadlines o.privateRoute intent.route deadlines) :
      Step o a
        { a with
          tasks := a.tasks.put T intent
          grants := a.grants.put granted.id granted
          deadlines
          fresh := a.fresh + n }

structure Valid (o : Options) (a : Authority) : Prop where
  task : ∀ T intent, a.tasks.get T = some intent → intent.id = T ∧ 1 ≤ intent.revision
  granted : ∀ T intent, a.tasks.get T = some intent → ∃ grant, a.grants.get intent.grantId = some grant
  named : ∀ n intent, a.tasks.get (.uuid n) = some intent → n < a.fresh
  grant : ∀ g grant, a.grants.get g = some grant → grant.id = g ∧ g < a.fresh
  control : ∀ T k, a.controls.get T = some k → ∃ intent, a.tasks.get T = some intent
  cancelled : ∀ T k intent grant, a.controls.get T = some k → k.cancelledAt.isSome →
    a.Current T intent grant → grant.revokedAt.isSome
  route : ∀ T intent, a.tasks.get T = some intent → intent.route.peerId ≠ o.privateRoute.peerId →
    ∃ d, a.deadlines.get T = some d ∧ d.peerId = some intent.route.peerId

theorem empty_valid (o : Options) : Valid o ⟨∅,∅,∅,∅,0⟩ := by
  constructor <;> simp

/-- Deadlines of other tasks stay, and a public route has its own. -/
theorem Reroutes.deadline {deadlines deadlines' : Table TaskId OriginDeadline}
    {route route' : Route} (routed : Reroutes o T deadlines route route' deadlines')
    (before : route.peerId ≠ o.privateRoute.peerId →
      ∃ d, deadlines.get T = some d ∧ d.peerId = some route.peerId) :
    (route'.peerId ≠ o.privateRoute.peerId →
      ∃ d, deadlines'.get T = some d ∧ d.peerId = some route'.peerId) ∧
    ∀ T', T' ≠ T → deadlines'.get T' = deadlines.get T' := by
  cases routed with
  | same => exact ⟨before,fun _ _ => rfl⟩
  | toPrivate peer => exact ⟨fun public' => (public' peer).elim,fun _ _ => rfl⟩
  | toPublic peer => exact ⟨fun _ => ⟨_,by simp,peer⟩,fun T' other => by simp [Table.get_put,other]⟩

def ledger (a : Authority) : Ledger TaskId GrantId where
  current T := (a.tasks.get T).map (·.grantId)
  revision g := (a.grants.get g).map (·.revision)
  revoked g := ∃ grant, a.grants.get g = some grant ∧ grant.revokedAt.isSome
  used g := g < a.fresh

end Authority

theorem Grant.Amends.refl (grant : Grant) : grant.Amends grant := ⟨rfl,Nat.le_refl _,fun revoked => revoked⟩

namespace Authority

variable {o : Options} {a a' : Authority}

theorem Valid.grantId (valid : a.Valid o) {grant : Grant}
    (current : a.Current T intent grant) : grant.id = intent.grantId ∧ grant.id < a.fresh := by
  have keyed := valid.grant _ _ current.2
  exact ⟨keyed.1,keyed.1 ▸ keyed.2⟩

theorem get_amended {grant next : Grant} (valid : a.Valid o)
    (current : a.Current T intent grant) (amends : grant.Amends next) {stored : Grant}
    (found : a.grants.get g = some stored) :
    ∃ stored', (a.grants.put grant.id next).get g = some stored' ∧ stored.Amends stored' := by
  rw [Table.get_put]
  by_cases same : g = grant.id
  · have keyed := (valid.grantId current).1
    have : stored = grant := Option.some.inj (found.symm.trans (same ▸ keyed ▸ current.2))
    exact ⟨next,if_pos same,this ▸ amends⟩
  · exact ⟨stored,by rw [if_neg same,found],.refl stored⟩

/-- Every grant stays on record, in its present form or a later one. -/
theorem Step.amended (valid : a.Valid o) (step : Step o a a') {grant : Grant}
    (found : a.grants.get g = some grant) : ∃ grant', a'.grants.get g = some grant' ∧ grant.Amends grant' := by
  have kept : a.grants.get g = some grant ∧ grant.Amends grant := ⟨found,.refl grant⟩
  have old : g < a.fresh := (valid.grant g grant found).2
  cases step with
  | keep | draw | release => exact ⟨grant,kept⟩
  | amend current amends => exact get_amended valid current amends found
  | stop current amends => exact get_amended valid current amends found
  | correct current amends =>
    obtain ⟨grant',amended,later⟩ := get_amended valid current amends found
    exact ⟨grant',by rw [Table.get_put_other _ _ (Nat.ne_of_lt old)]; exact amended,later⟩
  | resume => exact ⟨grant,by rw [Table.get_put_other _ _ (Nat.ne_of_lt old)]; exact found,kept.2⟩
  | create _ _ _ _ later =>
    exact ⟨grant,by rw [Table.get_put_other _ _ (Nat.ne_of_lt (old.trans_le later))]; exact found,kept.2⟩

/-- A task keeps its grant or gets a new one, and its revision never falls. -/
theorem Step.task (step : Step o a a')
    (found : a.tasks.get T = some intent) : ∃ intent', a'.tasks.get T = some intent' ∧
      intent.revision ≤ intent'.revision ∧ (intent'.grantId = intent.grantId ∨ intent'.grantId = a.fresh) := by
  have kept : intent.revision ≤ intent.revision ∧
    (intent.grantId = intent.grantId ∨ intent.grantId = a.fresh) := ⟨Nat.le_refl _,.inl rfl⟩
  cases step with
  | keep | draw | release | amend | stop => exact ⟨intent,found,kept⟩
  | @correct T' actual revised _ _ _ _ _ current _ _ _ revision named =>
    by_cases same : T = T'
    · subst same
      cases Option.some.inj (found.symm.trans current.1)
      exact ⟨revised,by simp,by omega,.inr named⟩
    · exact ⟨intent,by simpa [Table.get_put,same] using found,kept⟩
  | @resume T' actual _ task =>
    by_cases same : T = T'
    · subst same
      cases Option.some.inj (found.symm.trans task)
      exact ⟨_,Table.get_put_same _ _ _,Nat.le_refl _,.inr rfl⟩
    · exact ⟨intent,by simpa [Table.get_put,same] using found,kept⟩
  | @create T' _ _ _ _ new =>
    have other : T ≠ T' := by rintro rfl; simp [new] at found
    exact ⟨intent,by simpa [Table.get_put,other] using found,kept⟩

theorem Step.fresh (step : Step o a a') : a.fresh ≤ a'.fresh := by
  cases step <;> simp

theorem Step.advance (valid : a.Valid o) (step : Step o a a') : a.ledger.Advance a'.ledger where
  used _ old := Nat.lt_of_lt_of_le old step.fresh
  current T g held := by
    obtain ⟨intent,found,rfl⟩ := Option.map_eq_some_iff.mp held
    obtain ⟨intent',found',_,same | fresh⟩ := step.task found
    · exact ⟨intent'.grantId,by simp [ledger,found'],.inl same⟩
    · exact ⟨intent'.grantId,by simp [ledger,found'],.inr (by simp [ledger,fresh])⟩
  revision g n known := by
    obtain ⟨grant,found,rfl⟩ := Option.map_eq_some_iff.mp known
    obtain ⟨grant',found',amends⟩ := step.amended valid found
    exact ⟨grant'.revision,by simp [ledger,found'],amends.revision⟩
  revoked g := by
    rintro ⟨grant,found,revoked⟩
    obtain ⟨grant',found',amends⟩ := step.amended valid found
    exact ⟨grant',found',amends.revoked revoked⟩

/-- Where each grant of the next store comes from. -/
theorem Step.granted (valid : a.Valid o) (step : Step o a a') {g : GrantId} {grant : Grant}
    (found : a'.grants.get g = some grant) : grant.id = g ∧ g < a'.fresh := by
  have old : ∀ {g grant}, a.grants.get g = some grant → grant.id = g ∧ g < a'.fresh := fun stored =>
    ⟨(valid.grant _ _ stored).1,Nat.lt_of_lt_of_le (valid.grant _ _ stored).2 step.fresh⟩
  have amended : ∀ {T intent current next}, a.Current T intent current → current.Amends next →
      ∀ {g grant}, (a.grants.put current.id next).get g = some grant → grant.id = g ∧ g < a'.fresh := by
    intro T intent current next held amends g grant stored
    rw [Table.get_put] at stored
    split at stored
    · rename_i same
      cases Option.some.inj stored
      exact ⟨amends.id.trans same.symm,
        Nat.lt_of_lt_of_le (same ▸ (valid.grantId held).2) step.fresh⟩
    · exact old stored
  cases step with
  | keep | draw | release => exact old found
  | amend current amends => exact amended current amends found
  | stop current amends => exact amended current amends found
  | correct current amends _ _ _ _ grantId =>
    rw [Table.get_put] at found
    split at found
    · rename_i same
      cases Option.some.inj found
      exact ⟨grantId.trans same.symm,same ▸ Nat.lt_succ_self _⟩
    · exact amended current amends found
  | resume _ grantId =>
    rw [Table.get_put] at found
    split at found
    · rename_i same
      cases Option.some.inj found
      exact ⟨grantId.trans same.symm,same ▸ Nat.lt_succ_self _⟩
    · exact old found
  | create _ _ _ _ _ bound =>
    rw [Table.get_put] at found
    split at found
    · rename_i same
      cases Option.some.inj found
      exact ⟨same.symm,same ▸ bound⟩
    · exact old found

/-- The grant of a kept intention stays on record, and stays revoked. -/
theorem Step.current (valid : a.Valid o) (step : Step o a a') {T : TaskId} {intent : TaskIntent}
    (found : a.tasks.get T = some intent) : ∃ grant grant', a.Current T intent grant ∧
      a'.grants.get intent.grantId = some grant' ∧ grant.Amends grant' := by
  obtain ⟨grant,stored⟩ := valid.granted T intent found
  obtain ⟨grant',stored',amends⟩ := step.amended valid stored
  exact ⟨grant,grant',⟨found,stored⟩,stored',amends⟩

theorem Step.valid (valid : a.Valid o) (step : Step o a a') : a'.Valid o where
  grant _ _ found := step.granted valid found
  task T intent found := by
    cases step with
    | keep | draw | release | amend | stop => exact valid.task T intent found
    | correct current _ _ id revision =>
      rw [Table.get_put] at found
      split at found
      · rename_i same
        cases Option.some.inj found
        exact ⟨by rw [id,same,(valid.task _ _ current.1).1],by omega⟩
      · exact valid.task T intent found
    | resume task =>
      rw [Table.get_put] at found
      split at found
      · rename_i same
        cases Option.some.inj found
        have known := valid.task _ _ task
        exact ⟨known.1.trans same.symm,known.2⟩
      · exact valid.task T intent found
    | create _ id revision =>
      rw [Table.get_put] at found
      split at found
      · rename_i same
        cases Option.some.inj found
        exact ⟨by rw [id,same],by omega⟩
      · exact valid.task T intent found
  granted T intent found := by
    have kept : a.tasks.get T = some intent → ∃ grant, a'.grants.get intent.grantId = some grant :=
      fun old => by obtain ⟨_,grant',_,stored,_⟩ := step.current valid old; exact ⟨grant',stored⟩
    cases step with
    | keep | draw | release | amend | stop => exact kept found
    | correct _ _ _ _ _ named =>
      rw [Table.get_put] at found
      split at found
      · cases Option.some.inj found
        exact ⟨_,by rw [named]; exact Table.get_put_same _ _ _⟩
      · exact kept found
    | resume =>
      rw [Table.get_put] at found
      split at found
      · cases Option.some.inj found
        exact ⟨_,Table.get_put_same _ _ _⟩
      · exact kept found
    | create _ _ _ _ _ _ grantId =>
      rw [Table.get_put] at found
      split at found
      · cases Option.some.inj found
        exact ⟨_,by rw [grantId]; exact Table.get_put_same _ _ _⟩
      · exact kept found
  named n intent found := by
    have old : ∀ {intent}, a.tasks.get (.uuid n) = some intent → n < a'.fresh :=
      fun stored => Nat.lt_of_lt_of_le (valid.named n _ stored) step.fresh
    cases step with
    | keep | draw | release | amend | stop => exact old found
    | correct current =>
      rw [Table.get_put] at found
      split at found
      · rename_i same
        exact old (same ▸ current.1)
      · exact old found
    | resume task =>
      rw [Table.get_put] at found
      split at found
      · rename_i same
        exact old (same ▸ task)
      · exact old found
    | create _ _ _ named =>
      rw [Table.get_put] at found
      split at found
      · rename_i same
        exact named n same.symm
      · exact old found
  control T k found := by
    have kept : a.controls.get T = some k → ∃ intent, a'.tasks.get T = some intent := fun old => by
      obtain ⟨intent,task⟩ := valid.control T k old
      obtain ⟨intent',task',_⟩ := step.task task
      exact ⟨intent',task'⟩
    cases step with
    | keep | draw | amend | create => exact kept found
    | stop current =>
      rw [Table.get_put] at found
      split at found
      · rename_i same
        exact ⟨_,same ▸ current.1⟩
      · exact kept found
    | correct =>
      rw [Table.get_put] at found
      split at found
      · rename_i same
        exact ⟨_,by rw [same]; exact Table.get_put_same _ _ _⟩
      · exact kept found
    | release | resume =>
      rw [Table.get_delete] at found
      split at found
      · contradiction
      · exact kept found
  cancelled T k intent grant found cancelled current := by
    have kept : a.controls.get T = some k → a.tasks.get T = some intent → grant.revokedAt.isSome := by
      intro old task
      obtain ⟨before,after,held,stored,amends⟩ := step.current valid task
      have : after = grant := Option.some.inj (stored.symm.trans current.2)
      exact this ▸ amends.revoked (valid.cancelled T k intent before old cancelled held)
    cases step with
    | keep | draw | amend => exact kept found current.1
    | @stop T' actual revoked next _ held _ gone =>
      rw [Table.get_put] at found
      split at found
      · rename_i same
        have task : intent = actual := Option.some.inj (current.1.symm.trans (same ▸ held.1))
        have stored := current.2
        rw [task,← (valid.grantId held).1,Table.get_put_same] at stored
        cases Option.some.inj stored
        exact gone
      · exact kept found current.1
    | correct _ _ _ _ _ _ _ _ open' =>
      rw [Table.get_put] at found
      split at found
      · cases Option.some.inj found
        simp [open'] at cancelled
      · rename_i other
        exact kept found (by simpa [Table.get_put,other] using current.1)
    | release =>
      rw [Table.get_delete] at found
      split at found
      · contradiction
      · exact kept found current.1
    | resume =>
      rw [Table.get_delete] at found
      split at found
      · contradiction
      · rename_i other
        exact kept found (by simpa [Table.get_put,other] using current.1)
    | @create T' _ _ _ _ new =>
      obtain ⟨old,task⟩ := valid.control T k found
      have other : T ≠ T' := by rintro rfl; simp [new] at task
      exact kept found (by simpa [Table.get_put,other] using current.1)
  route T intent found := by
    cases step with
    | keep | draw | release | amend | stop => exact valid.route T intent found
    | correct current _ _ _ _ _ _ routed =>
      have known := routed.deadline (valid.route _ _ current.1)
      rw [Table.get_put] at found
      split at found
      · rename_i same
        cases Option.some.inj found
        exact same ▸ known.1
      · rename_i other
        rw [known.2 T other]
        exact valid.route T intent found
    | resume task =>
      rw [Table.get_put] at found
      split at found
      · rename_i same
        cases Option.some.inj found
        have known := valid.route _ _ task
        exact same ▸ known
      · exact valid.route T intent found
    | create _ _ _ _ _ _ _ routed =>
      have known := routed.deadline fun public' => (public' rfl).elim
      rw [Table.get_put] at found
      split at found
      · rename_i same
        cases Option.some.inj found
        exact same ▸ known.1
      · rename_i other
        rw [known.2 T other]
        exact valid.route T intent found

end Authority

end Neurobro.Agent
