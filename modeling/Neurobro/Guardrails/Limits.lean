import Neurobro.Coop.Runs
import Neurobro.Data.Windows
import Neurobro.Guardrails.Executor

/-! The limits on what is issued: they hold in every run in which no other call comes between the
check of a call and its stamp, and none in which one does are they safe. -/
namespace Neurobro.Guardrails

open Coop Windows World List

section Checks
variable {limits : LimitConfig} {seen : Seen} {s : State} {object : Nat}

/-- The call was let through by every limit. -/
def Cleared (limits : LimitConfig) (seen : Seen) : Prop := ∀ w ∈ windows limits, (seen.inWindow w.1).length < w.2

theorem admission_ok (admitted : admission limits object s = .ok seen) :
    Cleared limits seen ∧ seen = ⟨object,(s.object object).requestTimestamps,(s.object object).lastRequestAt,s.now⟩ := by
  simp only [admission] at admitted
  split at admitted
  · cases admitted
  · cases admitted
  · split at admitted
    · cases admitted
    · rename_i clear
      cases admitted
      refine ⟨fun w member => ?_,rfl⟩
      have free := List.find?_eq_none.mp clear w member
      simpa using free

theorem windows_day (member : w ∈ windows limits) : w.1 ≤ dayMs := by
  simp only [windows,mem_cons,not_mem_nil,or_false] at member
  obtain rfl | rfl | rfl := member <;> simp [dayMs]

/-- What is stamped knows of the last request. -/
def Seen.Waited (limits : LimitConfig) (seen : Seen) (now : Int) : Prop := seen.at_ ≤ now ∧ seen.at_ + seen.waitMs limits ≤ now

theorem waited_last {now last : Int} (waited : seen.Waited limits now) (is_ : seen.last = some (some last)) :
    last + limits.minRequestIntervalMs ≤ now := by
  have due := waited.2
  simp only [Seen.waitMs,is_,Option.join_some,Option.map_some,Option.getD_some] at due
  omega

end Checks

/-! What the calls keep to. -/

section Rules
variable {limits : LimitConfig} {c c' : Core (executor limits)} {i j k : Nat}

/-- The stamp of this number is of this call. -/
def Owns (c : Core (executor limits)) (i k : Nat) : Prop := ∃ seen, Event.act (S := executor limits) i (.stamp seen) k ∈ c.trace

def issuedNumbers (c : Core (executor limits)) : List Nat := c.state.issued.map Prod.fst

def discipline (limits : LimitConfig) : Rules (executor limits) where
  inv c := (∀ i k, Owns c i k → k < c.state.stamps.length) ∧ (∀ i j k, Owns c i k → Owns c j k → i = j) ∧
    ∀ k ∈ issuedNumbers c, k < c.state.stamps.length
  mayAct i cmd c :=
    match cmd with
    | .stamp seen => Cleared limits seen ∧ seen.Waited limits c.state.now
    | .issue k => Owns c i k ∧ k ∉ issuedNumbers c
    | _ => True
  mayCall _ _ _ := True

theorem owns_cons {state : State} :
    Owns (⟨state,e :: c.trace⟩ : Core (executor limits)) i k ↔ (∃ seen, e = .act i (.stamp seen) k) ∨ Owns c i k := by
  unfold Owns
  constructor
  · rintro ⟨seen,member⟩
    obtain same | old := mem_cons.mp member
    · exact .inl ⟨seen,same.symm⟩
    · exact .inr ⟨seen,old⟩
  · rintro (⟨seen,rfl⟩ | ⟨seen,old⟩)
    · exact ⟨seen,mem_cons_self⟩
    · exact ⟨seen,mem_cons_of_mem _ old⟩

/-- Anything but a stamp leaves the stamps and their owners as they are. -/
theorem owns_same {state : State} (other : ∀ i seen k, e ≠ .act i (.stamp seen) k) :
    Owns (⟨state,e :: c.trace⟩ : Core (executor limits)) i k ↔ Owns c i k := by
  rw [owns_cons]
  exact or_iff_right fun ⟨seen,is_⟩ => other i seen k is_

theorem inv_same {state : State} (other : ∀ i seen k, e ≠ .act i (.stamp seen) k)
    (same : state.stamps = c.state.stamps) (issued : ∀ k ∈ state.issued.map Prod.fst, k ∈ issuedNumbers c ∨ k < c.state.stamps.length)
    (inv : (discipline limits).inv c) : (discipline limits).inv (⟨state,e :: c.trace⟩ : Core (executor limits)) := by
  refine ⟨fun i k owned => ?_,fun i j k first second => ?_,fun k member => ?_⟩
  · rw [owns_same other] at owned
    rw [same]
    exact inv.1 i k owned
  · rw [owns_same other] at first second
    exact inv.2.1 i j k first second
  · rw [same]
    exact (issued k member).elim (inv.2.2 k) id

theorem exec_stamps (cmd : Cmd) (other : ∀ seen, cmd ≠ .stamp seen) (s : State) : (exec limits cmd s).2.stamps = s.stamps := by
  cases cmd with
  | stamp seen => exact absurd rfl (other seen)
  | adopt content => rfl
  | wake until_ => rfl
  | issue ticket => rfl
  | succeed object =>
    simp only [exec]
    split <;> rfl
  | flood object seconds => rfl
  | fail object => rfl

theorem exec_issued (cmd : Cmd) (other : ∀ k, cmd ≠ .issue k) (s : State) : (exec limits cmd s).2.issued = s.issued := by
  cases cmd with
  | issue k => exact absurd rfl (other k)
  | adopt content => rfl
  | wake until_ => rfl
  | stamp seen => rfl
  | succeed object =>
    simp only [exec]
    split <;> rfl
  | flood object seconds => rfl
  | fail object => rfl

theorem act_inv (inv : (discipline limits).inv c) (may : (discipline limits).mayAct i cmd c) :
    (discipline limits).inv (c.act i cmd) := by
  by_cases stamps : ∃ seen, cmd = .stamp seen
  · obtain ⟨seen,rfl⟩ := stamps
    have length : (c.act i (Cmd.stamp seen)).state.stamps.length = c.state.stamps.length + 1 := by
      simp [Core.act,executor,exec]
    have owner : ∀ j k, Owns (c.act i (Cmd.stamp seen)) j k → (j = i ∧ k = c.state.stamps.length) ∨ Owns c j k := by
      intro j k owned
      obtain ⟨seen',is_⟩ | old := owns_cons.mp owned
      · cases is_
        exact .inl ⟨rfl,rfl⟩
      · exact .inr old
    refine ⟨fun j k owned => ?_,fun j j' k first second => ?_,fun k member => ?_⟩
    · rw [length]
      obtain ⟨_,rfl⟩ | old := owner j k owned
      · omega
      · have known := inv.1 j k old
        omega
    · obtain ⟨rfl,rfl⟩ | old := owner j k first
      · obtain ⟨rfl,_⟩ | old' := owner j' _ second
        · rfl
        · exact absurd (inv.1 j' _ old') (Nat.lt_irrefl _)
      · obtain ⟨rfl,rfl⟩ | old' := owner j' k second
        · exact absurd (inv.1 j _ old) (Nat.lt_irrefl _)
        · exact inv.2.1 j j' k old old'
    · rw [length]
      have known := inv.2.2 k member
      omega
  · refine inv_same (fun j seen k same => ?_) (exec_stamps cmd (fun seen same => stamps ⟨seen,same⟩) _) (fun k member => ?_) inv
    · cases same
      exact stamps ⟨seen,rfl⟩
    · by_cases issues : ∃ k', cmd = .issue k'
      · obtain ⟨k',rfl⟩ := issues
        have grown : (exec limits (.issue k') c.state).2.issued.map Prod.fst = issuedNumbers c ++ [k'] := by
          simp [issuedNumbers,exec]
        have member : k ∈ issuedNumbers c ++ [k'] := by
          rw [← grown]
          exact member
        obtain old | new := mem_append.mp member
        · exact .inl old
        · rw [mem_singleton.mp new]
          exact .inr (inv.1 i k' may.1)
      · have same : (exec limits cmd c.state).2.issued = c.state.issued := exec_issued cmd (fun k' is_ => issues ⟨k',is_⟩) _
        left
        have member : k ∈ (exec limits cmd c.state).2.issued.map Prod.fst := member
        rw [same] at member
        exact member

theorem discipline_sound : (discipline limits).Sound where
  move := by
    intro who c c' move
    cases move with
    | act inv may => exact act_inv inv may
    | call inv _ => exact inv_same (fun _ _ _ no => by cases no) rfl (fun _ member => .inl member) inv
    | reply q r inv => exact inv_same (fun _ _ _ no => by cases no) rfl (fun _ member => .inl member) inv
    | shock x inv =>
      have same : (shock x c.state).stamps = c.state.stamps ∧ (shock x c.state).issued = c.state.issued := by
        cases x <;> exact ⟨rfl,rfl⟩
      exact inv_same (fun _ _ _ no => by cases no) same.1 (fun k member => .inl (by
        have member : k ∈ (shock x c.state).issued.map Prod.fst := member
        rw [same.2] at member
        exact member)) inv
  crash inv := inv_same (fun _ _ _ no => by cases no) rfl (fun _ member => .inl member) inv

/-! What a call knows, whatever the others do. -/

theorem exec_now (cmd : Cmd) (s : State) : s.now ≤ (exec limits cmd s).2.now := by
  cases cmd with
  | wake until_ => exact Int.le_max_left _ _
  | succeed object =>
    simp only [exec]
    split <;> exact Int.le_refl _
  | adopt content => exact Int.le_refl _
  | stamp seen => exact Int.le_refl _
  | issue ticket => exact Int.le_refl _
  | flood object seconds => exact Int.le_refl _
  | fail object => exact Int.le_refl _

theorem now_lasting (at_ : Int) : Lasting (discipline limits) fun c => at_ ≤ c.state.now := by
  intro who c c' move before
  cases move with
  | act inv may => exact Int.le_trans before (exec_now _ _)
  | call inv may => exact before
  | reply q r inv => exact before
  | shock x inv =>
    cases x with
    | tick ms =>
      have later : c.state.now ≤ c.state.now + (ms : Int) := by omega
      exact Int.le_trans before later
    | random value => exact before

/-- What a call knows of a stamp of its own that was not issued yet. -/
def Ready (i k : Nat) (c : Core (executor limits)) : Prop := Owns c i k ∧ k ∉ issuedNumbers c

theorem ready_stable (k : Nat) : Stable (discipline limits) i (Ready i k) := by
  rintro who c c' other move ⟨owned,fresh⟩
  cases move with
  | @act _ j cmd inv may =>
    refine ⟨owns_cons.mpr (.inr owned),?_⟩
    by_cases issue : ∃ k', cmd = Cmd.issue k'
    · obtain ⟨k',rfl⟩ := issue
      have apart : j ≠ i := fun same => other (by rw [same])
      have differs : k' ≠ k := by
        rintro rfl
        exact apart (inv.2.1 j i k' may.1 owned)
      have grown : issuedNumbers (c.act j (Cmd.issue k')) = issuedNumbers c ++ [k'] := by
        simp [issuedNumbers,Core.act,executor,exec]
      rw [grown,mem_append,mem_singleton]
      exact fun either => either.elim fresh fun same => differs same.symm
    · have same : issuedNumbers (c.act j cmd) = issuedNumbers c :=
        congrArg (List.map Prod.fst) (exec_issued cmd (fun k' is_ => issue ⟨k',is_⟩) c.state)
      rw [same]
      exact fresh
  | call inv may => exact ⟨owns_cons.mpr (.inr owned),fresh⟩
  | reply q r inv => exact ⟨owns_cons.mpr (.inr owned),fresh⟩
  | shock x inv =>
    refine ⟨owns_cons.mpr (.inr owned),?_⟩
    cases x <;> exact fresh

end Rules

/-! The calls keep to it. -/

section Calls
variable {limits : LimitConfig} {i : Nat}

theorem load_quiet : Quiet (discipline limits) (load limits) := by
  refine .bind (.look _) fun kept => ?_
  cases kept with
  | some object => exact .pure _
  | none =>
    refine .bind (.call discipline_sound fun _ _ _ => trivial) fun content => ?_
    exact .bind (.lift _) fun content => .act discipline_sound fun _ _ _ => trivial

theorem save_quiet : Quiet (discipline limits) (save limits) := by
  refine .bind (.await discipline_sound load_quiet) fun object => .bind (.look _) fun content => ?_
  exact .bind (.call discipline_sound fun _ _ _ => trivial) fun written => .lift _

theorem sleep_quiet (ms : Int) : Quiet (discipline limits) (sleep limits ms) := by
  refine .bind (.look _) fun now => .bind (.call discipline_sound fun _ _ _ => trivial) fun _ => ?_
  exact .act discipline_sound fun _ _ _ => trivial

theorem stopWith_quiet (code : String) (retryAt : Option Int) : Quiet (discipline limits) (stopWith limits code retryAt) := .lift _

theorem attempted_quiet : Quiet (discipline limits) (attempted limits) := by
  refine .bind (.call discipline_sound fun _ _ _ => trivial) fun result => .bind (.lift _) fun _ => ?_
  refine .bind (.await discipline_sound load_quiet) fun object => ?_
  exact .bind (.act discipline_sound fun _ _ _ => trivial) fun changed => .ite (.await discipline_sound save_quiet) (.pure _)

/-- A call that was let through is waited for. -/
theorem sleepWhile_waits (seen : Seen) : Triple (discipline limits) i (fun c => seen.at_ ≤ c.state.now)
    (sleepWhile limits (seen.waitMs limits)) (onOk fun _ c => seen.Waited limits c.state.now) := by
  refine .ite (fun waits => ?_) fun due => ?_
  · refine .bind (Q := onOk fun now (c : Core (executor limits)) => seen.at_ ≤ now ∧ now ≤ c.state.now) (.look fun c _ before => ⟨before,Int.le_refl _⟩)
      (fun now => ?_) fun _ _ _ _ => trivial
    refine .assume fun before => ?_
    refine .bind (Q := onOk fun _ (c : Core (executor limits)) => now ≤ c.state.now) (.call discipline_sound (now_lasting now).stable (fun _ _ _ => trivial)
      (fun _ _ held => held) fun _ _ _ held => held) (fun _ => ?_) fun _ _ _ _ => trivial
    refine .act discipline_sound (fun _ _ _ => trivial) fun c _ held _ => ?_
    have woken : now + seen.waitMs limits ≤ (c.act i (Cmd.wake (now + seen.waitMs limits))).state.now := Int.le_max_right _ _
    exact ⟨by omega,by omega⟩
  · exact .pure fun c _ before => ⟨before,by omega⟩

/-- Every request has a stamp of its own before it is issued. -/
theorem load_keeps (k : Nat) : Triple (discipline limits) i (Ready i k) (load limits) fun _ => Ready i k := by
  have stable : Stable (discipline limits) i (Ready i k) := ready_stable k
  refine .bind (Q := fun _ => Ready i k) (.look fun _ _ ready => ready) (fun kept => ?_) fun _ _ _ ready => ready
  cases kept with
  | some object => exact .pure fun _ _ ready => ready
  | none =>
    refine .bind (Q := fun _ => Ready i k) (.call discipline_sound stable (fun _ _ _ => trivial)
      (fun _ _ ready => ⟨owns_cons.mpr (.inr ready.1),ready.2⟩) fun _ _ _ ready => ⟨owns_cons.mpr (.inr ready.1),ready.2⟩)
      (fun content => ?_) fun _ _ _ ready => ready
    refine .bind (Q := fun _ => Ready i k) (.lift fun _ _ ready => ready) (fun content => ?_) fun _ _ _ ready => ready
    exact .act discipline_sound (fun _ _ _ => trivial) fun _ _ ready _ => ⟨owns_cons.mpr (.inr ready.1),ready.2⟩

theorem save_keeps (k : Nat) : Triple (discipline limits) i (Ready i k) (save limits) fun _ => Ready i k := by
  have stable : Stable (discipline limits) i (Ready i k) := ready_stable k
  refine .bind (Q := fun _ => Ready i k) (.await discipline_sound (load_keeps k) fun _ => stable) (fun object => ?_)
    fun _ _ _ ready => ready
  refine .bind (Q := fun _ => Ready i k) (.look fun _ _ ready => ready) (fun content => ?_) fun _ _ _ ready => ready
  refine .bind (Q := fun _ => Ready i k) (.call discipline_sound stable (fun _ _ _ => trivial)
    (fun _ _ ready => ⟨owns_cons.mpr (.inr ready.1),ready.2⟩) fun _ _ _ ready => ⟨owns_cons.mpr (.inr ready.1),ready.2⟩)
    (fun written => ?_) fun _ _ _ ready => ready
  exact .lift fun _ _ ready => ready

theorem beforeRequest_ready : Triple (discipline limits) i (fun _ => True) (beforeRequest limits)
    (onOk fun ticket => Ready i ticket) := by
  have free : ¬(discipline limits).taken i := id
  refine .bind ((Quiet.await discipline_sound load_quiet).triple free) (fun object => ?_) fun _ _ _ _ => trivial
  refine .bind (Q := onOk fun seen (c : Core (executor limits)) => Cleared limits seen ∧ seen.at_ ≤ c.state.now) (.check fun c _ _ => ?_) (fun seen => ?_)
    fun _ _ _ _ => trivial
  · cases admitted : admission limits object c.state with
    | error e => trivial
    | ok seen =>
      obtain ⟨cleared,is_⟩ := admission_ok admitted
      have same : seen.at_ = c.state.now := by rw [is_]
      exact ⟨cleared,Int.le_of_eq same⟩
  refine .assume fun cleared => ?_
  refine .bind (sleepWhile_waits seen) (fun _ => ?_) fun _ _ _ _ => trivial
  refine .bind (Q := onOk fun ticket => Ready i ticket) (.act discipline_sound (fun c _ waited => ⟨cleared,waited⟩) fun c inv _ _ => ?_)
    (fun ticket => ?_) fun _ _ _ _ => trivial
  · refine ⟨owns_cons.mpr (.inl ⟨seen,rfl⟩),fun member => ?_⟩
    exact Nat.lt_irrefl _ (inv.2.2 _ member)
  · exact .bind (.await discipline_sound (save_keeps ticket) fun _ => ready_stable ticket)
      (fun _ => .pure fun _ _ ready => ready) fun _ _ _ _ => trivial

theorem recover_quiet (quiet : Quiet (discipline limits) again) (e : Err) :
    Quiet (discipline limits) (recover limits again e) := by
  refine .bind (.await discipline_sound load_quiet) fun object => ?_
  cases e with
  | stop code retryAt => exact stopWith_quiet _ _
  | fatal => exact stopWith_quiet _ _
  | nonRetryable => exact stopWith_quiet _ _
  | flood seconds =>
    refine .bind (.act discipline_sound fun _ _ _ => trivial) fun retryAt => ?_
    exact .bind (.await discipline_sound save_quiet) fun _ => stopWith_quiet _ _
  | transient =>
    refine .bind (.act discipline_sound fun _ _ _ => trivial) fun opened => .bind (.await discipline_sound save_quiet) fun _ => ?_
    cases opened with
    | some retryAt => exact stopWith_quiet _ _
    | none => exact quiet

theorem retry_quiet {next : Guarded limits Unit} (quiet : Quiet (discipline limits) next) (attempt left : Nat) :
    Quiet (discipline limits) (retry limits attempt left next) := by
  refine .ite (stopWith_quiet _ _) ?_
  exact .bind (.look _) fun random => .bind (sleep_quiet _) fun _ => quiet

theorem attempt_quiet {next : Guarded limits Unit} (quiet : Quiet (discipline limits) next) (left : Nat) :
    Quiet (discipline limits) (attempt limits left next) := by
  intro i free
  refine .bind (.await discipline_sound beforeRequest_ready fun r => ?_) (fun ticket => ?_) fun _ _ _ _ => trivial
  · cases r with
    | ok ticket => exact ready_stable ticket
    | error e => exact .top
  refine .seq (Q := fun _ _ => True) (.act discipline_sound (fun _ _ ready => ready) fun _ _ _ _ => trivial) fun _ => ?_
  refine .seq ((Quiet.settle attempted_quiet).triple free) fun result => ?_
  cases result with
  | ok _ => exact .pure fun _ _ _ => trivial
  | error e =>
    cases e with
    | stop code retryAt => exact (stopWith_quiet _ _).triple free
    | flood seconds => exact (recover_quiet (retry_quiet quiet _ _) _).triple free
    | transient => exact (recover_quiet (retry_quiet quiet _ _) _).triple free
    | fatal => exact (recover_quiet (retry_quiet quiet _ _) _).triple free
    | nonRetryable => exact (recover_quiet (retry_quiet quiet _ _) _).triple free

theorem attempts_quiet (left : Nat) : Quiet (discipline limits) (attempts limits left) := by
  induction left with
  | zero => exact attempt_quiet (.pure _) 0
  | succ left ih => exact attempt_quiet ih (left + 1)

theorem body_safe (op : Op) (i : Nat) (c : Core (executor limits)) (free : ¬(discipline limits).taken i)
    (inv : (discipline limits).inv c) : Safe (discipline limits) i (body limits op) c := by
  cases op with
  | execute => exact (attempts_quiet limits.maxTransientRetries i free).safe inv trivial

end Calls

/-! What holds as long as nothing comes between the check of a call and its stamp. -/

section Kept
variable {limits : LimitConfig} {delay : Int} {s s' : State} {c c' : Core (executor limits)}

/-- The stamps of the last day. -/
def State.recent (s : State) : List Int := s.stamps.filter fun t => decide (s.now - dayMs < t)

/-- The content knows the stamps of the last day, and the last of all. -/
def Recalls (p : PersistentState) (s : State) : Prop :=
  s.recent.Sublist (p.requestTimestamps.filterMap id) ∧ ∀ t ∈ s.stamps.getLast?, p.lastRequestAt = some (some t)

/-- What the call saw is what the kept object still holds. -/
def Current (seen : Seen) (s : State) : Prop :=
  s.kept = some seen.object ∧ (s.object seen.object).requestTimestamps = seen.timestamps ∧
    (s.object seen.object).lastRequestAt = seen.last

/-- What is read knows all the stamps, no other call comes between a check and its stamp, and every request is issued the same
time after its stamp. -/
def Calm (delay : Int) : Cmd → State → Prop
  | .adopt content,s => Recalls content s
  | .stamp seen,s => Current seen s
  | .issue ticket,s => s.stamps[ticket]? = some (s.now - delay)
  | _,_ => True

structure Kept (limits : LimitConfig) (delay : Int) (s : State) : Prop where
  past : ∀ t ∈ s.stamps, t ≤ s.now
  ordered : s.stamps.Pairwise (· ≤ ·)
  spaced : Spaced limits.minRequestIntervalMs s.stamps
  within : ∀ w ∈ windows limits, Within w.1 w.2 s.stamps
  recalled : ∀ object, s.kept = some object → object < s.objects.length ∧ Recalls (s.object object) s
  numbers : (s.issued.map Prod.fst).Nodup
  stamped : ∀ p ∈ s.issued, s.stamps[p.1]? = some (p.2 - delay)

theorem recent_later (stamps : s'.stamps = s.stamps) (now : s.now ≤ s'.now) : s'.recent.Sublist s.recent := by
  unfold State.recent
  rw [stamps]
  have both : s.stamps.filter (fun t => decide (s'.now - dayMs < t)) =
      (s.stamps.filter fun t => decide (s.now - dayMs < t)).filter fun t => decide (s'.now - dayMs < t) := by
    rw [filter_filter]
    apply filter_congr
    intro t _
    by_cases late : s'.now - dayMs < t
    · have early : s.now - dayMs < t := by omega
      simp [late,early]
    · simp [late]
  rw [both]
  exact filter_sublist

theorem Recalls.later (held : Recalls p s) (stamps : s'.stamps = s.stamps) (now : s.now ≤ s'.now)
    (same : p'.requestTimestamps = p.requestTimestamps ∧ p'.lastRequestAt = p.lastRequestAt) : Recalls p' s' := by
  refine ⟨?_,?_⟩
  · rw [same.1]
    exact (recent_later stamps now).trans held.1
  · rw [stamps,same.2]
    exact held.2

/-- The kept object, where it is one of the objects, is as it was up to its cooldown and its breaker. -/
def Alike (s s' : State) : Prop :=
  s'.kept = s.kept ∧ s'.objects.length = s.objects.length ∧ ∀ i, (s'.object i).requestTimestamps = (s.object i).requestTimestamps ∧
    (s'.object i).lastRequestAt = (s.object i).lastRequestAt

theorem modify_alike (i : Nat)
    (same : ∀ p, (f p).requestTimestamps = p.requestTimestamps ∧ (f p).lastRequestAt = p.lastRequestAt) :
    Alike s (s.modify i f) := by
  refine ⟨rfl,by simp [State.modify],fun j => ?_⟩
  simp only [State.modify,State.object,getD_eq_getElem?_getD,List.getElem?_modify]
  cases s.objects[j]? with
  | none => exact ⟨rfl,rfl⟩
  | some p =>
    by_cases here : i = j
    · simpa [here] using same p
    · simp [here]

/-- Where no stamp is set and nothing is issued, only time passes. -/
theorem Kept.passes (kept : Kept limits delay s) (alike : Alike s s') (stamps : s'.stamps = s.stamps) (issued : s'.issued = s.issued)
    (now : s.now ≤ s'.now) : Kept limits delay s' where
  past t member := by
    rw [stamps] at member
    exact Int.le_trans (kept.past t member) now
  ordered := by
    rw [stamps]
    exact kept.ordered
  spaced := by
    rw [stamps]
    exact kept.spaced
  within := by
    rw [stamps]
    exact kept.within
  recalled object is_ := by
    rw [alike.1] at is_
    obtain ⟨bound,held⟩ := kept.recalled object is_
    exact ⟨by rw [alike.2.1]; exact bound,held.later stamps now (alike.2.2 object)⟩
  numbers := by
    rw [issued]
    exact kept.numbers
  stamped := by
    rw [issued,stamps]
    exact kept.stamped

theorem Kept.adopt (kept : Kept limits delay s) (recalls : Recalls content s) :
    Kept limits delay (exec limits (.adopt content) s).2 where
  past := kept.past
  ordered := kept.ordered
  spaced := kept.spaced
  within := kept.within
  recalled object is_ := by
    cases Option.some.inj is_
    refine ⟨by simp [exec],?_⟩
    have here : (exec limits (.adopt content) s).2.object s.objects.length = content := by simp [exec,State.object]
    rw [here]
    exact recalls.later rfl (Int.le_refl _) ⟨rfl,rfl⟩
  numbers := kept.numbers
  stamped := kept.stamped

/-- The kept object knows of every stamp a window can hold, so the check counted them all. -/
theorem Kept.room (kept : Kept limits delay s) (current : Current seen s) (cleared : Cleared limits seen)
    (before : seen.at_ ≤ s.now) (member : w ∈ windows limits) (now : s.now ≤ last) :
    inWindow w.1 last s.stamps < w.2 := by
  obtain ⟨is_,timestamps,_⟩ := current
  have recalls := (kept.recalled _ is_).2.1
  rw [timestamps] at recalls
  have day := windows_day member
  have counted : inWindow w.1 last s.stamps ≤ (seen.inWindow w.1).length := by
    have recent : inWindow w.1 last s.stamps ≤ s.recent.countP fun t => decide (seen.at_ - w.1 < t ∧ seen.at_ - dayMs < t) := by
      rw [State.recent,countP_filter]
      apply countP_mono_left
      intro t _ counted
      have counted : last - w.1 < t ∧ t ≤ last := by simpa using counted
      simp only [Bool.and_eq_true,decide_eq_true_eq]
      omega
    refine Nat.le_trans recent (Nat.le_trans recalls.countP_le (Nat.le_of_eq ?_))
    rw [Seen.inWindow,Seen.parsed,filter_filter,countP_eq_length_filter]
    congr 1
    apply filter_congr
    intro t _
    simp
  exact Nat.lt_of_le_of_lt counted (cleared w member)

theorem Kept.last_due (kept : Kept limits delay s) (current : Current seen s) (waited : seen.Waited limits s.now) :
    ∀ t ∈ s.stamps, t + limits.minRequestIntervalMs ≤ s.now := by
  intro t member
  obtain ⟨is_,_,last⟩ := current
  have recalls := (kept.recalled _ is_).2.2
  rw [last] at recalls
  cases ends : s.stamps.getLast? with
  | none =>
    rw [List.getLast?_eq_none_iff.mp ends] at member
    cases member
  | some final =>
    have due := waited_last waited (recalls final ends)
    obtain ⟨rest,split⟩ := List.getLast?_eq_some_iff.mp ends
    have ordered := kept.ordered
    rw [split,pairwise_append] at ordered
    rw [split] at member
    obtain earlier | is_last := mem_append.mp member
    · have before : t ≤ final := ordered.2.2 t earlier final (mem_singleton_self _)
      omega
    · rw [mem_singleton.mp is_last]
      exact due

/-- A stamp after a check that nothing came after keeps all of it. -/
theorem Kept.stamp (kept : Kept limits delay s) (current : Current seen s) (cleared : Cleared limits seen)
    (waited : seen.Waited limits s.now) : Kept limits delay (exec limits (.stamp seen) s).2 where
  past t member := by
    obtain old | new := mem_append.mp member
    · exact kept.past t old
    · exact Int.le_of_eq (mem_singleton.mp new)
  ordered := by
    refine pairwise_append.mpr ⟨kept.ordered,pairwise_singleton _ _,fun a member b last => ?_⟩
    rw [mem_singleton.mp last]
    exact kept.past a member
  spaced := kept.spaced.push (kept.last_due current waited)
  within w member := (kept.within w member).push fun _ now _ => kept.room current cleared waited.1 member now
  recalled object is_ := by
    have same : seen.object = object := Option.some.inj (current.1.symm.trans is_)
    obtain ⟨bound,recalls⟩ := kept.recalled object is_
    refine ⟨by simpa [exec,State.modify] using bound,?_⟩
    have here : (exec limits (.stamp seen) s).2.object object = { s.object object with
        requestTimestamps := seen.parsed.map some ++ [some s.now]
        lastRequestAt := some (some s.now) } := by
      simp [exec,State.modify,State.object,same,bound]
    rw [here]
    refine ⟨?_,?_⟩
    · have content : (seen.parsed.map some ++ [some s.now]).filterMap id = seen.parsed ++ [s.now] := by
        simp [filterMap_append,filterMap_map]
      rw [content]
      simp only [State.recent,exec,filter_append]
      refine List.Sublist.append ?_ filter_sublist
      have old := recalls.1.filter fun t => decide (seen.at_ - dayMs < t)
      rw [← same,current.2.1] at old
      have all : s.recent.filter (fun t => decide (seen.at_ - dayMs < t)) = s.recent := by
        apply filter_eq_self.mpr
        intro t member
        have before := waited.1
        have recent : s.now - dayMs < t := by simpa using (mem_filter.mp member).2
        simp only [decide_eq_true_eq]
        omega
      rw [all] at old
      exact old
    · intro t last
      simp only [exec,List.getLast?_append,List.getLast?_singleton,Option.mem_def] at last
      cases Option.some.inj last
      rfl
  numbers := kept.numbers
  stamped p member := by
    have old := kept.stamped p member
    obtain ⟨bound,_⟩ := List.getElem?_eq_some_iff.mp old
    have grown : (exec limits (.stamp seen) s).2.stamps[p.1]? = s.stamps[p.1]? := List.getElem?_append_left bound
    rw [grown]
    exact old

theorem Kept.issue (kept : Kept limits delay s) (fresh : ticket ∉ s.issued.map Prod.fst)
    (prompt : s.stamps[ticket]? = some (s.now - delay)) : Kept limits delay (exec limits (.issue ticket) s).2 where
  past := kept.past
  ordered := kept.ordered
  spaced := kept.spaced
  within := kept.within
  recalled := kept.recalled
  numbers := by
    simp only [exec,map_append,map_cons,map_nil]
    exact nodup_append.mpr ⟨kept.numbers,pairwise_singleton _ _,fun a old b new => by
      rintro rfl
      rw [mem_singleton.mp new] at old
      exact fresh old⟩
  stamped p member := by
    obtain old | new := mem_append.mp member
    · exact kept.stamped p old
    · rw [mem_singleton.mp new]
      exact prompt

theorem exec_kept (cmd : Cmd) (may : (discipline limits).mayAct i cmd c) (calm : Calm delay cmd c.state)
    (kept : Kept limits delay c.state) : Kept limits delay (exec limits cmd c.state).2 := by
  cases cmd with
  | adopt content => exact kept.adopt calm
  | stamp seen => exact kept.stamp calm may.1 may.2
  | issue ticket => exact kept.issue may.2 calm
  | wake until_ => exact kept.passes ⟨rfl,rfl,fun _ => ⟨rfl,rfl⟩⟩ rfl rfl (Int.le_max_left _ _)
  | flood object seconds => exact kept.passes (modify_alike _ fun _ => ⟨rfl,rfl⟩) rfl rfl (Int.le_refl _)
  | fail object => exact kept.passes (modify_alike _ fun _ => ⟨rfl,rfl⟩) rfl rfl (Int.le_refl _)
  | succeed object =>
    simp only [exec]
    split
    · exact kept.passes (modify_alike _ fun _ => ⟨rfl,rfl⟩) rfl rfl (Int.le_refl _)
    · exact kept

theorem change_kept (change : Change (discipline limits) (fun cmd c => Calm delay cmd c.state) c c')
    (kept : Kept limits delay c.state) : Kept limits delay c'.state := by
  cases change with
  | act i cmd inv may calm => exact exec_kept cmd may calm kept
  | call i q inv may => exact kept
  | reply i q r inv => exact kept
  | shock x inv =>
    cases x with
    | tick ms =>
      have later : c.state.now ≤ c.state.now + (ms : Int) := by omega
      exact kept.passes ⟨rfl,rfl,fun _ => ⟨rfl,rfl⟩⟩ rfl rfl later
    | random value => exact kept.passes ⟨rfl,rfl,fun _ => ⟨rfl,rfl⟩⟩ rfl rfl (Int.le_refl _)
  | crash inv => exact ⟨kept.past,kept.ordered,kept.spaced,kept.within,nofun,kept.numbers,kept.stamped⟩

/-- No window of any limit holds more requests than it allows, and any two are far enough apart. -/
def Limited (limits : LimitConfig) (times : List Int) : Prop :=
  (∀ w ∈ windows limits, Within w.1 w.2 times) ∧ Spaced limits.minRequestIntervalMs times

def State.issues (s : State) : List Int := s.issued.map Prod.snd

/-- What is issued comes from stamps of its own. -/
theorem Kept.limited (kept : Kept limits delay s) : Limited limits s.issues := by
  have inside : ∀ i ∈ s.issued.map Prod.fst, i < s.stamps.length := by
    intro i member
    obtain ⟨p,issued,rfl⟩ := mem_map.mp member
    exact (List.getElem?_eq_some_iff.mp (kept.stamped p issued)).1
  have few := positions_subperm kept.numbers inside
  have times : s.issues = ((s.issued.map Prod.fst).map fun i => s.stamps.getD i 0).map (· + delay) := by
    simp only [State.issues,map_map]
    apply map_congr_left
    intro p member
    simp [getD_eq_getElem?_getD,kept.stamped p member]
  rw [times]
  exact ⟨fun w member => ((kept.within w member).subperm few).delay delay,(kept.spaced.subperm few).delay delay⟩

/-- Nothing is loaded yet, and nothing was stamped. -/
def boot (now : Int) : State := { now := now }

theorem boot_kept (now : Int) : Kept limits delay (boot now) :=
  ⟨nofun,.nil,.nil,fun _ _ => within_nil,nofun,.nil,nofun⟩

theorem boot_inv (now : Int) : (discipline limits).inv ⟨boot now,[]⟩ := by
  refine ⟨?_,?_,nofun⟩
  · rintro i k ⟨seen,member⟩
    cases member
  · rintro i j k ⟨seen,member⟩
    cases member

end Kept

def plain : LimitConfig where
  maxRequestsPerMinute := 2
  maxRequestsPerHour := 100
  maxRequestsPerRollingDay := 1000
  minRequestIntervalMs := 1000
  maxTransientRetries := 2
  retryBaseMs := 1000
  retryMaxMs := 30000
  floodWaitSafetySeconds := 5
  circuitBreakerFailures := 5
  circuitBreakerCooldownSeconds := 60

/-- One request went out at the start. -/
def asked : PersistentState := { requestTimestamps := [some 0], lastRequestAt := some (some 0) }

def granted (fiber : Nat) : Choice (executor plain) Op :=
  .resume fiber fun
    | .readFile => some (.ok asked)
    | .writeFile _ => some (.ok ())
    | .sleep _ => some ()
    | .operation => some (.ok ())

/-- All three are let through before any of them wakes. -/
def together : List (Choice (executor plain) Op) :=
  [.invoke .execute,granted 0,.invoke .execute,.invoke .execute,granted 0,granted 1,granted 2,granted 0,granted 1,granted 2]

def calmly (delay : Int) (cmd : Cmd) (c : Core (executor plain)) : Bool :=
  match cmd with
  | .adopt content => decide (c.state.recent.Sublist (content.requestTimestamps.filterMap id)) &&
      decide (∀ t ∈ c.state.stamps.getLast?, content.lastRequestAt = some (some t))
  | .stamp seen => decide (c.state.kept = some seen.object) &&
      decide ((c.state.object seen.object).requestTimestamps = seen.timestamps) &&
      decide ((c.state.object seen.object).lastRequestAt = seen.last)
  | .issue ticket => decide (c.state.stamps[ticket]? = some (c.state.now - delay))
  | _ => true

theorem calmly_calm (delay : Int) (cmd : Cmd) (c : Core (executor plain)) (passes : calmly delay cmd c = true) :
    Calm delay cmd c.state := by
  cases cmd with
  | adopt content =>
    simp only [calmly,Bool.and_eq_true,decide_eq_true_eq] at passes
    exact passes
  | stamp seen =>
    simp only [calmly,Bool.and_eq_true,decide_eq_true_eq] at passes
    exact ⟨passes.1.1,passes.1.2,passes.2⟩
  | issue ticket =>
    simp only [calmly,decide_eq_true_eq] at passes
    exact passes
  | wake until_ => trivial
  | succeed object => trivial
  | flood object seconds => trivial
  | fail object => trivial

/-- One after the other they keep to the limits: the third is refused until the minute is over. -/
def inTurn : List (Choice (executor plain) Op) :=
  [.invoke .execute,granted 0,granted 0,granted 0,granted 0,.invoke .execute,.shock (.tick 59001),.invoke .execute,granted 2,
    granted 2]

end Neurobro.Guardrails
