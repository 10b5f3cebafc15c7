import Neurobro.Artifacts.Remaining

/-! Over any run, a revocation is closed and complete: nothing under a committed selector
is handed out, staged or made, generations count revocations, and the rest stays as it is. -/
namespace Neurobro.Artifacts

open Durable List

variable {h : Host}

/-- How one call of a run ended: its answer is in order, or it was broken off. -/
theorem next_ended (sound : Sound h m) (event : Event) :
    Ends (fun answer m' => Trail h event.1.1.releases m m' ∧ Answered event.1.1 answer m') (Trail h event.1.1.releases m)
      (next h m event).1 (next h m event).2 := by
  apply stepOf_ends (P := Trail h event.1.1.releases m) .start (perform_meets sound event.1)
  exact fun s trail => trail.step (.process false)

theorem next_trail (sound : Sound h m) (event : Event) : Trail h event.1.1.releases m (next h m event).2 := by
  have ended := next_ended sound event
  cases outcome : (next h m event).1 with
  | value answer => rw [outcome] at ended; exact ended.1
  | threw e => rw [outcome] at ended; exact ended
  | crashed => rw [outcome] at ended; exact ended

theorem play_later (run : List Event) (sound : Sound h m) :
    Sound h (play (perform h) Machine.fell m run) ∧ Later m (play (perform h) Machine.fell m run) := by
  induction run generalizing m with
  | nil => exact ⟨sound,.refl m⟩
  | cons event rest ih =>
    obtain ⟨sound',later⟩ := (next_trail sound event).keeps sound
    obtain ⟨sound'',later'⟩ := ih sound'
    exact ⟨sound'',later.trans later' sound''.shape⟩

theorem after_sound (run : List Event) : Sound h (after h run) := (play_later run sound_empty).1

theorem after_later (run more : List Event) : Later (after h run) (after h (run ++ more)) := by
  unfold after
  rw [play_append]
  exact (play_later more (after_sound run)).2

/-! Generations. -/

/-- Something of an owner is taken away: an artifact, an open stage, or what a selector
stands for. -/
def Taken (db db' : Db) (owner : String) : Prop :=
  (∃ r ∈ db.artifacts, r.ownerId = owner ∧ r.revokedAt = none ∧ ∃ r' ∈ db'.artifacts, r'.id = r.id ∧ r'.revokedAt ≠ none) ∨
  (∃ s ∈ db.stages, s.ownerId = owner ∧ s.revokedAt = none ∧ ∃ s' ∈ db'.stages, s'.id = s.id ∧ s'.revokedAt ≠ none) ∨
  ∃ selector, selector.ownerId = owner ∧ Committed db' selector ∧ ¬Committed db selector

/-- A step that leaves revocations alone takes nothing away. -/
theorem not_taken {m m' : Machine} (sound : Sound h m)
    (rows : ∀ r' ∈ m'.db.artifacts, r'.revokedAt ≠ none → ∃ r ∈ m.db.artifacts, r.id = r'.id ∧ r.revokedAt ≠ none)
    (stages : ∀ s' ∈ m'.db.stages, s'.revokedAt ≠ none → (∃ s ∈ m.db.stages, s.id = s'.id ∧ s.revokedAt ≠ none) ∨
      ∀ s ∈ m.db.stages, s.id ≠ s'.id)
    (tombstones : m'.db.tombstones = m.db.tombstones) : ¬Taken m.db m'.db owner := by
  rintro (⟨r,member,_,open_,r',member',named,revoked⟩ | ⟨s,member,_,open_,s',member',named,revoked⟩ |
    ⟨selector,_,committed,missing⟩)
  · obtain ⟨q,mq,same,gone⟩ := rows r' member' revoked
    rw [sound.shape.unique mq member (same.trans named)] at gone
    exact gone open_
  · rcases stages s' member' revoked with ⟨q,mq,same,gone⟩ | none
    · have row := inj_on_of_nodup_map sound.settled.stageIds mq member (same.trans named)
      rw [row] at gone
      exact gone open_
    · exact none s member named.symm
  · unfold Committed at committed
    rw [tombstones] at committed
    exact missing committed

theorem not_taken_same {m m' : Machine} (sound : Sound h m) (db : m'.db = m.db) : ¬Taken m.db m'.db owner := by
  apply not_taken sound
  · rw [db]
    exact fun r member revoked => ⟨r,member,rfl,revoked⟩
  · rw [db]
    exact fun s member revoked => .inl ⟨s,member,rfl,revoked⟩
  · rw [db]

/-- A revocation that takes something away has news. -/
theorem invalidated_taken {now : Stamp} (shape : Shape db)
    (settled : Settled db) (valid : selectable selector = .ok ()) (done : Invalidated selector now db db')
    (taken : Taken db db' owner) : owner = selector.ownerId ∧ db.news (db.reach selector) (selector.tombstone now) = true := by
  have re := revokedRow_reshaped done
  unfold Db.news
  rw [Bool.or_eq_true,Bool.or_eq_true]
  rcases taken with ⟨r,member,rfl,open_,r',member',named,revoked⟩ | ⟨s,member,rfl,open_,s',member',named,revoked⟩ |
    ⟨other,rfl,committed,missing⟩
  · obtain ⟨q,mq,rfl⟩ := re.mem member'
    rw [(re.same q).1] at named
    have same := shape.unique mq member named
    subst same
    have reached := (revokedRow_revoked.mp revoked).resolve_left fun gone => gone open_
    have owned := reached_owner shape valid member reached
    refine ⟨owned,.inl (.inl (any_eq_true.mpr ⟨q,mem_filter.mpr ⟨member,?_⟩,by simp [reached,open_]⟩))⟩
    have whole : q.erasedAt = none := by
      by_contra erased
      exact settled.erased q member erased open_
    simp [owned,whole]
  · rw [done.stages] at member'
    obtain ⟨q,mq,rfl⟩ := mem_map.mp member'
    rw [(revokedStage_same _ _ q).1] at named
    have same := inj_on_of_nodup_map settled.stageIds mq member named
    subst same
    have reached : q.id ∈ (db.reach selector).stages.map fun s => s.id := by
      by_contra apart
      apply revoked
      unfold revokedStage
      rw [if_neg apart]
      exact open_
    obtain ⟨p,mp,same⟩ := mem_map.mp reached
    have touched := (mem_filter.mp mp).2
    have row := inj_on_of_nodup_map settled.stageIds (mem_filter.mp mp).1 member same
    subst row
    rw [Bool.and_eq_true,decide_eq_true_eq] at touched
    refine ⟨touched.1.1,.inl (.inr ?_)⟩
    cases some : (db.reach selector).stages with
    | nil => rw [some] at mp; contradiction
    | cons _ _ => rfl
  · obtain ⟨t,member,owner,task,source⟩ := committed
    rcases (done.tombstones t).mp member with old | ⟨rfl,new⟩
    · exact absurd ⟨t,old,owner,task,source⟩ missing
    · refine ⟨owner.symm,.inr ?_⟩
      rw [Bool.not_eq_true',any_eq_false]
      exact fun u there same => new u there (by simpa using same)

theorem Change.taken {m m' : Machine} (change : Change h false m m') (sound : Sound h m)
    (taken : Taken m.db m'.db owner) : m.db.generation owner < m'.db.generation owner := by
  cases change with
  | process opened => exact absurd taken (not_taken_same sound rfl)
  | drew => exact absurd taken (not_taken_same sound rfl)
  | area stageId area => exact absurd taken (not_taken_same sound rfl)
  | created id absent => exact absurd taken (not_taken_same sound rfl)
  | filled id bytes unneeded => exact absurd taken (not_taken_same sound rfl)
  | unlinked id unneeded => exact absurd taken (not_taken_same sound rfl)
  | saved record inputIds bytes savable original done =>
    obtain ⟨fresh,rfl⟩ := saved_ok done
    refine absurd taken (not_taken sound (fun r member revoked => ?_) (fun s member revoked => ?_) rfl)
    · rcases mem_withArtifact.mp member with old | rfl
      · exact ⟨r,old,rfl,revoked⟩
      · exact absurd rfl revoked
    · exact .inl ⟨s,member,rfl,revoked⟩
  | staged s pending done =>
    unfold Db.insertStage at done
    split at done
    · contradiction
    · rename_i new
      obtain ⟨_,same⟩ := Prod.mk.inj (Except.ok.inj done)
      subst same
      refine absurd taken (not_taken sound (fun r member revoked => ⟨r,member,rfl,revoked⟩) (fun s' member revoked => ?_) rfl)
      rcases mem_append.mp member with old | last
      · exact .inl ⟨s',old,rfl,revoked⟩
      · rw [mem_singleton.mp last]
        exact .inr fun q there named => new (any_eq_true.mpr ⟨q,there,by simpa using named⟩)
  | stageOpened id inOrder done =>
    obtain ⟨_,same⟩ := Prod.mk.inj (Except.ok.inj done)
    subst same
    refine absurd taken (not_taken sound (fun r member revoked => ⟨r,member,rfl,revoked⟩) (fun s' member revoked => ?_) rfl)
    obtain ⟨s,there,rfl⟩ := mem_map.mp member
    by_cases named : s.id = id
    · rw [if_pos named] at revoked
      exact absurd rfl revoked
    · rw [if_neg named] at revoked ⊢
      exact .inl ⟨s,there,rfl,revoked⟩
  | stageReleased allowed id now done => contradiction
  | invalidated selector erase now valid done =>
    have done := invalidated_ok done
    obtain ⟨owned,news⟩ := invalidated_taken sound.shape sound.settled valid done taken
    have grown := done.generation owner
    rw [if_pos ⟨owned,news⟩] at grown
    exact Nat.lt_of_lt_of_eq (Nat.lt_succ_self _) grown.symm
  | redacted id at_ unneeded done =>
    unfold Db.redacted at done
    split at done
    · obtain ⟨_,same⟩ := Prod.mk.inj (Except.ok.inj done)
      subst same
      refine absurd taken (not_taken sound (fun r' member revoked => ?_) (fun s member revoked => .inl ⟨s,member,rfl,revoked⟩) rfl)
      have re := redactedRow_reshaped m.db id at_
      obtain ⟨r,there,rfl⟩ := re.mem member
      rw [redactedRow_revoked] at revoked
      exact ⟨r,there,(re.same r).1.symm,revoked⟩
    · contradiction
  | forgotten ids done =>
    obtain ⟨_,same⟩ := Prod.mk.inj (Except.ok.inj done)
    subst same
    exact absurd taken (not_taken sound (fun r member revoked => ⟨r,member,rfl,revoked⟩)
      (fun s member revoked => .inl ⟨s,member,rfl,revoked⟩) rfl)

/-- What is taken away on a trail is taken away by one of its steps. -/
theorem Trail.taken (trail : Trail h false m m') (sound : Sound h m)
    (taken : Taken m.db m'.db owner) : m.db.generation owner < m'.db.generation owner := by
  induction trail with
  | start => exact absurd taken (not_taken_same sound rfl)
  | @step m₁ m₂ before change ih =>
    obtain ⟨sound₁,later₁⟩ := before.keeps sound
    obtain ⟨sound₂,later₂⟩ := change.keeps sound₁
    by_cases early : Taken m.db m₁.db owner
    · exact (ih early).trans_le (later₂.generation owner)
    · apply (later₁.generation owner).trans_lt
      apply change.taken sound₁
      rcases taken with ⟨r,member,owned,open_,r',member',named,revoked⟩ | ⟨s,member,owned,open_,s',member',named,revoked⟩ |
        ⟨selector,owned,committed,missing⟩
      · obtain ⟨q,mq,same,owned',_⟩ := later₁.rows r member
        have still : q.revokedAt = none := by
          by_contra gone
          exact early (.inl ⟨r,member,owned,open_,q,mq,same,gone⟩)
        exact .inl ⟨q,mq,owned'.trans owned,still,r',member',named.trans same.symm,revoked⟩
      · obtain ⟨q,mq,same,owned'⟩ := later₁.stages s member
        have still : q.revokedAt = none := by
          by_contra gone
          exact early (.inr (.inl ⟨s,member,owned,open_,q,mq,same,gone⟩))
        exact .inr (.inl ⟨q,mq,owned'.trans owned,still,s',member',named.trans same.symm,revoked⟩)
      · refine .inr (.inr ⟨selector,owned,committed,fun there => ?_⟩)
        exact early (.inr (.inr ⟨selector,owned,there,missing⟩))

/-! What the calls that read answer. -/

/-- A call is answered, at whatever time it comes. -/
def Serves (h : Host) (m : Machine) (call : Call) (answer : Answer) : Prop :=
  ∀ now fates, (next h m ((call,now),fates)).1 = .value answer

theorem ready_reading {α : Type} {m : Machine} (opened : m.opened = true) {f : Machine → Except String α} {a : α} (ok : f m = .ok a)
    (answer : α → Answer) (fates : List Fate) :
    ready (do return answer (← reading f)) fates m = (.value (answer a),fates,m) := by
  have closed : ¬m.opened = false := by rw [opened]; simp
  have read : reading f fates m = (.value a,fates,m) := by
    show Script.bind (Script.look f) Script.lift fates m = _
    simp only [Script.bind,Script.look,ok,Script.lift,Script.pure]
  have passed : Script.guard (m.opened = false) "artifact store is closed" fates m = (.value (),fates,m) := by
    simp only [Script.guard,if_neg closed,Script.pure]
  have last : Script.bind (reading f) (fun a => Script.pure (answer a)) fates m = (.value (answer a),fates,m) := by
    rw [Script.bind,read]
    rfl
  unfold ready
  change Script.bind (Script.guard (m.opened = false) "artifact store is closed")
    (fun _ => Script.bind (reading f) fun a => Script.pure (answer a)) fates m = _
  rw [Script.bind,passed]
  exact last

theorem serves {α : Type} {m : Machine} {call : Call} {f : Machine → Except String α} {answer : α → Answer} {a : α}
    (is_ : ∀ now, perform h (call,now) = ready (do return answer (← reading f))) (opened : m.opened = true) (ok : f m = .ok a) :
    Serves h m call (answer a) := by
  intro now fates
  unfold next stepOf
  rw [is_,ready_reading opened ok]

/-- All the readings of one artifact. -/
structure Readable (h : Host) (m : Machine) (r : ArtifactRow) (bytes : Bytes) (ancestry inputs : List ArtifactRecord) : Prop where
  get : Serves h m (.get r.scope r.id) (.record r.record)
  read : Serves h m (.read r.scope r.id) (.bytes bytes)
  lineage : Serves h m (.lineage r.scope r.id) (.records ancestry)
  dependencies : Serves h m (.dependencies r.scope r.id) (.records inputs)
  list : ∃ records, Serves h m (.list r.scope) (.records records) ∧ r.record ∈ records

theorem list_served {m : Machine} (sound : Sound h m) (opened : m.opened = true) {scope : ArtifactScope}
    (valid : scope.check = .ok ()) :
    Serves h m (.list scope) (.records ((openRows m.db scope).map fun r => r.record)) :=
  serves (fun _ => rfl) opened (list_remains sound valid)

theorem readable {m : Machine} (sound : Sound h m) (opened : m.opened = true) {r : ArtifactRow} (remains : Remains m r)
    {bytes : Bytes} (original : Original h m r.record bytes) {up : List ArtifactRecord} (line : Line m.db r up) :
    Readable h m r bytes up (inputRecords m.db r.id) where
  get := serves (fun _ => rfl) opened (row_remains sound remains)
  read := serves (fun _ => rfl) opened (read_remains sound remains original)
  lineage := serves (fun _ => rfl) opened (lineage_remains sound remains line)
  dependencies := serves (fun _ => rfl) opened (dependencies_remain sound remains)
  list := ⟨_,list_served sound opened (sound.shape.filed r remains.1).valid,
    mem_map_of_mem (mem_openRows.mpr ⟨remains.1,rfl,remains.2⟩)⟩

/-- An artifact under no committed selector reads as it did before. -/
theorem remaining_readable (sound : Sound h m) (sound' : Sound h m') (later : Later m m') (opened : m'.opened = true)
 (member : r ∈ m'.db.artifacts) (spared : ¬Withdrawn m'.db r.id) :
    ∃ bytes ancestry inputs, Readable h m' r bytes ancestry inputs ∧
      (m.opened = true → m.db.has r.id = true → Readable h m r bytes ancestry inputs) := by
  have open_ : r.revokedAt = none := by
    by_contra revoked
    exact spared (sound'.settled.justified r member revoked)
  have remains : Remains m' r := ⟨member,open_⟩
  obtain ⟨bytes,original⟩ := sound'.originals r member open_
  obtain ⟨up,line⟩ := line_exists sound'.shape member
  refine ⟨bytes,up,inputRecords m'.db r.id,readable sound' opened remains original line,fun openedBefore known => ?_⟩
  have early := later.before sound'.shape remains known
  rw [inputRecords_before later sound sound' remains early]
  exact readable sound openedBefore early (original.before later sound remains early) (line.before later sound sound' remains early)

/-- Nothing new comes under a selector once its revocation is committed. -/
theorem spared_after (sound : Sound h m) (later : Later m m')
    (committed : Committed m.db selector) {id : String} (new : m.db.has id = false) : ¬Under m'.db selector id := by
  intro under
  obtain ⟨root,member,_,derives⟩ := later.under selector committed id under
  obtain ⟨q,mq,named,_⟩ := sound.shape.derived derives member rfl
  exact has_false.mp new q mq named

/-- Revocation is closed and complete. For every run and every continuation of it: a
revocation that is answered is committed; once committed it stays so, no call hands out an
artifact under it, none is made, and no open stage holds one; whatever a call other than
the release of a stage takes away raises the generation of its owner; and in a store that
is open every list is answered, and every artifact under no committed selector reads, in
every way, as it did before. -/
theorem revocation_closed (h : Host) (run more : List Event) :
    (∀ selector erase now fates answer, (next h (after h run) ((.invalidate selector erase,now),fates)).1 = .value answer →
      Committed (next h (after h run) ((.invalidate selector erase,now),fates)).2.db selector) ∧
    (∀ selector, Committed (after h run).db selector → Committed (after h (run ++ more)).db selector ∧
      (∀ event answer, (next h (after h (run ++ more)) event).1 = .value answer → ∀ id ∈ delivered event.1.1 answer,
        ¬Under (next h (after h (run ++ more)) event).2.db selector id) ∧
      (∀ r ∈ (after h (run ++ more)).db.artifacts, (after h run).db.has r.id = false →
        ¬Under (after h (run ++ more)).db selector r.id) ∧
      ∀ s ∈ (after h (run ++ more)).db.stages, s.revokedAt = none → ∀ id ∈ s.inputIds,
        ¬Under (after h (run ++ more)).db selector id) ∧
    (∀ event owner, event.1.1.releases = false → Taken (after h run).db (next h (after h run) event).2.db owner →
      (after h run).db.generation owner < (next h (after h run) event).2.db.generation owner) ∧
    ((after h (run ++ more)).opened = true →
      (∀ scope : ArtifactScope, scope.check = .ok () →
        ∃ records, Serves h (after h (run ++ more)) (.list scope) (.records records)) ∧
      ∀ r ∈ (after h (run ++ more)).db.artifacts, ¬Withdrawn (after h (run ++ more)).db r.id → ∃ bytes ancestry inputs,
        Readable h (after h (run ++ more)) r bytes ancestry inputs ∧
          ((after h run).opened = true → (after h run).db.has r.id = true →
            Readable h (after h run) r bytes ancestry inputs)) := by
  have sound : Sound h (after h run) := after_sound run
  have sound' : Sound h (after h (run ++ more)) := after_sound (run ++ more)
  have later : Later (after h run) (after h (run ++ more)) := after_later run more
  refine ⟨?_,?_,?_,?_⟩
  · intro selector erase now fates answer ended
    have held := next_ended sound ((.invalidate selector erase,now),fates)
    rw [ended] at held
    exact held.2.committed selector erase rfl
  · intro selector committed
    have still := later.committed committed
    refine ⟨still,fun event answer ended id member => ?_,fun r _ new => spared_after sound later committed new,
      fun s member open_ id input => ?_⟩
    · have held := next_ended sound' event
      rw [ended] at held
      obtain ⟨trail,answered⟩ := held
      obtain ⟨sound'',later'⟩ := trail.keeps sound'
      obtain ⟨scope,live⟩ := answered.live id member
      exact sound''.settled.live_clear sound''.shape (later'.committed still) live
    · exact sound'.settled.live_clear sound'.shape still ((sound'.settled.stages s member open_).1 id input)
  · intro event owner quiet taken
    have trail := next_trail sound event
    rw [quiet] at trail
    exact trail.taken sound taken
  · intro opened
    exact ⟨fun scope valid => ⟨_,list_served sound' opened valid⟩,
      fun r member spared => remaining_readable sound sound' later opened member spared⟩

end Neurobro.Artifacts
