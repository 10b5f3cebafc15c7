import Neurobro.Artifacts.Calls

/-! Staging and revoking as trails, and all calls of the artifact store as one. -/
namespace Neurobro.Artifacts

open Durable List

variable {h : Host} {releasing : Bool} {m₀ : Machine} {db : Db}

/-! Stages. -/

/-- A trail that has come to a certain database. -/
def AtDb (h : Host) (releasing : Bool) (m₀ : Machine) (db : Db) (m : Machine) : Prop := Trail h releasing m₀ m ∧ m.db = db

theorem AtDb.areal : Areal (AtDb h releasing m₀ db) :=
  fun _ stageId area held => ⟨held.1.step (.area stageId area),held.2⟩

/-- A statement that only changes the directory of a stage. -/
theorem areal_write (areal : Areal P)
    (only : ∀ m m', f m = .ok ((),m') → ∃ stageId area, m' = m.setArea stageId area) :
    Meets P (Script.write f) (fun _ => P) P := by
  refine .write (fun _ holds => holds) fun m _ m' holds done => ?_
  obtain ⟨stageId,area,rfl⟩ := only m m' done
  exact areal m stageId area holds

theorem openArea_only (stageId : String) (m m' : Machine) (done : m.openArea stageId = .ok ((),m')) :
    ∃ stageId area, m' = m.setArea stageId area := by
  unfold Machine.openArea at done
  dsimp only at done
  split at done
  · contradiction
  · obtain ⟨_,same⟩ := Prod.mk.inj (Except.ok.inj done)
    exact ⟨_,_,same.symm⟩

theorem createInput_only (stageId name : String) (m m' : Machine) (done : m.createInput stageId name = .ok ((),m')) :
    ∃ stageId area, m' = m.setArea stageId area := by
  unfold Machine.createInput at done
  dsimp only at done
  split at done
  · contradiction
  · obtain ⟨_,same⟩ := Prod.mk.inj (Except.ok.inj done)
    exact ⟨_,_,same.symm⟩

theorem fillInput_only (stageId name : String) (bytes : Bytes) (m m' : Machine)
    (done : m.fillInput stageId name bytes = .ok ((),m')) : ∃ stageId area, m' = m.setArea stageId area := by
  obtain ⟨_,same⟩ := Prod.mk.inj (Except.ok.inj done)
  exact ⟨_,_,same.symm⟩

theorem stageInput_meets (areal : Areal P) (scope : ArtifactScope) (stageId : String)
    (artifact : ArtifactRecord) : Meets P (stageInput h scope stageId artifact) (fun _ => P) P := by
  unfold stageInput
  apply Meets.bind (M := fun _ => P)
  · exact .lift (fun _ _ holds _ => holds) fun _ holds => holds
  intro _
  apply Meets.bind ((reading_meets fun _ holds => holds).post fun _ _ held => held.1)
  intro bytes
  apply Meets.bind (areal_write areal (createInput_only stageId _))
  intro _
  exact areal_write areal (fillInput_only stageId _ bytes)

theorem stageTask_meets (sound : Sound h m₀) (now : Stamp) (scope : ArtifactScope) (artifactIds : List String) :
    Meets (Trail h releasing m₀) (stageTask h now scope artifactIds)
      (fun stage m => Trail h releasing m₀ m ∧ ∀ input ∈ stage.inputs, ∃ scope, Live m.db scope input.1.id)
      (Trail h releasing m₀) := by
  refine .named fun m₁ trail₁ => ?_
  have shape₁ := (trail₁.keeps sound).1.shape
  unfold stageTask
  apply Meets.bind (reading_meets fun m is_ => is_ ▸ trail₁)
  intro records
  refine .assume (F := m₁.stageable h scope artifactIds = .ok records) (fun m held => held.1 ▸ held.2) fun read => ?_
  obtain ⟨inputs,clear,found⟩ := stageable_ok read
  apply Meets.bind (M := fun _ => AtDb h releasing m₀ m₁.db)
  · apply Meets.pre (P := AtDb h releasing m₀ m₁.db)
    · exact draw_meets fun m held => ⟨held.1.step .drew,held.2⟩
    · rintro m ⟨rfl,_⟩
      exact ⟨trail₁,rfl⟩
  intro drawn
  dsimp only
  generalize h.uuid drawn = stageId
  apply Meets.bind (M := fun _ => AtDb h releasing m₀ m₁.db)
  · exact .lift (fun _ _ held _ => held) fun _ held => held.1
  intro _
  -- The row is a revoked one until the inputs are in place.
  let row : StageRow := ⟨stageId,scope.ownerId,scope.taskId,artifactIds,some now⟩
  let staged : Db := { m₁.db with stages := m₁.db.stages ++ [row] }
  let Pending (m : Machine) := AtDb h releasing m₀ staged m ∧ ∀ s ∈ staged.stages, s.id = stageId → s = row
  have areal : Areal Pending := fun m stageId area held => ⟨AtDb.areal m stageId area held.1,held.2⟩
  apply Meets.bind (M := fun _ => Pending)
  · refine .write (fun _ held => held.1) fun m _ m' held done => ?_
    obtain ⟨trail,tables⟩ := held
    obtain ⟨r,ran,same⟩ := map_ok done
    obtain ⟨_,rfl⟩ := Prod.mk.inj same
    have step := trail.step (.staged row (by simp [row]) ran)
    rw [tables] at ran
    unfold Db.insertStage at ran
    split at ran
    · contradiction
    · rename_i new
      have made := (Prod.mk.inj (Except.ok.inj ran)).2
      refine ⟨⟨step,made.symm⟩,fun s member named => ?_⟩
      rcases mem_append.mp member with old | last
      · exact absurd (any_eq_true.mpr ⟨s,old,by simpa using named⟩) new
      · exact mem_singleton.mp last
  intro _
  apply Meets.weaken (P := Pending) (C := Pending)
    (Q := fun stage m => Trail h releasing m₀ m ∧ ∀ input ∈ stage.inputs, ∃ scope, Live m.db scope input.1.id)
  · apply Meets.rescue
    · apply Meets.bind (areal_write areal (openArea_only stageId))
      intro _
      apply Meets.bind (Meets.each (I := fun _ => Pending) records fun artifact _ _ => stageInput_meets areal scope stageId artifact)
      intro _
      apply Meets.bind (M := fun _ m => Trail h releasing m₀ m ∧ m.db.artifacts = m₁.db.artifacts)
      · refine .write (fun _ held => held) fun m _ m' held done => ?_
        obtain ⟨⟨trail,tables⟩,only⟩ := held
        obtain ⟨r,ran,same⟩ := map_ok done
        obtain ⟨_,rfl⟩ := Prod.mk.inj same
        constructor
        · refine trail.step (.stageOpened stageId (fun s member named => ?_) ran)
          rw [tables] at member ⊢
          rw [only s member named]
          exact ⟨inputs,clear⟩
        · have made := (Prod.mk.inj (Except.ok.inj ran)).2
          show r.2.artifacts = m₁.db.artifacts
          rw [← made]
          show m.db.artifacts = m₁.db.artifacts
          rw [tables]
      intro _
      refine .pure fun m held => ⟨held.1,fun input member => ?_⟩
      obtain ⟨artifact,there,rfl⟩ := mem_map.mp member
      obtain ⟨inScope,r,mr,rest⟩ := (found artifact there).live shape₁
      exact ⟨inScope,r,held.2 ▸ mr,rest⟩
    · intro e
      apply Meets.bind (removeStage_meets areal stageId)
      intro _
      exact .throw fun _ held => held
  · exact fun _ held => held
  · exact fun _ _ held => held
  · exact fun _ held => held.1.1

theorem releaseStage_meets (allowed : releasing = true) (now : Stamp) (scope : ArtifactScope) (stageId : String) :
    Meets (Trail h releasing m₀) (releaseStage now scope stageId) (fun _ => Trail h releasing m₀) (Trail h releasing m₀) := by
  unfold releaseStage
  apply Meets.bind (M := fun _ => Trail h releasing m₀)
  · exact .lift (fun _ _ trail _ => trail) fun _ trail => trail
  intro _
  apply Meets.bind (M := fun _ => Trail h releasing m₀)
  · exact .lift (fun _ _ trail _ => trail) fun _ trail => trail
  intro _
  apply Meets.bind (M := fun _ => Trail h releasing m₀)
  · exact .look fun _ trail => trail
  intro there
  apply Meets.bind (M := fun _ => Trail h releasing m₀)
  · exact .guard (fun _ trail _ => trail) fun _ trail => trail
  intro _
  apply Meets.bind (M := fun _ => Trail h releasing m₀)
  · refine .write (fun _ trail => trail) fun m _ m' trail done => ?_
    obtain ⟨r,ran,same⟩ := map_ok done
    obtain ⟨_,rfl⟩ := Prod.mk.inj same
    exact trail.step (.stageReleased allowed stageId now ran)
  intro _
  exact removeStage_meets Trail.areal stageId

/-! Revocation. -/

/-- The erasures still to be carried out are those recorded. -/
def Waiting (h : Host) (releasing : Bool) (m₀ : Machine) (rest : List (String × Stamp)) (m : Machine) : Prop :=
  Trail h releasing m₀ m ∧ ∀ p ∈ rest, p ∈ m.db.pendingErasure

theorem Waiting.unneeded (sound : Sound h m₀) {rest : List (String × Stamp)} (waiting : Waiting h releasing m₀ rest m)
 (member : p ∈ rest) : Unneeded m p.1 := by
  have now_ := (waiting.1.keeps sound).1
  obtain ⟨r,mr,named,revoked⟩ := now_.settled.pending p (waiting.2 p member)
  intro q mq named'
  rw [now_.shape.unique mq mr (named'.trans named.symm)]
  exact revoked

theorem finishErasure_meets (sound : Sound h m₀) (p : String × Stamp) (rest : List (String × Stamp)) :
    Meets (Waiting h releasing m₀ (p :: rest)) (finishErasure p) (fun _ => Waiting h releasing m₀ rest)
      (Trail h releasing m₀) := by
  unfold finishErasure
  apply Meets.bind (M := fun _ => Waiting h releasing m₀ (p :: rest))
  · exact .lift (fun _ _ held _ => held) fun _ held => held.1
  intro _
  refine .named fun m₁ waiting => ?_
  have unneeded := waiting.unneeded sound mem_cons_self
  apply Meets.bind (M := fun _ => Sparing h releasing m₀ m₁.db p.1)
  · refine Meets.weaken removeFile_meets (fun m is_ => ?_) (fun _ _ held => held) fun _ held => held.1
    subst is_
    exact ⟨waiting.1,rfl,unneeded⟩
  intro _
  refine .write (fun _ held => held.1) fun m _ m' held done => ?_
  obtain ⟨trail,tables,unneeded⟩ := held
  obtain ⟨r,ran,same⟩ := map_ok done
  obtain ⟨_,rfl⟩ := Prod.mk.inj same
  refine ⟨trail.step (.redacted p.1 p.2 unneeded ran),fun q member => ?_⟩
  unfold Db.redacted at ran
  split at ran
  · have made := (Prod.mk.inj (Except.ok.inj ran)).2
    show q ∈ r.2.pendingErasure
    rw [← made]
    show q ∈ m.db.pendingErasure
    rw [tables]
    exact waiting.2 q (mem_cons_of_mem _ member)
  · contradiction

theorem scrub_meets : Meets (Trail h releasing m₀) scrub (fun _ => Trail h releasing m₀) (Trail h releasing m₀) := by
  refine .write (fun _ trail => trail) fun m _ m' trail done => ?_
  obtain ⟨r,ran,same⟩ := map_ok done
  obtain ⟨_,rfl⟩ := Prod.mk.inj same
  rw [← (Prod.mk.inj (Except.ok.inj ran)).2]
  exact trail

theorem finishErasures_meets (sound : Sound h m₀) :
    Meets (Trail h releasing m₀) finishErasures (fun _ => Trail h releasing m₀) (Trail h releasing m₀) := by
  unfold finishErasures
  apply Meets.bind (M := fun rows => Waiting h releasing m₀ rows)
  · exact .look fun m trail => ⟨trail,fun _ member => member⟩
  intro rows
  apply Meets.bind (M := fun _ => Trail h releasing m₀)
  · exact (Meets.each (I := Waiting h releasing m₀) rows fun p rest _ => finishErasure_meets sound p rest).post
      fun _ _ held => held.1
  intro _
  refine .when (fun _ => ?_) fun _ _ trail => trail
  apply Meets.bind scrub_meets
  intro _
  refine .write (fun _ trail => trail) fun m _ m' trail done => ?_
  obtain ⟨r,ran,same⟩ := map_ok done
  obtain ⟨_,rfl⟩ := Prod.mk.inj same
  exact trail.step (.forgotten _ ran)

theorem revocationGeneration_meets (ownerId : String) : Meets P (revocationGeneration ownerId) (fun _ => P) P:= by
  unfold revocationGeneration
  apply Meets.bind (M := fun _ => P)
  · exact .lift (fun _ _ holds _ => holds) fun _ holds => holds
  intro _
  exact .look fun _ holds => holds

theorem invalidate_meets (sound : Sound h m₀) (now : Stamp) (selector : ArtifactRevocation) (erase : Bool) :
    Meets (Trail h releasing m₀) (invalidate now selector erase)
      (fun _ m => Trail h releasing m₀ m ∧ Committed m.db selector) (Trail h releasing m₀) := by
  refine .named fun m₁ trail₁ => ?_
  unfold invalidate
  apply Meets.bind (M := fun _ m => m = m₁ ∧ selectable selector = .ok ())
  · exact .lift (fun _ _ held ok => ⟨held,ok⟩) fun _ held => held ▸ trail₁
  intro _
  refine .assume (fun _ held => held.2) fun valid => ?_
  apply Meets.bind (M := fun reach m => m = m₁ ∧ reach = m₁.db.reach selector)
  · refine .look fun m held => ⟨held.1,?_⟩
    rw [held.1]
  intro reach
  refine .assume (fun _ held => held.2) fun chosen => ?_
  subst chosen
  apply Meets.bind (M := fun _ m => Trail h releasing m₀ m ∧ Committed m.db selector)
  · refine .write (fun _ held => held.1 ▸ trail₁) fun m _ m' held done => ?_
    obtain ⟨rfl,_⟩ := held
    obtain ⟨r,ran,same⟩ := map_ok done
    obtain ⟨_,rfl⟩ := Prod.mk.inj same
    exact ⟨trail₁.step (.invalidated selector erase now valid ran),(invalidated_ok ran).committed⟩
  intro _
  -- What is cleaned up afterwards is a trail of its own.
  refine .named fun m₂ held₂ => ?_
  obtain ⟨trail₂,committed⟩ := held₂
  have sound₂ := (trail₂.keeps sound).1
  apply Meets.weaken (P := Trail h releasing m₂) (Q := fun _ => Trail h releasing m₂) (C := Trail h releasing m₂)
  · apply Meets.bind (cleanupRevokedStages_meets _)
    intro _
    apply Meets.bind (M := fun _ => Trail h releasing m₂)
    · exact .when (fun _ => finishErasures_meets sound₂) fun _ _ trail => trail
    intro _
    apply Meets.bind (revocationGeneration_meets _)
    intro generation
    exact .pure fun _ trail => trail
  · rintro m rfl
    exact .start
  · exact fun _ m trail => ⟨trail₂.trans trail,(trail.keeps sound₂).2.committed committed⟩
  · exact fun _ trail => trail₂.trans trail

theorem reopen_meets (sound : Sound h m₀) :
    Meets (Trail h releasing m₀) reopen (fun _ => Trail h releasing m₀) (Trail h releasing m₀) := by
  unfold reopen
  apply Meets.bind (M := fun _ => Trail h releasing m₀)
  · exact .note fun m trail => trail.step (.process false)
  intro _
  apply Meets.bind scrub_meets
  intro _
  apply Meets.bind (cleanupRevokedStages_meets none)
  intro _
  apply Meets.bind (finishErasures_meets sound)
  intro _
  exact .note fun m trail => trail.step (.process true)

/-! All calls. -/

/-- The artifacts an answer hands out. -/
def delivered : Call → Answer → List String
  | .read _ id,.bytes _ => [id]
  | _,.record r => [r.id]
  | _,.records rs => rs.map fun r => r.id
  | _,.stage s => s.inputs.map fun input => input.1.id
  | _,_ => []

def Call.releases : Call → Bool
  | .releaseStage _ _ => true
  | _ => false

/-- What a call ended with is live, and what it revoked is committed. -/
structure Answered (call : Call) (answer : Answer) (m : Machine) : Prop where
  live : ∀ id ∈ delivered call answer, ∃ scope, Live m.db scope id
  committed : ∀ selector erase, call = .invalidate selector erase → Committed m.db selector

theorem Answered.records {call : Call} {records : List ArtifactRecord} (shape : Shape m.db)
    (found : ∀ record ∈ records, Found m.db record) (other : ∀ selector erase, call ≠ .invalidate selector erase) :
    Answered call (.records records) m := by
  refine ⟨fun id member => ?_,fun selector erase is_ => absurd is_ (other selector erase)⟩
  have member : id ∈ records.map fun r => r.id := by
    cases call <;> exact member
  obtain ⟨record,there,rfl⟩ := mem_map.mp member
  exact (found record there).live shape

theorem Answered.record {call : Call} {record : ArtifactRecord} (live : ∃ scope, Live m.db scope record.id)
    (other : ∀ selector erase, call ≠ .invalidate selector erase) : Answered call (.record record) m := by
  refine ⟨fun id member => ?_,fun selector erase is_ => absurd is_ (other selector erase)⟩
  have member : id ∈ [record.id] := by
    cases call <;> exact member
  rw [mem_singleton.mp member]
  exact live

theorem Answered.stage {call : Call} {m : Machine} {stage : ArtifactStage}
    (live : ∀ input ∈ stage.inputs, ∃ scope, Live m.db scope input.1.id)
    (other : ∀ selector erase, call ≠ .invalidate selector erase) : Answered call (.stage stage) m := by
  refine ⟨fun id member => ?_,fun selector erase is_ => absurd is_ (other selector erase)⟩
  have member : id ∈ stage.inputs.map fun input => input.1.id := by
    cases call <;> exact member
  obtain ⟨input,there,rfl⟩ := mem_map.mp member
  exact live input there

theorem Answered.silent {call : Call} {answer : Answer} (none : delivered call answer = [])
    (other : ∀ selector erase, call ≠ .invalidate selector erase) : Answered call answer m := by
  refine ⟨fun id member => ?_,fun selector erase is_ => absurd is_ (other selector erase)⟩
  rw [none] at member
  contradiction

theorem ready_meets (meets : Meets P m Q C) (broken : ∀ m, P m → C m) : Meets P (ready m) Q C:= by
  unfold ready
  apply Meets.bind (M := fun _ => P)
  · exact .look fun _ holds => holds
  intro opened
  apply Meets.bind (M := fun _ => P)
  · exact .guard (fun _ holds _ => holds) broken
  intro _
  exact meets

/-- A call that only reads. -/
theorem reads_meets {α : Type} (sound : Sound h m₀) {call : Call} {f : Machine → Except String α} {answer : α → Answer}
    (right : ∀ m a, Sound h m → f m = .ok a → Answered call (answer a) m) :
    Meets (Trail h releasing m₀) (ready do return answer (← reading f))
      (fun a m => Trail h releasing m₀ m ∧ Answered call a m) (Trail h releasing m₀) := by
  apply ready_meets
  · apply Meets.bind (reading_meets fun _ trail => trail)
    intro a
    exact .pure fun m held => ⟨held.1,right m a (held.1.keeps sound).1 held.2⟩
  · exact fun _ trail => trail

theorem perform_meets (sound : Sound h m₀) (event : Call × Stamp) :
    Meets (Trail h event.1.releases m₀) (perform h event)
      (fun answer m => Trail h event.1.releases m₀ m ∧ Answered event.1 answer m) (Trail h event.1.releases m₀) := by
  obtain ⟨call,now⟩ := event
  have stays : ∀ m, Trail h call.releases m₀ m → Trail h call.releases m₀ m := fun _ trail => trail
  cases call with
  | reopen =>
    apply Meets.bind (reopen_meets sound)
    intro _
    exact .pure fun m trail => ⟨trail,.silent rfl fun _ _ => by simp⟩
  | dispose =>
    apply Meets.bind (M := fun _ => Trail h false m₀)
    · exact .note fun m trail => trail.step (.process false)
    intro _
    exact .pure fun m trail => ⟨trail,.silent rfl fun _ _ => by simp⟩
  | put input =>
    refine ready_meets ?_ stays
    apply Meets.bind (save_meets sound now input [] [])
    intro record
    exact .pure fun m held => ⟨held.1,.record held.2 fun _ _ => by simp⟩
  | copyIntoTask sourceScope id targetScope name sourceRef =>
    refine ready_meets ?_ stays
    apply Meets.bind (copyIntoTask_meets sound now sourceScope id targetScope name sourceRef)
    intro record
    exact .pure fun m held => ⟨held.1,.record held.2 fun _ _ => by simp⟩
  | get scope id =>
    exact reads_meets sound fun m record sound read => .record (Found.live sound.shape ⟨scope,id,read⟩) fun _ _ => by simp
  | read scope id =>
    refine reads_meets sound fun m bytes sound read => ⟨fun other member => ?_,fun _ _ no => by contradiction⟩
    unfold Machine.read at read
    obtain ⟨record,row,_⟩ := bind_ok read
    obtain ⟨r,mr,named,inScope,open_,_⟩ := row_ok row
    rw [mem_singleton.mp member]
    exact ⟨scope,r,mr,named,inScope,open_⟩
  | list scope =>
    exact reads_meets sound fun m records sound read => .records sound.shape (list_found read) fun _ _ => by simp
  | lineage scope id =>
    exact reads_meets sound fun m records sound read =>
      .records sound.shape (climb_found (fun _ no => absurd no (by simp)) read) fun _ _ => by simp
  | dependencies scope id =>
    exact reads_meets sound fun m records sound read => .records sound.shape (dependenciesOf_found read) fun _ _ => by simp
  | stageTask scope artifactIds =>
    refine ready_meets ?_ stays
    apply Meets.bind (stageTask_meets sound now scope artifactIds)
    intro stage
    exact .pure fun m held => ⟨held.1,.stage held.2 fun _ _ => by simp⟩
  | getStage scope stageId =>
    exact reads_meets sound fun m stage sound read =>
      .stage (fun input member => (getStage_found read input member).live sound.shape) fun _ _ => by simp
  | putOutput scope stageId file options =>
    refine ready_meets ?_ stays
    apply Meets.bind (putOutput_meets sound now scope stageId file options)
    intro record
    exact .pure fun m held => ⟨held.1,.record held.2 fun _ _ => by simp⟩
  | invalidate selector erase =>
    refine ready_meets ?_ stays
    apply Meets.bind (invalidate_meets sound now selector erase)
    intro result
    refine .pure fun m held => ⟨held.1,fun id no => absurd no (by simp [delivered]),fun selector' erase' is_ => ?_⟩
    cases is_
    exact held.2
  | revocationGeneration ownerId =>
    refine ready_meets ?_ stays
    apply Meets.bind (revocationGeneration_meets ownerId)
    intro n
    exact .pure fun m trail => ⟨trail,.silent rfl fun _ _ => by simp⟩
  | releaseStage scope stageId =>
    refine ready_meets ?_ stays
    apply Meets.bind (releaseStage_meets rfl now scope stageId)
    intro _
    exact .pure fun m trail => ⟨trail,.silent rfl fun _ _ => by simp⟩
  | runtime stageId area =>
    apply Meets.bind (M := fun _ => Trail h false m₀)
    · exact .note fun m trail => Trail.areal m stageId area trail
    intro _
    exact .pure fun m trail => ⟨trail,.silent rfl fun _ _ => by simp⟩

end Neurobro.Artifacts
