import Neurobro.Artifacts.Service

/-! What the transactions of the artifact store do to its rows. -/
namespace Neurobro.Artifacts

open List

variable {db db' : Db}

/-! Saving. -/

def Db.withArtifact (db : Db) (record : ArtifactRecord) (inputIds : List String) : Db :=
  { db with artifacts := db.artifacts ++ [record.row],
            dependencies := db.dependencies ++ inputIds.eraseDups.map fun inputId => ⟨record.id,inputId⟩ }

theorem insertDependencies_ok {id : String} {inputIds : List String}
    (done : inputIds.foldlM (fun db inputId => Db.insertDependency db ⟨id,inputId⟩) db = .ok db') :
    db' = { db with dependencies := db.dependencies ++ inputIds.map fun inputId => ⟨id,inputId⟩ } := by
  induction inputIds generalizing db with
  | nil =>
    cases Except.ok.inj done
    simp
  | cons inputId rest ih =>
    rw [foldlM_cons] at done
    obtain ⟨middle,first,later⟩ := bind_ok done
    unfold Db.insertDependency at first
    split at first
    · contradiction
    · split at first
      · contradiction
      · cases Except.ok.inj first
        rw [ih later]
        simp

theorem saved_ok {record : ArtifactRecord} {inputIds : List String} (done : db.saved record inputIds = .ok ((),db')) :
    db.has record.id = false ∧ db' = db.withArtifact record inputIds := by
  unfold Db.saved at done
  obtain ⟨db₁,inserted,later⟩ := bind_ok done
  obtain ⟨db₂,linked,last⟩ := bind_ok later
  obtain ⟨_,same⟩ := Prod.mk.inj (Except.ok.inj last)
  subst same
  unfold Db.insertArtifact at inserted
  split at inserted
  · contradiction
  · rename_i absent
    split at inserted
    · contradiction
    · cases Except.ok.inj inserted
      exact ⟨by simpa using absent,insertDependencies_ok linked⟩

theorem has_iff {id : String} : db.has id = true ↔ ∃ r ∈ db.artifacts, r.id = id := by simp [Db.has]

theorem has_false {id : String} : db.has id = false ↔ ∀ r ∈ db.artifacts, r.id ≠ id := by simp [Db.has]

/-! Revocation. -/

def revokedRow (ids : List String) (at_ : Stamp) (r : ArtifactRow) : ArtifactRow :=
  if r.id ∈ ids ∧ r.revokedAt = none then { r with revokedAt := some at_ } else r

def revokedStage (ids : List String) (at_ : Stamp) (s : StageRow) : StageRow :=
  if s.id ∈ ids then { s with revokedAt := some at_ } else s

/-- Apart from when it was revoked, a row is what it was. -/
theorem revokedRow_same (ids : List String) (at_ : Stamp) (r : ArtifactRow) :
    (revokedRow ids at_ r).id = r.id ∧ (revokedRow ids at_ r).ownerId = r.ownerId ∧ (revokedRow ids at_ r).taskId = r.taskId ∧
      (revokedRow ids at_ r).parentId = r.parentId ∧ (revokedRow ids at_ r).sourceRef = r.sourceRef ∧
      (revokedRow ids at_ r).record = r.record ∧ (revokedRow ids at_ r).erasedAt = r.erasedAt := by
  unfold revokedRow
  split <;> simp

theorem revokedRow_revoked {ids : List String} :
    (revokedRow ids at_ r).revokedAt ≠ none ↔ r.revokedAt ≠ none ∨ r.id ∈ ids := by
  unfold revokedRow
  by_cases newly : r.id ∈ ids ∧ r.revokedAt = none
  · simp [newly]
  · rw [if_neg newly]
    constructor
    · exact fun revoked => .inl revoked
    · rintro (revoked | reached)
      · exact revoked
      · exact fun open_ => newly ⟨reached,open_⟩

theorem revokedRow_open {ids : List String} (open_ : (revokedRow ids at_ r).revokedAt = none) :
    revokedRow ids at_ r = r := by
  unfold revokedRow at open_ ⊢
  split at open_
  · contradiction
  · rw [if_neg ‹_›]

theorem revokedStage_same (ids : List String) (at_ : Stamp) (s : StageRow) :
    (revokedStage ids at_ s).id = s.id ∧ (revokedStage ids at_ s).ownerId = s.ownerId ∧
      (revokedStage ids at_ s).taskId = s.taskId ∧ (revokedStage ids at_ s).inputIds = s.inputIds := by
  unfold revokedStage
  split <;> simp

theorem revokedStage_open {ids : List String} (open_ : (revokedStage ids at_ s).revokedAt = none) :
    revokedStage ids at_ s = s ∧ s.id ∉ ids := by
  unfold revokedStage at open_ ⊢
  split at open_
  · contradiction
  · rename_i apart
    simp [apart]

theorem bury_tombstones : t' ∈ (db.bury t).tombstones ↔
    t' ∈ db.tombstones ∨ (t' = t ∧ ∀ u ∈ db.tombstones, ¬u.sameKey t) := by
  unfold Db.bury
  split
  · rename_i there
    obtain ⟨u,member,same⟩ := by simpa using there
    constructor
    · exact fun member => .inl member
    · rintro (member' | ⟨_,none⟩)
      · exact member'
      · exact absurd same (none u member)
  · rename_i none
    have none : ∀ u ∈ db.tombstones, ¬u.sameKey t := by simpa using none
    simp only [mem_append,mem_singleton]
    constructor
    · rintro (member | same)
      · exact .inl member
      · exact .inr ⟨same,none⟩
    · rintro (member | ⟨same,_⟩)
      · exact .inl member
      · exact .inr same

@[simp] theorem bury_rest {t : Tombstone} : (db.bury t).artifacts = db.artifacts ∧
    (db.bury t).dependencies = db.dependencies ∧ (db.bury t).stages = db.stages ∧
    (db.bury t).generations = db.generations ∧ (db.bury t).pendingErasure = db.pendingErasure := by
  unfold Db.bury
  split <;> simp

@[simp] theorem bumpGeneration_rest {ownerId : String} : (db.bumpGeneration ownerId).artifacts = db.artifacts ∧
    (db.bumpGeneration ownerId).dependencies = db.dependencies ∧ (db.bumpGeneration ownerId).stages = db.stages ∧
    (db.bumpGeneration ownerId).tombstones = db.tombstones ∧
    (db.bumpGeneration ownerId).pendingErasure = db.pendingErasure := by
  unfold Db.bumpGeneration
  split <;> simp

theorem insertPendings_rest (at_ : Stamp) (ids : List String) (db : Db) :
    let db' := ids.foldl (Db.insertPending at_) db
    db'.artifacts = db.artifacts ∧ db'.dependencies = db.dependencies ∧ db'.stages = db.stages ∧
      db'.tombstones = db.tombstones ∧ db'.generations = db.generations := by
  induction ids generalizing db with
  | nil => simp
  | cons id rest ih =>
    have step : (db.insertPending at_ id).artifacts = db.artifacts ∧ (db.insertPending at_ id).dependencies = db.dependencies ∧
        (db.insertPending at_ id).stages = db.stages ∧ (db.insertPending at_ id).tombstones = db.tombstones ∧
        (db.insertPending at_ id).generations = db.generations := by
      unfold Db.insertPending
      split <;> simp
    obtain ⟨a,b,c,d,e⟩ := step
    obtain ⟨a',b',c',d',e'⟩ := ih (db.insertPending at_ id)
    exact ⟨a'.trans a,b'.trans b,c'.trans c,d'.trans d,e'.trans e⟩

theorem insertPendings_pending {ids : List String}
    (member : p ∈ (ids.foldl (Db.insertPending at_) db).pendingErasure) : p ∈ db.pendingErasure ∨ p.1 ∈ ids := by
  induction ids generalizing db with
  | nil => exact .inl member
  | cons id rest ih =>
    have member : p ∈ (rest.foldl (Db.insertPending at_) (db.insertPending at_ id)).pendingErasure := member
    rcases ih member with old | later
    · unfold Db.insertPending at old
      split at old
      · exact .inl old
      · rcases mem_append.mp old with old | new
        · exact .inl old
        · cases mem_singleton.mp new
          exact .inr mem_cons_self
    · exact .inr (mem_cons_of_mem _ later)

theorem find_bumped (gs : List (String × Nat)) (ownerId other : String) :
    (gs.map fun g => if g.1 = ownerId then (g.1,g.2 + 1) else g).find? (fun g => g.1 = other) =
      (gs.find? fun g => g.1 = other).map fun g => if g.1 = ownerId then (g.1,g.2 + 1) else g := by
  rw [List.find?_map]
  congr 2
  funext g
  by_cases own : g.1 = ownerId
  · simp [own]
  · simp [own]

theorem generation_bumped (ownerId other : String) :
    (db.bumpGeneration ownerId).generation other = db.generation other + if other = ownerId then 1 else 0 := by
  unfold Db.bumpGeneration Db.generation
  by_cases there : (db.generations.any fun g => g.1 = ownerId) = true
  · rw [if_pos there]
    dsimp only
    rw [find_bumped]
    cases found : db.generations.find? fun g => g.1 = other with
    | none =>
      have apart : other ≠ ownerId := by
        rintro rfl
        rw [List.find?_eq_none] at found
        obtain ⟨g,member,same⟩ := any_eq_true.mp there
        exact found g member same
      simp [apart]
    | some g =>
      have named : g.1 = other := by simpa using List.find?_some found
      by_cases own : other = ownerId
      · simp [named,own]
      · simp [named,own]
  · rw [if_neg there]
    dsimp only
    rw [List.find?_append]
    by_cases own : other = ownerId
    · subst own
      have none : db.generations.find? (fun g => decide (g.1 = other)) = none := by
        rw [List.find?_eq_none]
        intro g member same
        exact there (any_eq_true.mpr ⟨g,member,same⟩)
      simp [none]
    · have apart : ¬ownerId = other := fun same => own same.symm
      simp [own,apart]

/-- A revocation, table by table. -/
structure Invalidated (selector : ArtifactRevocation) (now : Stamp) (db db' : Db) : Prop where
  artifacts : db'.artifacts = db.artifacts.map (revokedRow (db.reach selector).ids now)
  dependencies : db'.dependencies = db.dependencies
  stages : db'.stages = db.stages.map (revokedStage ((db.reach selector).stages.map fun s => s.id) now)
  tombstones : ∀ t, t ∈ db'.tombstones ↔
    t ∈ db.tombstones ∨ (t = selector.tombstone now ∧ ∀ u ∈ db.tombstones, ¬u.sameKey (selector.tombstone now))
  pending : ∀ p ∈ db'.pendingErasure, p ∈ db.pendingErasure ∨ p.1 ∈ (db.reach selector).ids
  generation : ∀ owner, db'.generation owner =
    db.generation owner + if owner = selector.ownerId ∧ db.news (db.reach selector) (selector.tombstone now) = true then 1 else 0

theorem invalidated_ok {erase : Bool} {now : Stamp}
    (done : db.invalidated selector erase now (db.reach selector) = .ok ((),db')) : Invalidated selector now db db' := by
  unfold Db.invalidated at done
  obtain ⟨_,same⟩ := Prod.mk.inj (Except.ok.inj done)
  generalize middle : (((db.bury (selector.tombstone now)).revokeArtifacts (db.reach selector).ids now).revokeStages
    ((db.reach selector).stages.map fun s => s.id) now) = revoked at same
  obtain ⟨buriedRows,buriedEdges,buriedStages,buriedGenerations,buriedPending⟩ :=
    @bury_rest db (selector.tombstone now)
  have pendingRest : ∀ p, (if erase then (db.reach selector).ids.foldl (Db.insertPending now) revoked else revoked) = p →
      p.artifacts = revoked.artifacts ∧ p.dependencies = revoked.dependencies ∧ p.stages = revoked.stages ∧
        p.tombstones = revoked.tombstones ∧ p.generations = revoked.generations ∧
        ∀ q ∈ p.pendingErasure, q ∈ revoked.pendingErasure ∨ q.1 ∈ (db.reach selector).ids := by
    rintro p rfl
    split
    · obtain ⟨a,b,c,d,e⟩ := insertPendings_rest now (db.reach selector).ids revoked
      exact ⟨a,b,c,d,e,fun q member => insertPendings_pending member⟩
    · exact ⟨rfl,rfl,rfl,rfl,rfl,fun q member => .inl member⟩
  generalize pended : (if erase then (db.reach selector).ids.foldl (Db.insertPending now) revoked else revoked) = pending at same
  obtain ⟨rows,edges,stages,tombs,generations,waiting⟩ := pendingRest pending pended
  have generationsSame : ∀ owner, pending.generation owner = db.generation owner := by
    intro owner
    unfold Db.generation
    rw [generations,← middle]
    exact congrArg (fun gs : List (String × Nat) => ((gs.find? fun g => g.1 = owner).map Prod.snd).getD 0) buriedGenerations
  have revokedRows : revoked.artifacts = db.artifacts.map (revokedRow (db.reach selector).ids now) := by
    rw [← middle]
    exact congrArg _ buriedRows
  have revokedStages : revoked.stages = db.stages.map (revokedStage ((db.reach selector).stages.map fun s => s.id) now) := by
    rw [← middle]
    exact congrArg _ buriedStages
  have revokedEdges : revoked.dependencies = db.dependencies := by rw [← middle]; exact buriedEdges
  have revokedTombs : revoked.tombstones = (db.bury (selector.tombstone now)).tombstones := by rw [← middle]; rfl
  have revokedPending : revoked.pendingErasure = db.pendingErasure := by rw [← middle]; exact buriedPending
  by_cases newly : db.news (db.reach selector) (selector.tombstone now) = true
  · rw [if_pos newly] at same
    subst same
    obtain ⟨a,b,c,d,e⟩ := @bumpGeneration_rest pending selector.ownerId
    constructor
    · rw [a,rows,revokedRows]
    · rw [b,edges,revokedEdges]
    · rw [c,stages,revokedStages]
    · intro t
      rw [d,tombs,revokedTombs]
      exact bury_tombstones
    · intro p member
      rw [e] at member
      rw [← revokedPending]
      exact waiting p member
    · intro owner
      rw [generation_bumped,generationsSame]
      simp [newly]
  · rw [if_neg newly] at same
    subst same
    constructor
    · rw [rows,revokedRows]
    · rw [edges,revokedEdges]
    · rw [stages,revokedStages]
    · intro t
      rw [tombs,revokedTombs]
      exact bury_tombstones
    · intro p member
      rw [← revokedPending]
      exact waiting p member
    · intro owner
      simp [newly,generationsSame]

end Neurobro.Artifacts
