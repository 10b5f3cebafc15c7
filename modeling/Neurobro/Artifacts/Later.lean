import Neurobro.Artifacts.Withdrawals

/-! What is sound in a store, how a store goes on from another, and the changes of files
and stages that leave its artifacts alone. -/
namespace Neurobro.Artifacts

variable {h : Host}

/-- The file of an artifact holds its bytes, sealed with its record. -/
def Original (h : Host) (m : Machine) (record : ArtifactRecord) (bytes : Bytes) : Prop :=
  (∃ nonce, m.blob record.id = some (encrypt h nonce record bytes)) ∧ bytes.length = record.size ∧
    h.sha256 bytes = record.sha256 ∧ bytes.length ≤ h.maxBytes

structure Sound (h : Host) (m : Machine) : Prop where
  shape : Shape m.db
  settled : Settled m.db
  originals : ∀ r ∈ m.db.artifacts, r.revokedAt = none → ∃ bytes, Original h m r.record bytes

/-- The store has gone on: what can still be read is what it was, nothing new comes under
a committed selector, and generations only grow. -/
structure Later (m m' : Machine) : Prop where
  rows : ∀ r ∈ m.db.artifacts, ∃ r' ∈ m'.db.artifacts, r'.id = r.id ∧ r'.ownerId = r.ownerId ∧ (r'.revokedAt = none → r' = r)
  edges : ∃ more, m'.db.dependencies = m.db.dependencies ++ more ∧ ∀ d ∈ more, m.db.has d.artifactId = false
  tombstones : ∀ t ∈ m.db.tombstones, t ∈ m'.db.tombstones
  blobs : ∀ r ∈ m.db.artifacts, r ∈ m'.db.artifacts → r.revokedAt = none → m'.blob r.id = m.blob r.id
  stages : ∀ s ∈ m.db.stages, ∃ s' ∈ m'.db.stages, s'.id = s.id ∧ s'.ownerId = s.ownerId
  generation : ∀ owner, m.db.generation owner ≤ m'.db.generation owner
  under : ∀ selector, Committed m.db selector → ∀ id, Under m'.db selector id → Under m.db selector id

theorem Later.committed (later : Later m m') (committed : Committed m.db selector) : Committed m'.db selector:= by
  obtain ⟨t,member,rest⟩ := committed
  exact ⟨t,later.tombstones t member,rest⟩

theorem Later.has {m m' : Machine} (later : Later m m') {id : String} (known : m.db.has id = true) : m'.db.has id = true := by
  obtain ⟨r,member,named⟩ := has_iff.mp known
  obtain ⟨r',member',named',_⟩ := later.rows r member
  exact has_iff.mpr ⟨r',member',named'.trans named⟩

theorem Later.refl (m : Machine) : Later m m where
  rows r member := ⟨r,member,rfl,rfl,fun _ => rfl⟩
  edges := ⟨[],by simp,by simp⟩
  tombstones _ member := member
  blobs _ _ _ _ := rfl
  stages s member := ⟨s,member,rfl,rfl⟩
  generation _ := Nat.le_refl _
  under _ _ _ under := under

theorem Later.trans {m m' m'' : Machine} (first : Later m m') (second : Later m' m'') (shape : Shape m''.db) : Later m m'' := by
  constructor
  · intro r member
    obtain ⟨r',member',named,owner,same⟩ := first.rows r member
    obtain ⟨r'',member'',named',owner',same'⟩ := second.rows r' member'
    refine ⟨r'',member'',named'.trans named,owner'.trans owner,fun open_ => ?_⟩
    have still := same' open_
    rw [still] at open_
    exact still.trans (same open_)
  · obtain ⟨more,appended,apart⟩ := first.edges
    obtain ⟨more',appended',apart'⟩ := second.edges
    refine ⟨more ++ more',by rw [appended',appended,List.append_assoc],fun d member => ?_⟩
    rcases List.mem_append.mp member with early | late
    · exact apart d early
    · by_contra known
      have known : m.db.has d.artifactId = true := by simpa using known
      have gone := apart' d late
      rw [first.has known] at gone
      contradiction
  · exact fun t member => second.tombstones t (first.tombstones t member)
  · intro r member member'' open_
    obtain ⟨r',member',named,_,_⟩ := first.rows r member
    obtain ⟨q,mq,named',_,same⟩ := second.rows r' member'
    have here := shape.unique mq member'' (named'.trans named)
    subst here
    have back := same open_
    subst back
    exact (second.blobs q member' mq open_).trans (first.blobs q member member' open_)
  · intro s member
    obtain ⟨s',member',named,owner⟩ := first.stages s member
    obtain ⟨s'',member'',named',owner'⟩ := second.stages s' member'
    exact ⟨s'',member'',named'.trans named,owner'.trans owner⟩
  · exact fun owner => (first.generation owner).trans (second.generation owner)
  · exact fun selector committed id under =>
      first.under selector committed id (second.under selector (first.committed committed) id under)

/-! Steps that leave the tables of artifacts alone. -/

/-- Artifacts, edges and tombstones stay, and so do the files still needed. -/
structure Resting (m m' : Machine) : Prop where
  artifacts : m'.db.artifacts = m.db.artifacts
  dependencies : m'.db.dependencies = m.db.dependencies
  tombstones : m'.db.tombstones = m.db.tombstones
  generations : m'.db.generations = m.db.generations
  pending : ∀ p ∈ m'.db.pendingErasure, p ∈ m.db.pendingErasure
  blobs : ∀ r ∈ m.db.artifacts, r.revokedAt = none → (m.blob r.id).isSome → m'.blob r.id = m.blob r.id

theorem Original.moved {record : ArtifactRecord} {bytes : Bytes} (original : Original h m record bytes)
    (same : m'.blob record.id = m.blob record.id) : Original h m' record bytes := by
  obtain ⟨⟨nonce,there⟩,rest⟩ := original
  exact ⟨⟨nonce,same.trans there⟩,rest⟩

theorem Original.there {record : ArtifactRecord} {bytes : Bytes} (original : Original h m record bytes) :
    (m.blob record.id).isSome := by
  obtain ⟨⟨nonce,there⟩,_⟩ := original
  rw [there]
  rfl

theorem Resting.edge (resting : Resting m m') : Edge m'.db = Edge m.db := by
  unfold Edge
  rw [resting.dependencies,resting.artifacts]

theorem Resting.under (resting : Resting m m') : Under m'.db = Under m.db := by
  unfold Under Derives
  rw [resting.edge,resting.artifacts]

theorem Resting.withdrawn (resting : Resting m m') : Withdrawn m'.db = Withdrawn m.db := by
  unfold Withdrawn Committed
  rw [resting.under,resting.tombstones]

theorem Resting.shape (resting : Resting m m') (shape : Shape m.db) : Shape m'.db := by
  constructor
  · rw [resting.artifacts]; exact shape.ids
  · rw [resting.artifacts]; exact shape.filed
  · rw [resting.artifacts,resting.dependencies]; exact shape.younger
  · rw [resting.artifacts,resting.dependencies]; exact shape.parents

theorem Resting.live (resting : Resting m m') {scope : ArtifactScope} {id : String} (live : Live m.db scope id) :
    Live m'.db scope id := by
  unfold Live
  rw [resting.artifacts]
  exact live

/-- Only the stages have to be looked at. -/
theorem Resting.sound (resting : Resting m m') (sound : Sound h m)
    (stageIds : (m'.db.stages.map fun s => s.id).Nodup)
    (stages : ∀ s ∈ m'.db.stages, s.revokedAt = none →
      (∀ i ∈ s.inputIds, Live m.db s.scope i) ∧ m.db.isTombstoned s.scope none = false) : Sound h m' := by
  obtain ⟨shape,settled,originals⟩ := sound
  refine ⟨resting.shape shape,⟨?_,?_,?_,?_,?_,stageIds,?_⟩,?_⟩
  · rw [resting.artifacts,resting.dependencies]; exact settled.closed
  · rw [resting.artifacts,resting.tombstones]; exact settled.buried
  · rw [resting.artifacts,resting.withdrawn]; exact settled.justified
  · rw [resting.artifacts]; exact settled.erased
  · rw [resting.artifacts]; exact fun p member => settled.pending p (resting.pending p member)
  · intro s member open_
    obtain ⟨inputs,clear⟩ := stages s member open_
    refine ⟨fun i mi => resting.live (inputs i mi),?_⟩
    rw [isTombstoned_false,resting.tombstones]
    exact isTombstoned_false.mp clear
  · intro r member open_
    rw [resting.artifacts] at member
    obtain ⟨bytes,original⟩ := originals r member open_
    have named := (shape.filed r member).id
    refine ⟨bytes,original.moved ?_⟩
    have there := original.there
    rw [named] at there ⊢
    exact resting.blobs r member open_ there

theorem Resting.later (resting : Resting m m') (sound : Sound h m)
    (stages : ∀ s ∈ m.db.stages, ∃ s' ∈ m'.db.stages, s'.id = s.id ∧ s'.ownerId = s.ownerId) : Later m m' := by
  constructor
  · intro r member
    exact ⟨r,resting.artifacts ▸ member,rfl,rfl,fun _ => rfl⟩
  · exact ⟨[],by simp [resting.dependencies],by simp⟩
  · intro t member
    rw [resting.tombstones]
    exact member
  · intro r member _ open_
    obtain ⟨bytes,original⟩ := sound.originals r member open_
    apply resting.blobs r member open_
    rw [← (sound.shape.filed r member).id]
    exact original.there
  · exact stages
  · intro owner
    unfold Db.generation
    rw [resting.generations]
  · intro selector _ id under
    rw [resting.under] at under
    exact under

/-- The tables are not touched at all. -/
theorem Sound.untouched (sound : Sound h m) (db : m'.db = m.db)
    (blobs : ∀ r ∈ m.db.artifacts, r.revokedAt = none → (m.blob r.id).isSome → m'.blob r.id = m.blob r.id) :
    Sound h m' ∧ Later m m' := by
  have resting : Resting m m' := ⟨by rw [db],by rw [db],by rw [db],by rw [db],by rw [db]; exact fun _ member => member,blobs⟩
  constructor
  · apply resting.sound sound
    · rw [db]; exact sound.settled.stageIds
    · rw [db]; exact sound.settled.stages
  · apply resting.later sound
    rw [db]
    exact fun s member => ⟨s,member,rfl,rfl⟩

theorem blob_created {m : Machine} {id other : String} (there : (m.blob other).isSome) :
    Machine.blob { m with blobs := m.blobs ++ [(id,[])] } other = m.blob other := by
  unfold Machine.blob at there ⊢
  rw [List.find?_append]
  cases found : m.blobs.find? fun b => b.1 = other with
  | none => rw [found] at there; contradiction
  | some b => rfl

theorem blob_filled {m : Machine} {id : String} (bytes : Bytes) (other : String) :
    Machine.blob { m with blobs := m.blobs.map fun b => if b.1 = id then (id,bytes) else b } other =
      if other = id then (m.blob other).map fun _ => bytes else m.blob other := by
  unfold Machine.blob
  dsimp only
  rw [List.find?_map]
  have same : ((fun b : String × Bytes => decide (b.1 = other)) ∘ fun b => if b.1 = id then (id,bytes) else b) =
      fun b => decide (b.1 = other) := by
    funext b
    by_cases at_ : b.1 = id
    · simp [at_]
    · simp [at_]
  rw [same]
  cases found : m.blobs.find? fun b => b.1 = other with
  | none => simp
  | some b =>
    have named : b.1 = other := by simpa using List.find?_some found
    by_cases at_ : other = id
    · simp [named,at_]
    · simp [named,at_]

theorem blob_unlinked {m : Machine} {id other : String} (apart : other ≠ id) :
    Machine.blob { m with blobs := m.blobs.filter fun b => !decide (b.1 = id) } other = m.blob other := by
  unfold Machine.blob
  dsimp only
  rw [List.find?_filter]
  congr 2
  funext b
  by_cases at_ : b.1 = other
  · simp [at_,apart]
  · simp [at_]

end Neurobro.Artifacts
