import Neurobro.Artifacts.Later

/-! Every durable step of every call as one relation, and what a trail of such steps
keeps. -/
namespace Neurobro.Artifacts

open Durable List

variable {h : Host}

/-- No artifact that can be read is stored under the name. -/
def Unneeded (m : Machine) (id : String) : Prop := ∀ r ∈ m.db.artifacts, r.id = id → r.revokedAt ≠ none

/-- One durable step, or one note of the process, with what was checked before it. The
flag tells whether stages may be released. -/
inductive Change (h : Host) (releasing : Bool) : Machine → Machine → Prop where
  | process {m : Machine} (opened : Bool) : Change h releasing m { m with opened := opened }
  | drew {m : Machine} : Change h releasing m { m with drawn := m.drawn + 1 }
  | area {m : Machine} (stageId : String) (area : Option Area) : Change h releasing m (m.setArea stageId area)
  | created {m : Machine} (id : String) (absent : m.blob id = none) :
      Change h releasing m { m with blobs := m.blobs ++ [(id,[])] }
  | filled {m : Machine} (id : String) (bytes : Bytes) (unneeded : Unneeded m id) :
      Change h releasing m { m with blobs := m.blobs.map fun b => if b.1 = id then (id,bytes) else b }
  | unlinked {m : Machine} (id : String) (unneeded : Unneeded m id) :
      Change h releasing m { m with blobs := m.blobs.filter fun b => !decide (b.1 = id) }
  | saved {m : Machine} {db : Db} (record : ArtifactRecord) (inputIds : List String) (bytes : Bytes)
      (savable : Savable m.db record inputIds) (original : Original h m record bytes)
      (done : m.db.saved record inputIds = .ok ((),db)) : Change h releasing m { m with db := db }
  | staged {m : Machine} {db : Db} (s : StageRow) (pending : s.revokedAt ≠ none) (done : m.db.insertStage s = .ok ((),db)) :
      Change h releasing m { m with db := db }
  | stageOpened {m : Machine} {db : Db} (id : String) (inOrder : ∀ s ∈ m.db.stages, s.id = id →
        (∀ i ∈ s.inputIds, Live m.db s.scope i) ∧ m.db.isTombstoned s.scope none = false)
      (done : m.db.setStage id none = .ok ((),db)) : Change h releasing m { m with db := db }
  | stageReleased {m : Machine} {db : Db} (allowed : releasing = true) (id : String) (now : Stamp)
      (done : m.db.setStage id (some now) = .ok ((),db)) : Change h releasing m { m with db := db }
  | invalidated {m : Machine} {db : Db} (selector : ArtifactRevocation) (erase : Bool) (now : Stamp)
      (valid : selectable selector = .ok ())
      (done : m.db.invalidated selector erase now (m.db.reach selector) = .ok ((),db)) : Change h releasing m { m with db := db }
  | redacted {m : Machine} {db : Db} (id : String) (at_ : Stamp) (unneeded : Unneeded m id)
      (done : m.db.redacted id at_ = .ok ((),db)) : Change h releasing m { m with db := db }
  | forgotten {m : Machine} {db : Db} (ids : List String) (done : m.db.forgetPending ids = .ok ((),db)) :
      Change h releasing m { m with db := db }

/-! The steps one by one. -/

theorem Sound.saved {record : ArtifactRecord} {bytes : Bytes} (sound : Sound h m)
    (savable : Savable m.db record inputIds) (original : Original h m record bytes) (fresh : m.db.has record.id = false) :
    Sound h { m with db := m.db.withArtifact record inputIds } := by
  refine ⟨sound.shape.saved fresh savable,sound.settled.saved sound.shape fresh savable,fun r member open_ => ?_⟩
  rcases mem_withArtifact.mp member with old | rfl
  · obtain ⟨bytes',sealed⟩ := sound.originals r old open_
    exact ⟨bytes',sealed.moved rfl⟩
  · exact ⟨bytes,original.moved rfl⟩

/-- A new artifact comes under no committed selector, and takes none along. -/
theorem Sound.under_kept {record : ArtifactRecord} (sound : Sound h m)
    (savable : Savable m.db record inputIds) (fresh : m.db.has record.id = false)
    (committed : Committed m.db selector) {id : String} (under : Under (m.db.withArtifact record inputIds) selector id) :
    Under m.db selector id := by
  obtain ⟨root,member,matched,derives⟩ := under
  have shape := sound.shape.saved fresh savable
  rcases mem_withArtifact.mp member with old | rfl
  · induction derives with
    | refl => exact ⟨root,old,matched,.refl⟩
    | tail _ edge ih =>
      rcases mem_withDependencies.mp (shape.edge.mp edge) with dependency | ⟨_,input⟩
      · obtain ⟨root,old,matched,derives⟩ := ih
        exact ⟨root,old,matched,derives.tail (sound.shape.edge.mpr dependency)⟩
      · obtain ⟨q,mq,rfl,_,open_⟩ := savable.inputs _ input
        exact absurd open_ (sound.settled.under_revoked sound.shape committed mq ih)
  · obtain ⟨t,mt,owner,task,source⟩ := committed
    exact absurd (covers_of_matches matched owner task source) (isTombstoned_false.mp savable.open_ t mt)

theorem Sound.saved_later {record : ArtifactRecord} (sound : Sound h m)
    (savable : Savable m.db record inputIds) (fresh : m.db.has record.id = false) :
    Later m { m with db := m.db.withArtifact record inputIds } := by
  constructor
  · exact fun r member => ⟨r,mem_withArtifact.mpr (.inl member),rfl,rfl,fun _ => rfl⟩
  · refine ⟨_,rfl,fun d member => ?_⟩
    obtain ⟨_,_,rfl⟩ := mem_map.mp member
    exact fresh
  · exact fun t member => member
  · exact fun _ _ _ _ => rfl
  · exact fun s member => ⟨s,member,rfl,rfl⟩
  · exact fun _ => Nat.le_refl _
  · exact fun selector committed id under => sound.under_kept savable fresh committed under

theorem Sound.invalidated {now : Stamp} (sound : Sound h m)
    (valid : selectable selector = .ok ()) (done : Invalidated selector now m.db db) :
    Sound h { m with db := db } ∧ Later m { m with db := db } := by
  have re := revokedRow_reshaped done
  constructor
  · refine ⟨re.shape sound.shape,sound.settled.invalidated sound.shape valid done,fun r' member open_ => ?_⟩
    obtain ⟨r,there,rfl⟩ := re.mem member
    have same := revokedRow_open open_
    rw [same] at open_ ⊢
    obtain ⟨bytes,original⟩ := sound.originals r there open_
    exact ⟨bytes,original.moved rfl⟩
  · constructor
    · intro r member
      exact ⟨_,re.into member,(re.same r).1,congrArg ArtifactScope.ownerId (re.same r).2.1,revokedRow_open⟩
    · exact ⟨[],by simp [done.dependencies],by simp⟩
    · exact fun t member => (done.tombstones t).mpr (.inl member)
    · exact fun _ _ _ _ => rfl
    · intro s member
      obtain ⟨id,owner,_⟩ := revokedStage_same ((m.db.reach selector).stages.map fun s => s.id) now s
      exact ⟨_,done.stages ▸ mem_map_of_mem member,id,owner⟩
    · intro owner
      have grown := done.generation owner
      show m.db.generation owner ≤ db.generation owner
      omega
    · exact fun other _ id under => re.under.mp under

def redactedRow (id : String) (at_ : Stamp) (r : ArtifactRow) : ArtifactRow :=
  if r.id = id then { r with record := { r.record with name := "[erased]" }, erasedAt := some at_ } else r

theorem redactedRow_reshaped (db : Db) (id : String) (at_ : Stamp) :
    Reshaped (redactedRow id at_) db { db with artifacts := db.artifacts.map (redactedRow id at_) } := by
  refine ⟨rfl,rfl,fun r => ?_,fun r filed => ?_⟩
  · unfold redactedRow
    split <;> simp [ArtifactRow.scope]
  · unfold redactedRow
    split
    · exact ⟨filed.id,filed.owner,filed.task,filed.parent,filed.source,filed.shaped,filed.valid⟩
    · exact filed

theorem redactedRow_revoked (id : String) (at_ : Stamp) (r : ArtifactRow) :
    (redactedRow id at_ r).revokedAt = r.revokedAt := by
  unfold redactedRow
  split <;> rfl

theorem Sound.redacted (sound : Sound h m) (id : String) (at_ : Stamp) (unneeded : Unneeded m id) : let m' : Machine:= { m with db := { m.db with artifacts := m.db.artifacts.map (redactedRow id at_) } }
    Sound h m' ∧ Later m m' := by
  have re := redactedRow_reshaped m.db id at_
  -- Only rows that are revoked are touched.
  have kept {r : ArtifactRow} (member : r ∈ m.db.artifacts) (open_ : r.revokedAt = none) : redactedRow id at_ r = r := by
    unfold redactedRow
    rw [if_neg fun named => unneeded r member named open_]
  have open_iff (r : ArtifactRow) : (redactedRow id at_ r).revokedAt = none ↔ r.revokedAt = none := by
    rw [redactedRow_revoked]
  obtain ⟨shape,settled,originals⟩ := sound
  constructor
  · refine ⟨re.shape shape,⟨?_,?_,?_,?_,?_,settled.stageIds,?_⟩,?_⟩
    · intro d md i' mi' a' ma' namedI namedA revoked
      obtain ⟨i,mi,rfl⟩ := re.mem mi'
      obtain ⟨a,ma,rfl⟩ := re.mem ma'
      rw [(re.same _).1] at namedI namedA
      rw [redactedRow_revoked] at revoked ⊢
      exact settled.closed d md i mi a ma namedI namedA revoked
    · intro t mt r' mr' covered
      obtain ⟨r,mr,rfl⟩ := re.mem mr'
      rw [(re.same r).2.1,(re.same r).2.2.2] at covered
      rw [redactedRow_revoked]
      exact settled.buried t mt r mr covered
    · intro r' mr' revoked
      obtain ⟨r,mr,rfl⟩ := re.mem mr'
      rw [redactedRow_revoked] at revoked
      rw [(re.same r).1]
      obtain ⟨selector,committed,under⟩ := settled.justified r mr revoked
      exact ⟨selector,committed,re.under.mpr under⟩
    · intro r' mr' erased
      obtain ⟨r,mr,rfl⟩ := re.mem mr'
      rw [redactedRow_revoked]
      by_cases named : r.id = id
      · exact unneeded r mr named
      · have same : redactedRow id at_ r = r := by simp [redactedRow,named]
        rw [same] at erased
        exact settled.erased r mr erased
    · intro p mp
      obtain ⟨r,mr,named,revoked⟩ := settled.pending p mp
      exact ⟨_,re.into mr,(re.same r).1.trans named,by rw [redactedRow_revoked]; exact revoked⟩
    · intro s ms open_
      obtain ⟨inputs,clear⟩ := settled.stages s ms open_
      refine ⟨fun i mi => ?_,clear⟩
      obtain ⟨r,mr,named,scope,alive⟩ := inputs i mi
      exact ⟨r,kept mr alive ▸ re.into mr,named,scope,alive⟩
    · intro r' mr' open_
      obtain ⟨r,mr,rfl⟩ := re.mem mr'
      have alive := (open_iff r).mp open_
      rw [kept mr alive]
      obtain ⟨bytes,original⟩ := originals r mr alive
      exact ⟨bytes,original.moved rfl⟩
  · constructor
    · intro r member
      exact ⟨_,re.into member,(re.same r).1,congrArg ArtifactScope.ownerId (re.same r).2.1,
        fun open_ => kept member ((open_iff r).mp open_)⟩
    · exact ⟨[],by simp,by simp⟩
    · exact fun t member => member
    · exact fun _ _ _ _ => rfl
    · exact fun s member => ⟨s,member,rfl,rfl⟩
    · exact fun _ => Nat.le_refl _
    · exact fun other _ id under => re.under.mp under

/-- A stage is given another revocation. -/
theorem Sound.stageSet (sound : Sound h m) (id : String) (revokedAt : Option Stamp)
    (done : m.db.setStage id revokedAt = .ok ((),db)) (inOrder : revokedAt = none → ∀ s ∈ m.db.stages, s.id = id →
      (∀ i ∈ s.inputIds, Live m.db s.scope i) ∧ m.db.isTombstoned s.scope none = false) :
    Sound h { m with db := db } ∧ Later m { m with db := db } := by
  obtain ⟨_,same⟩ := Prod.mk.inj (Except.ok.inj done)
  subst same
  have resting : Resting m { m with db := { m.db with stages := m.db.stages.map fun s =>
      if s.id = id then { s with revokedAt := revokedAt } else s } } :=
    ⟨rfl,rfl,rfl,rfl,fun _ member => member,fun _ _ _ _ => rfl⟩
  constructor
  · apply resting.sound sound
    · show ((m.db.stages.map fun s => if s.id = id then { s with revokedAt := revokedAt } else s).map fun s => s.id).Nodup
      rw [map_map]
      have ids : ((fun s : StageRow => s.id) ∘ fun s => if s.id = id then { s with revokedAt := revokedAt } else s) =
          fun s => s.id := by
        funext s
        by_cases named : s.id = id
        · simp [named]
        · simp [named]
      rw [ids]
      exact sound.settled.stageIds
    · intro s' member open_
      obtain ⟨s,ms,rfl⟩ := mem_map.mp member
      by_cases named : s.id = id
      · rw [if_pos named] at open_ ⊢
        exact inOrder open_ s ms named
      · rw [if_neg named] at open_ ⊢
        exact sound.settled.stages s ms open_
  · apply resting.later sound
    intro s member
    refine ⟨_,mem_map_of_mem member,?_⟩
    by_cases named : s.id = id
    · simp [named]
    · simp [named]

theorem Change.keeps (change : Change h releasing m m') (sound : Sound h m) : Sound h m' ∧ Later m m':= by
  cases change with
  | process opened => exact sound.untouched rfl fun _ _ _ _ => rfl
  | drew => exact sound.untouched rfl fun _ _ _ _ => rfl
  | area stageId area => exact sound.untouched rfl fun _ _ _ _ => rfl
  | created id absent => exact sound.untouched rfl fun r _ _ there => blob_created there
  | filled id bytes unneeded =>
    refine sound.untouched rfl fun r member open_ _ => ?_
    rw [blob_filled,if_neg fun named => unneeded r member named open_]
  | unlinked id unneeded =>
    exact sound.untouched rfl fun r member open_ _ => blob_unlinked fun named => unneeded r member named open_
  | saved record inputIds bytes savable original done =>
    obtain ⟨fresh,rfl⟩ := saved_ok done
    exact ⟨sound.saved savable original fresh,sound.saved_later savable fresh⟩
  | staged s pending done =>
    unfold Db.insertStage at done
    split at done
    · contradiction
    · rename_i new
      obtain ⟨_,same⟩ := Prod.mk.inj (Except.ok.inj done)
      subst same
      have resting : Resting m { m with db := { m.db with stages := m.db.stages ++ [s] } } :=
        ⟨rfl,rfl,rfl,rfl,fun _ member => member,fun _ _ _ _ => rfl⟩
      constructor
      · apply resting.sound sound
        · show ((m.db.stages ++ [s]).map fun s => s.id).Nodup
          rw [map_append]
          apply List.Nodup.append sound.settled.stageIds (nodup_singleton _)
          intro id there here
          obtain ⟨s',member,rfl⟩ := mem_map.mp there
          exact new (any_eq_true.mpr ⟨s',member,by simpa using mem_singleton.mp here⟩)
        · intro s' member open_
          rcases mem_append.mp member with old | last
          · exact sound.settled.stages s' old open_
          · cases mem_singleton.mp last
            exact absurd open_ pending
      · apply resting.later sound
        exact fun s' member => ⟨s',mem_append_left _ member,rfl,rfl⟩
  | stageOpened id inOrder done => exact sound.stageSet id none done fun _ => inOrder
  | stageReleased allowed id now done => exact sound.stageSet id (some now) done fun no => by contradiction
  | invalidated selector erase now valid done => exact sound.invalidated valid (invalidated_ok done)
  | redacted id at_ unneeded done =>
    unfold Db.redacted at done
    split at done
    · obtain ⟨_,same⟩ := Prod.mk.inj (Except.ok.inj done)
      subst same
      exact sound.redacted id at_ unneeded
    · contradiction
  | forgotten ids done =>
    obtain ⟨_,same⟩ := Prod.mk.inj (Except.ok.inj done)
    subst same
    have resting : Resting m { m with db := { m.db with pendingErasure := m.db.pendingErasure.filter fun p => !ids.contains p.1 } } :=
      ⟨rfl,rfl,rfl,rfl,fun _ member => (mem_filter.mp member).1,fun _ _ _ _ => rfl⟩
    exact ⟨resting.sound sound sound.settled.stageIds sound.settled.stages,
      resting.later sound fun s member => ⟨s,member,rfl,rfl⟩⟩

/-! Trails. -/

inductive Trail (h : Host) (releasing : Bool) (m : Machine) : Machine → Prop where
  | start : Trail h releasing m m
  | step {m' m'' : Machine} (before : Trail h releasing m m') (change : Change h releasing m' m'') : Trail h releasing m m''

theorem Trail.keeps (trail : Trail h releasing m m') (sound : Sound h m) : Sound h m' ∧ Later m m':= by
  induction trail with
  | start => exact ⟨sound,.refl m⟩
  | step _ change ih =>
    obtain ⟨middle,later⟩ := ih
    obtain ⟨sound',later'⟩ := change.keeps middle
    exact ⟨sound',later.trans later' sound'.shape⟩

theorem sound_empty : Sound h {} := by
  refine ⟨⟨by simp,by simp,by simp,by simp⟩,⟨by simp,by simp,by simp,by simp,by simp,by simp,by simp⟩,by simp⟩

end Neurobro.Artifacts
