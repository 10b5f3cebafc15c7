import Neurobro.Memory.Changes

/-! Every durable step of every call as one relation, and each call as a trail of such
steps, labelled by the sources whose revisions it takes out of use. -/
namespace Neurobro.Memory

open Durable List

variable {h : Host}

/-- One source of one account. `revives` marks the step that takes an erased revision of
the source out of its erased state. -/
structure Label where
  owner : String
  account : String
  sourceId : String
  revives : Bool
  deriving DecidableEq

def Label.key (l : Label) : String × String × String := (l.owner,l.account,l.sourceId)

def forgetLabel (mode : Mode) (row : SourceRow) (db : Db) : Label where
  owner := row.owner
  account := row.account
  sourceId := row.sourceId
  revives := !decide (mode = .erase) && (db.related row.owner row.account row.sourceId).any fun r => r.state = .erased

/-- A transaction or a statement on the tables, with what was checked before it. The flag
tells the ones that take revisions out of use, or put new ones in. -/
inductive DbChange (h : Host) (drawn : Nat) : Bool → Option Label → Db → Db → Prop where
  | ingested {db db' : Db} (now : String) (source : SourceRevision) (k : Nat) (young : k < drawn) (fresh : source.ref = h.uuid k)
      (untombed : db.tombstoned source.ownerId source.accountId source.sourceId = false)
      (done : ingested now source db = .ok ((),db')) :
      DbChange h drawn true (some ⟨source.ownerId,source.accountId,source.sourceId,false⟩) db db'
  | forgotten {db db' : Db} (now : String) (access : MemoryAccess) (row : SourceRow) (mode : Mode) (event : Invalidation)
      (member : row ∈ db.sources) (permitted : access.permits row = true)
      (done : forgotten now access row (db.related row.owner row.account row.sourceId) mode db = .ok (event,db')) :
      DbChange h drawn true (some (forgetLabel mode row db)) db db'
  | retained {db db' : Db} (now : String) (access : MemoryAccess) (row : SourceRow) (related : List SourceRow)
      (expired : List String) (event : Invalidation) (member : row ∈ db.sources) (permitted : access.permits row = true)
      (ofSource : ∀ ref ∈ expired, ∃ r ∈ db.related row.owner row.account row.sourceId, r.ref = ref)
      (done : retained now access related expired db = .ok (event,db')) :
      DbChange h drawn true (some ⟨row.owner,row.account,row.sourceId,false⟩) db db'
  | recorded {db db' : Db} (done : Recorded db db') : DbChange h drawn false none db db'

/-- One durable step, or one note of the process. -/
inductive Change (h : Host) (withdrawing : Bool) : Option Label → Machine → Machine → Prop where
  | tables {label : Option Label} {m : Machine} {db : Db} (index : List (String × String))
      (change : DbChange h m.drawn withdrawing label m.db db) :
      Change h withdrawing label m { m with db := db, index := index }
  | process {m : Machine} (opened : Bool) (index : List (String × String)) :
      Change h withdrawing none m { m with opened := opened, index := index }
  | drew {m : Machine} : Change h withdrawing none m { m with drawn := m.drawn + 1 }
  | created {m : Machine} (k : Nat) (young : k < m.drawn) (unused : ∀ r ∈ m.db.sources, r.ref ≠ h.uuid k) :
      Change h withdrawing none m { m with blobs := m.blobs ++ [(blobName (h.uuid k),[])] }
  | filled {m : Machine} (name : String) (bytes : Bytes) :
      Change h withdrawing none m { m with blobs := m.blobs.map fun b => if b.1 = name then (name,bytes) else b }
  | unlinked {m : Machine} (ref : String) (unneeded : ∀ r ∈ m.db.sources, r.ref = ref → r.state = .erased) :
      Change h withdrawing none m { m with blobs := m.blobs.filter fun b => !decide (b.1 = blobName ref) }
  | cleared {m : Machine} (ref : String) (unneeded : ∀ r ∈ m.db.sources, r.ref = ref → r.state = .erased)
      (gone : m.hasBlob (blobName ref) = false) :
      Change h withdrawing none m { m with db := m.db.setBlob ref }
  | finished {m : Machine} (done : m.db.unfinished = []) :
      Change h withdrawing none m { m with swept := m.swept ++ m.db.erasedRefs }

/-- A trail of steps with the labels met on the way. -/
inductive Trail (h : Host) (withdrawing : Bool) (m : Machine) : List Label → Machine → Prop where
  | start : Trail h withdrawing m [] m
  | step {labels : List Label} {label : Option Label} {m' m'' : Machine} (before : Trail h withdrawing m labels m')
      (change : Change h withdrawing label m' m'') : Trail h withdrawing m (labels ++ label.toList) m''

theorem Trail.quiet (before : Trail h withdrawing m labels m')
    (change : Change h withdrawing none m' m'') : Trail h withdrawing m labels m'' := by
  have longer := before.step change
  simpa using longer

/-- What the steps rely on: references are unique and drawn, and a blob is named by its
revision. -/
structure Sound (h : Host) (m : Machine) : Prop where
  refs : (m.db.sources.map fun r => r.ref).Nodup
  drawn : ∀ r ∈ m.db.sources, ∃ k < m.drawn, r.ref = h.uuid k
  blob : ∀ r ∈ m.db.sources, ∀ b ∈ r.blob, b = blobName r.ref

theorem sound_empty : Sound h {} :=
  ⟨nodup_nil,fun _ no => absurd no (by simp),fun _ no => absurd no (by simp)⟩

/-- An update row by row that keeps references and blobs. -/
theorem Sound.mapped (sound : Sound h m) (same : ∀ r, (f r).ref = r.ref)
    (blob : ∀ r b, (f r).blob = some b → r.blob = some b) (rows : m'.db.sources = m.db.sources.map f)
    (drawn : m'.drawn = m.drawn) : Sound h m' := by
  constructor
  · rw [rows,map_map]
    have refs : ((fun r : SourceRow => r.ref) ∘ f) = fun r => r.ref := funext same
    rw [refs]
    exact sound.refs
  · intro r' member
    rw [rows] at member
    obtain ⟨r,there,rfl⟩ := mem_map.mp member
    obtain ⟨k,young,at_⟩ := sound.drawn r there
    exact ⟨k,by rw [drawn]; exact young,(same r).trans at_⟩
  · intro r' member b named
    rw [rows] at member
    obtain ⟨r,there,rfl⟩ := mem_map.mp member
    rw [same]
    exact sound.blob r there b (blob r b named)

theorem Sound.unmoved (sound : Sound h m) (rows : m'.db.sources = m.db.sources) (drawn : m.drawn ≤ m'.drawn) :
    Sound h m' := by
  constructor
  · rw [rows]; exact sound.refs
  · intro r member
    rw [rows] at member
    obtain ⟨k,young,at_⟩ := sound.drawn r member
    exact ⟨k,by omega,at_⟩
  · rw [rows]; exact sound.blob

/-- A revision that arrives. -/
theorem Sound.appended {row : SourceRow} (sound : Sound h m) (rows : m'.db.sources = m.db.sources ++ [row])
    (drawn : m'.drawn = m.drawn) (fresh : ∀ r ∈ m.db.sources, r.ref ≠ row.ref) (k : Nat) (young : k < m.drawn)
    (at_ : row.ref = h.uuid k) (blob : row.blob = some (blobName row.ref)) : Sound h m' := by
  constructor
  · rw [rows,map_append]
    apply List.Nodup.append sound.refs (nodup_singleton _)
    intro ref there here
    obtain ⟨r,member,rfl⟩ := mem_map.mp there
    exact fresh r member (by simpa using here)
  · intro r member
    rw [rows] at member
    rw [drawn]
    rcases mem_append.mp member with old | new
    · exact sound.drawn r old
    · cases mem_singleton.mp new
      exact ⟨k,young,at_⟩
  · intro r member b named
    rw [rows] at member
    rcases mem_append.mp member with old | new
    · exact sound.blob r old b named
    · cases mem_singleton.mp new
      rw [blob] at named
      exact (Option.some.inj named).symm

theorem setBlob_rows (ref : String) (db : Db) :
    (db.setBlob ref).sources = db.sources.map fun r => if r.ref = ref then { r with blob := none } else r := rfl

theorem TakenOut.sound {state : SourceState} {event : Invalidation}
    (taken : TakenOut ownerId rs state m.db event m'.db) (sound : Sound h m) (drawn : m'.drawn = m.drawn) : Sound h m' := by
  obtain ⟨dropped,rows⟩ := taken.sources
  refine sound.mapped (fun r => ?_) (fun r b named => ?_) rows drawn
  · rw [(emptied_same _ _).ref,restated_ref]
  · simpa using named

/-- Every step keeps the store sound. -/
theorem Change.sound {label : Option Label} (change : Change h withdrawing label m m')
    (sound : Sound h m) : Sound h m' := by
  cases change with
  | process => exact sound.unmoved rfl (Nat.le_refl _)
  | drew => exact sound.unmoved rfl (Nat.le_succ _)
  | created => exact sound.unmoved rfl (Nat.le_refl _)
  | filled => exact sound.unmoved rfl (Nat.le_refl _)
  | unlinked => exact sound.unmoved rfl (Nat.le_refl _)
  | finished => exact sound.unmoved rfl (Nat.le_refl _)
  | cleared ref =>
    refine sound.mapped (fun r => ?_) (fun r b named => ?_) (setBlob_rows ref m.db) rfl
    · split <;> rfl
    · split at named
      · contradiction
      · exact named
  | @tables _ _ db index change =>
    cases change with
    | forgotten now access row mode event member permitted done => exact (forgotten_takes done).1.sound sound rfl
    | retained now access row related expired event member permitted ofSource done =>
      exact (retained_takes done).1.sound sound rfl
    | recorded done => exact sound.unmoved done.sources (Nat.le_refl _)
    | ingested now source k young fresh untombed done =>
      obtain ⟨mid,⟨apart,_,replaced⟩,rfl⟩ := ingested_spec done
      let between : Machine := { m with db := mid }
      have middle : Sound h between := by
        rcases replaced with ⟨_,rfl⟩ | ⟨event,spec⟩
        · exact sound
        · exact sound.mapped (fun r => restated_ref _ _ r) (fun r b named => by simpa using named) spec.sources rfl
      exact middle.appended rfl rfl apart k young fresh rfl

theorem Trail.sound (trail : Trail h withdrawing m labels m') (sound : Sound h m) : Sound h m':= by
  induction trail with
  | start => exact sound
  | step _ change ih => exact change.sound ih

/-- A reference stands for one row. -/
theorem Sound.unique (sound : Sound h m) (member : r ∈ m.db.sources) (member' : r' ∈ m.db.sources)
    (same : r'.ref = r.ref) : r' = r :=
  inj_on_of_nodup_map sound.refs member' member same

theorem Sound.found (sound : Sound h m) (member : r ∈ m.db.sources) : m.db.sourceRow r.ref = some r := by
  unfold Db.sourceRow
  cases found : m.db.sources.find? fun r' => r'.ref = r.ref with
  | none => exact absurd (List.find?_eq_none.mp found r member) (by simp)
  | some r' => exact congrArg some (sound.unique member (mem_of_find?_eq_some found) (by simpa using List.find?_some found))

theorem TakenOut.row {state : SourceState} {event : Invalidation}
    (taken : TakenOut ownerId rs state db event db') (member : r ∈ db.sources) :
    ∃ r' ∈ db'.sources, r.Same r' ∧ r'.state = if r.ref ∈ rs then state else r.state := by
  obtain ⟨dropped,rows⟩ := taken.sources
  refine ⟨_,?_,(restated_same rs state r).trans (emptied_same dropped _),?_⟩
  · rw [rows]
    exact mem_map_of_mem member
  · rw [emptied_state,restated_state]

/-- A revision stays a revision, whatever becomes of it. -/
theorem Change.row {label : Option Label} (change : Change h withdrawing label m m')
 (member : r ∈ m.db.sources) : ∃ r' ∈ m'.db.sources, r.Same r' := by
  cases change with
  | process | drew | created | filled | unlinked | finished => exact ⟨r,member,.refl r⟩
  | cleared ref =>
    refine ⟨_,mem_map_of_mem member,?_⟩
    split
    · exact ⟨rfl,rfl,rfl,rfl,rfl,rfl,rfl⟩
    · exact .refl r
  | tables index change =>
    cases change with
    | forgotten now access row mode event there permitted done =>
      obtain ⟨r',there',same,_⟩ := (forgotten_takes done).1.row member
      exact ⟨r',there',same⟩
    | retained now access row related expired event there permitted ofSource done =>
      obtain ⟨r',there',same,_⟩ := (retained_takes done).1.row member
      exact ⟨r',there',same⟩
    | recorded done => exact ⟨r,by rw [done.sources]; exact member,.refl r⟩
    | ingested now source k young fresh untombed done =>
      obtain ⟨mid,⟨_,_,replaced⟩,rfl⟩ := ingested_spec done
      rcases replaced with ⟨_,rfl⟩ | ⟨event,spec⟩
      · exact ⟨r,mem_append_left _ member,.refl r⟩
      · refine ⟨_,mem_append_left _ ?_,restated_same (superseded source m.db) .superseded r⟩
        rw [spec.sources]
        exact mem_map_of_mem member

theorem Trail.row (trail : Trail h withdrawing m labels m')
 (member : r ∈ m.db.sources) : ∃ r' ∈ m'.db.sources, r.Same r' := by
  induction trail with
  | start => exact ⟨r,member,.refl r⟩
  | step _ change ih =>
    obtain ⟨r',there,same⟩ := ih
    obtain ⟨r'',there',same'⟩ := change.row there
    exact ⟨r'',there',same.trans same'⟩

/-- What is found under a reference later is what was there. -/
theorem Trail.found {withdrawing : Bool} {m m' : Machine} {labels : List Label} (trail : Trail h withdrawing m labels m')
    (sound : Sound h m) {r r' : SourceRow} (member : r ∈ m.db.sources) (found : m'.db.sourceRow r.ref = some r') : r.Same r' := by
  obtain ⟨r'',there,same⟩ := trail.row member
  obtain ⟨there',at_⟩ := sourceRow_mem found
  have one := (trail.sound sound).unique there there' (at_.trans same.ref.symm)
  rw [one]
  exact same

end Neurobro.Memory
