import Mathlib.Logic.Relation
import Neurobro.Artifacts.Changes

/-! The graph of what derives from what, what a selector takes away of it, and the order
that saving and revoking keep. -/
namespace Neurobro.Artifacts

open List

variable {db db' : Db}

/-- From an artifact to one that was made of it. -/
def Edge (db : Db) (a b : String) : Prop :=
  (∃ d ∈ db.dependencies, d.inputId = a ∧ d.artifactId = b) ∨ ∃ r ∈ db.artifacts, r.parentId = some a ∧ r.id = b

def Derives (db : Db) : String → String → Prop := Relation.ReflTransGen (Edge db)

def ArtifactRevocation.Matches (selector : ArtifactRevocation) (r : ArtifactRow) : Prop :=
  r.ownerId = selector.ownerId ∧ (∀ t ∈ selector.taskId, r.taskId = t) ∧ ∀ s ∈ selector.sourceRef, r.sourceRef = some s

/-- An artifact that matches a selector, or derives from one that does. -/
def Under (db : Db) (selector : ArtifactRevocation) (id : String) : Prop :=
  ∃ r ∈ db.artifacts, selector.Matches r ∧ Derives db r.id id

/-- The revocation of a selector is in the database. -/
def Committed (db : Db) (selector : ArtifactRevocation) : Prop :=
  ∃ t ∈ db.tombstones, t.ownerId = selector.ownerId ∧ t.taskId = selector.taskId.getD "" ∧
    t.sourceRef = selector.sourceRef.getD ""

theorem covers_of_matches {t : Tombstone} {selector : ArtifactRevocation} {r : ArtifactRow} (matched : selector.Matches r)
    (owner : t.ownerId = selector.ownerId) (task : t.taskId = selector.taskId.getD "")
    (source : t.sourceRef = selector.sourceRef.getD "") : t.covers r.scope r.sourceRef := by
  obtain ⟨ofOwner,ofTask,ofSource⟩ := matched
  refine ⟨owner.trans ofOwner.symm,?_,?_⟩
  · cases chosen : selector.taskId with
    | none => exact .inl (by rw [task,chosen,Option.getD_none])
    | some id => exact .inr (by rw [task,chosen,Option.getD_some,← ofTask id chosen]; rfl)
  · cases chosen : selector.sourceRef with
    | none => exact .inl (by rw [source,chosen,Option.getD_none])
    | some ref => exact .inr (by rw [source,chosen,ofSource ref chosen])

/-! The shape of the graph. -/

/-- A row and its record say the same, and both can be asked for. -/
structure Filed (r : ArtifactRow) : Prop where
  id : r.record.id = r.id
  owner : r.record.ownerId = r.ownerId
  task : r.record.taskId = r.taskId
  parent : r.record.parentId = r.parentId
  source : r.record.sourceRef = r.sourceRef
  shaped : idPattern r.id = true
  valid : r.scope.check = .ok ()

/-- Rows are unique, an edge leads to a younger row of the same owner, and a parent is an
input in the same task. -/
structure Shape (db : Db) : Prop where
  ids : (db.artifacts.map fun r => r.id).Nodup
  filed : ∀ r ∈ db.artifacts, Filed r
  younger : ∀ d ∈ db.dependencies, ∃ (i a : Nat) (q r : ArtifactRow), i < a ∧ db.artifacts[i]? = some q ∧ db.artifacts[a]? = some r ∧
    q.id = d.inputId ∧ r.id = d.artifactId ∧ q.ownerId = r.ownerId
  parents : ∀ r ∈ db.artifacts, ∀ p, r.parentId = some p →
    (⟨r.id,p⟩ : Dependency) ∈ db.dependencies ∧ ∃ q ∈ db.artifacts, q.id = p ∧ q.scope = r.scope

theorem Shape.unique (shape : Shape db) (mr : r ∈ db.artifacts) (mq : q ∈ db.artifacts) (same : r.id = q.id) : r = q:= inj_on_of_nodup_map shape.ids mr mq same

/-- With the parents among them, the recorded dependencies are all edges there are. -/
theorem Shape.edge (shape : Shape db) : Edge db a b ↔ (⟨b,a⟩ : Dependency) ∈ db.dependencies := by
  constructor
  · rintro (⟨d,member,rfl,rfl⟩ | ⟨r,member,parent,rfl⟩)
    · exact member
    · exact (shape.parents r member a parent).1
  · exact fun member => .inl ⟨_,member,rfl,rfl⟩

theorem Shape.ends (shape : Shape db) (member : d ∈ db.dependencies) :
    ∃ q ∈ db.artifacts, ∃ r ∈ db.artifacts, q.id = d.inputId ∧ r.id = d.artifactId ∧ q.ownerId = r.ownerId := by
  obtain ⟨i,a,q,r,_,atI,atA,named,named',owner⟩ := shape.younger d member
  exact ⟨q,mem_of_getElem? atI,r,mem_of_getElem? atA,named,named',owner⟩

/-- What derives from a row is a row of the same owner. -/
theorem Shape.derived (shape : Shape db) (derives : Derives db a b) (mr : r ∈ db.artifacts)
    (at_ : r.id = a) : ∃ q ∈ db.artifacts, q.id = b ∧ q.ownerId = r.ownerId := by
  induction derives with
  | refl => exact ⟨r,mr,at_,rfl⟩
  | tail _ edge ih =>
    obtain ⟨q,mq,named,owner⟩ := ih
    obtain ⟨i,mi,a,ma,named',named'',owner'⟩ := shape.ends (shape.edge.mp edge)
    have same := shape.unique mq mi (named.trans named'.symm)
    subst same
    exact ⟨a,ma,named'',owner'.symm.trans owner⟩

/-- Rows changed one by one, in nothing that the graph shows. -/
structure Reshaped (f : ArtifactRow → ArtifactRow) (db db' : Db) : Prop where
  rows : db'.artifacts = db.artifacts.map f
  edges : db'.dependencies = db.dependencies
  same : ∀ r, (f r).id = r.id ∧ (f r).scope = r.scope ∧ (f r).parentId = r.parentId ∧ (f r).sourceRef = r.sourceRef
  filed : ∀ r, Filed r → Filed (f r)

section Reshaping
variable {f : ArtifactRow → ArtifactRow}

theorem Reshaped.mem (re : Reshaped f db db') (member : r' ∈ db'.artifacts) : ∃ r ∈ db.artifacts, r' = f r:= by
  rw [re.rows] at member
  obtain ⟨r,there,same⟩ := mem_map.mp member
  exact ⟨r,there,same.symm⟩

theorem Reshaped.into (re : Reshaped f db db') (member : r ∈ db.artifacts) : f r ∈ db'.artifacts := by
  rw [re.rows]
  exact mem_map_of_mem member

theorem Reshaped.edge (re : Reshaped f db db') : Edge db' a b ↔ Edge db a b := by
  unfold Edge
  rw [re.edges]
  constructor
  · rintro (dependency | ⟨r',member,parent,named⟩)
    · exact .inl dependency
    · obtain ⟨r,there,rfl⟩ := re.mem member
      obtain ⟨id,_,up,_⟩ := re.same r
      exact .inr ⟨r,there,up.symm.trans parent,id.symm.trans named⟩
  · rintro (dependency | ⟨r,member,parent,named⟩)
    · exact .inl dependency
    · obtain ⟨id,_,up,_⟩ := re.same r
      exact .inr ⟨f r,re.into member,up.trans parent,id.trans named⟩

theorem Reshaped.derives (re : Reshaped f db db') : Derives db' = Derives db := by
  unfold Derives
  congr 1
  funext a b
  exact propext re.edge

theorem Reshaped.under (re : Reshaped f db db') {id : String} : Under db' selector id ↔ Under db selector id:= by
  have matched (r : ArtifactRow) : selector.Matches (f r) ↔ selector.Matches r := by
    obtain ⟨_,scope,_,source⟩ := re.same r
    have owner := congrArg ArtifactScope.ownerId scope
    have task := congrArg ArtifactScope.taskId scope
    unfold ArtifactRevocation.Matches
    rw [show (f r).ownerId = r.ownerId from owner,show (f r).taskId = r.taskId from task,source]
  unfold Under
  rw [re.derives]
  constructor
  · rintro ⟨r',member,matches_,derives⟩
    obtain ⟨r,there,rfl⟩ := re.mem member
    rw [(re.same r).1] at derives
    exact ⟨r,there,(matched r).mp matches_,derives⟩
  · rintro ⟨r,there,matches_,derives⟩
    refine ⟨f r,re.into there,(matched r).mpr matches_,?_⟩
    rw [(re.same r).1]
    exact derives

theorem Reshaped.shape (re : Reshaped f db db') (shape : Shape db) : Shape db' := by
  constructor
  · rw [re.rows,map_map]
    have ids : ((fun r : ArtifactRow => r.id) ∘ f) = fun r => r.id := funext fun r => (re.same r).1
    rw [ids]
    exact shape.ids
  · intro r' member
    obtain ⟨r,there,rfl⟩ := re.mem member
    exact re.filed r (shape.filed r there)
  · intro d member
    rw [re.edges] at member
    obtain ⟨i,a,q,r,before,atI,atA,named,named',owner⟩ := shape.younger d member
    refine ⟨i,a,f q,f r,before,?_,?_,(re.same q).1.trans named,(re.same r).1.trans named',?_⟩
    · rw [re.rows,List.getElem?_map,atI]; rfl
    · rw [re.rows,List.getElem?_map,atA]; rfl
    · have left := congrArg ArtifactScope.ownerId (re.same q).2.1
      have right := congrArg ArtifactScope.ownerId (re.same r).2.1
      exact left.trans (owner.trans right.symm)
  · intro r' member p parent
    obtain ⟨r,there,rfl⟩ := re.mem member
    obtain ⟨id,scope,up,_⟩ := re.same r
    obtain ⟨edge,q,mq,named,same⟩ := shape.parents r there p (up.symm.trans parent)
    refine ⟨?_,f q,re.into mq,(re.same q).1.trans named,?_⟩
    · rw [id,re.edges]; exact edge
    · exact (re.same q).2.1.trans (same.trans scope.symm)

end Reshaping

/-- What was checked of an artifact before it is saved. -/
structure Savable (db : Db) (record : ArtifactRecord) (inputIds : List String) : Prop where
  filed : Filed record.row
  inputs : ∀ i ∈ inputIds, ∃ q ∈ db.artifacts, q.id = i ∧ q.ownerId = record.ownerId ∧ q.revokedAt = none
  parent : ∀ p, record.parentId = some p → p ∈ inputIds ∧ ∃ q ∈ db.artifacts, q.id = p ∧ q.scope = record.row.scope
  open_ : db.isTombstoned record.row.scope record.sourceRef = false

section Saving
variable {record : ArtifactRecord} {inputIds : List String}

theorem mem_withArtifact : r ∈ (db.withArtifact record inputIds).artifacts ↔ r ∈ db.artifacts ∨ r = record.row:= by
  simp [Db.withArtifact]

theorem mem_withDependencies : d ∈ (db.withArtifact record inputIds).dependencies ↔
    d ∈ db.dependencies ∨ (d.artifactId = record.id ∧ d.inputId ∈ inputIds) := by
  simp only [Db.withArtifact,mem_append,mem_map,mem_eraseDups]
  constructor
  · rintro (old | ⟨i,member,rfl⟩)
    · exact .inl old
    · exact .inr ⟨rfl,member⟩
  · rintro (old | ⟨named,member⟩)
    · exact .inl old
    · exact .inr ⟨d.inputId,member,by rw [← named]⟩

theorem Shape.saved (shape : Shape db) (fresh : db.has record.id = false) (savable : Savable db record inputIds) :
    Shape (db.withArtifact record inputIds) := by
  have apart := has_false.mp fresh
  constructor
  · show ((db.artifacts ++ [record.row]).map fun r => r.id).Nodup
    rw [map_append]
    apply List.Nodup.append shape.ids (nodup_singleton _)
    intro id there here
    obtain ⟨r,member,rfl⟩ := mem_map.mp there
    exact apart r member (mem_singleton.mp here)
  · intro r member
    rcases mem_withArtifact.mp member with old | rfl
    · exact shape.filed r old
    · exact savable.filed
  · intro d member
    rcases mem_withDependencies.mp member with old | ⟨named,input⟩
    · obtain ⟨i,a,q,r,before,atI,atA,rest⟩ := shape.younger d old
      refine ⟨i,a,q,r,before,?_,?_,rest⟩
      · exact (List.getElem?_append_left (List.getElem?_eq_some_iff.mp atI).1).trans atI
      · exact (List.getElem?_append_left (List.getElem?_eq_some_iff.mp atA).1).trans atA
    · obtain ⟨q,mq,named',owner,_⟩ := savable.inputs _ input
      obtain ⟨i,inside,atI⟩ := mem_iff_getElem.mp mq
      refine ⟨i,db.artifacts.length,q,record.row,inside,?_,?_,named',named.symm,owner⟩
      · exact (List.getElem?_append_left inside).trans (List.getElem?_eq_some_iff.mpr ⟨inside,atI⟩)
      · exact List.getElem?_concat_length
  · intro r member p parent
    rcases mem_withArtifact.mp member with old | rfl
    · obtain ⟨edge,q,mq,rest⟩ := shape.parents r old p parent
      exact ⟨mem_withDependencies.mpr (.inl edge),q,mem_withArtifact.mpr (.inl mq),rest⟩
    · obtain ⟨input,q,mq,rest⟩ := savable.parent p parent
      exact ⟨mem_withDependencies.mpr (.inr ⟨rfl,input⟩),q,mem_withArtifact.mpr (.inl mq),rest⟩

theorem edge_saved (edge : Edge db a b) : Edge (db.withArtifact record inputIds) a b := by
  rcases edge with ⟨d,member,rest⟩ | ⟨r,member,rest⟩
  · exact .inl ⟨d,mem_withDependencies.mpr (.inl member),rest⟩
  · exact .inr ⟨r,mem_withArtifact.mpr (.inl member),rest⟩

theorem under_saved {id : String} (under : Under db selector id) : Under (db.withArtifact record inputIds) selector id:= by
  obtain ⟨r,member,matched,derives⟩ := under
  exact ⟨r,mem_withArtifact.mpr (.inl member),matched,Relation.ReflTransGen.mono (fun _ _ => edge_saved) _ _ derives⟩

end Saving

end Neurobro.Artifacts
