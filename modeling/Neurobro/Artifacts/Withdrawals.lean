import Neurobro.Artifacts.Graph

/-! Revocation keeps the database settled: what derives from a revoked artifact is
revoked, every artifact under a tombstone is, and no other one. -/
namespace Neurobro.Artifacts

open List

variable {db db' : Db} {selector : ArtifactRevocation}

/-- Some committed selector reaches the artifact. -/
def Withdrawn (db : Db) (id : String) : Prop := ∃ selector, Committed db selector ∧ Under db selector id

/-- An artifact of the scope that can still be read. -/
def Live (db : Db) (scope : ArtifactScope) (id : String) : Prop :=
  ∃ r ∈ db.artifacts, r.id = id ∧ r.scope = scope ∧ r.revokedAt = none

def StageRow.scope (s : StageRow) : ArtifactScope := ⟨s.ownerId,s.taskId⟩

structure Settled (db : Db) : Prop where
  closed : ∀ d ∈ db.dependencies, ∀ i ∈ db.artifacts, ∀ a ∈ db.artifacts, i.id = d.inputId → a.id = d.artifactId →
    i.revokedAt ≠ none → a.revokedAt ≠ none
  buried : ∀ t ∈ db.tombstones, ∀ r ∈ db.artifacts, t.covers r.scope r.sourceRef → r.revokedAt ≠ none
  justified : ∀ r ∈ db.artifacts, r.revokedAt ≠ none → Withdrawn db r.id
  erased : ∀ r ∈ db.artifacts, r.erasedAt ≠ none → r.revokedAt ≠ none
  pending : ∀ p ∈ db.pendingErasure, ∃ r ∈ db.artifacts, r.id = p.1 ∧ r.revokedAt ≠ none
  stageIds : (db.stages.map fun s => s.id).Nodup
  stages : ∀ s ∈ db.stages, s.revokedAt = none →
    (∀ i ∈ s.inputIds, Live db s.scope i) ∧ db.isTombstoned s.scope none = false

theorem isTombstoned_false {scope : ArtifactScope} {sourceRef : Option String} :
    db.isTombstoned scope sourceRef = false ↔ ∀ t ∈ db.tombstones, ¬t.covers scope sourceRef := by
  simp [Db.isTombstoned]

/-- The closure at the time of a revocation still holds: everything under a committed
selector is revoked. -/
theorem Settled.under_revoked (settled : Settled db) (shape : Shape db) (committed : Committed db selector)
    (member : r ∈ db.artifacts) (under : Under db selector r.id) : r.revokedAt ≠ none := by
  obtain ⟨root,mroot,matched,derives⟩ := under
  obtain ⟨t,mt,owner,task,source⟩ := committed
  have begun := settled.buried t mt root mroot (covers_of_matches matched owner task source)
  have along : ∀ b, Derives db root.id b → ∀ a ∈ db.artifacts, a.id = b → a.revokedAt ≠ none := by
    intro b derives
    induction derives with
    | refl =>
      intro a ma named
      rw [shape.unique ma mroot named]
      exact begun
    | tail before edge ih =>
      intro a ma named
      have dependency := shape.edge.mp edge
      obtain ⟨i,mi,_,_,named',_⟩ := shape.ends dependency
      exact settled.closed _ dependency i mi a ma named' named (ih i mi named')
  exact along r.id derives r member rfl

/-- A live artifact is under no committed selector. -/
theorem Settled.live_clear (settled : Settled db) (shape : Shape db) (committed : Committed db selector) {scope : ArtifactScope}
    {id : String} (live : Live db scope id) : ¬Under db selector id := by
  obtain ⟨r,member,rfl,_,open_⟩ := live
  exact fun under => settled.under_revoked shape committed member under open_

/-! Saving. -/

theorem Settled.saved {record : ArtifactRecord} (settled : Settled db) (shape : Shape db)
    (fresh : db.has record.id = false) (savable : Savable db record inputIds) : Settled (db.withArtifact record inputIds) := by
  have apart := has_false.mp fresh
  constructor
  · intro d md i mi a ma namedI namedA revoked
    rcases mem_withArtifact.mp mi with oldI | rfl
    · rcases mem_withDependencies.mp md with oldD | ⟨_,input⟩
      · rcases mem_withArtifact.mp ma with oldA | rfl
        · exact settled.closed d oldD i oldI a oldA namedI namedA revoked
        · obtain ⟨_,_,a,ma',_,named,_⟩ := shape.ends oldD
          exact absurd (named.trans namedA.symm) (apart a ma')
      · obtain ⟨q,mq,named,_,open_⟩ := savable.inputs _ input
        rw [shape.unique oldI mq (namedI.trans named.symm)] at revoked
        exact absurd open_ revoked
    · exact absurd rfl revoked
  · intro t mt r mr covered
    rcases mem_withArtifact.mp mr with old | rfl
    · exact settled.buried t mt r old covered
    · exact absurd covered (isTombstoned_false.mp savable.open_ t mt)
  · intro r mr revoked
    rcases mem_withArtifact.mp mr with old | rfl
    · obtain ⟨selector,committed,under⟩ := settled.justified r old revoked
      exact ⟨selector,committed,under_saved under⟩
    · exact absurd rfl revoked
  · intro r mr erased
    rcases mem_withArtifact.mp mr with old | rfl
    · exact settled.erased r old erased
    · exact absurd rfl erased
  · intro p mp
    obtain ⟨r,mr,rest⟩ := settled.pending p mp
    exact ⟨r,mem_withArtifact.mpr (.inl mr),rest⟩
  · exact settled.stageIds
  · intro s ms open_
    obtain ⟨inputs,clear⟩ := settled.stages s ms open_
    refine ⟨fun i mi => ?_,clear⟩
    obtain ⟨r,mr,rest⟩ := inputs i mi
    exact ⟨r,mem_withArtifact.mpr (.inl mr),rest⟩

/-! Revocation. -/

theorem selectable_given (valid : selectable selector = .ok ()) :
    (∀ t ∈ selector.taskId, t ≠ "") ∧ ∀ s ∈ selector.sourceRef, s ≠ "" := by
  have identified {value label : String} (ok : identifier value label = .ok ()) : value ≠ "" := by
    rintro rfl
    simp [identifier] at ok
  unfold selectable at valid
  obtain ⟨_,_,valid⟩ := bind_ok valid
  obtain ⟨_,task,source⟩ := bind_ok valid
  constructor
  · intro t chosen
    rw [Option.mem_def.mp chosen] at task
    exact identified task
  · intro s chosen
    rw [Option.mem_def.mp chosen] at source
    exact identified source

theorem selects_of_matches (matched : selector.Matches r) : selector.selects r = true := by
  obtain ⟨_,task,source⟩ := matched
  unfold ArtifactRevocation.selects
  cases chosen : selector.taskId with
  | none =>
    cases chosen' : selector.sourceRef with
    | none => simp [given]
    | some s => simp [given,source s chosen']
  | some t =>
    cases chosen' : selector.sourceRef with
    | none => simp [given,task t chosen]
    | some s => simp [given,task t chosen,source s chosen']

theorem matches_of_selects (valid : selectable selector = .ok ()) (owner : r.ownerId = selector.ownerId)
    (selected : selector.selects r = true) : selector.Matches r := by
  obtain ⟨task,source⟩ := selectable_given valid
  unfold ArtifactRevocation.selects at selected
  rw [Bool.and_eq_true] at selected
  obtain ⟨byTask,bySource⟩ := selected
  refine ⟨owner,fun t chosen => ?_,fun s chosen => ?_⟩
  · have named := task t chosen
    rw [Option.mem_def.mp chosen] at byTask
    simpa [given,named] using byTask
  · have named := source s chosen
    rw [Option.mem_def.mp chosen] at bySource
    simpa [given,named] using bySource

theorem matches_of_tombstone (valid : selectable selector = .ok ()) {now : Stamp}
    (covered : (selector.tombstone now).covers r.scope r.sourceRef) : selector.Matches r := by
  obtain ⟨task,source⟩ := selectable_given valid
  obtain ⟨owner,byTask,bySource⟩ := covered
  refine ⟨owner.symm,fun t chosen => ?_,fun s chosen => ?_⟩
  · have key : (selector.tombstone now).taskId = t := by
      show selector.taskId.getD "" = t
      rw [Option.mem_def.mp chosen,Option.getD_some]
    rw [key] at byTask
    exact (byTask.resolve_left (task t chosen)).symm
  · have key : (selector.tombstone now).sourceRef = s := by
      show selector.sourceRef.getD "" = s
      rw [Option.mem_def.mp chosen,Option.getD_some]
    rw [key] at bySource
    have named := bySource.resolve_left (source s chosen)
    cases own : r.sourceRef with
    | none => rw [own] at named; exact absurd named (source s chosen)
    | some ref => rw [own] at named; exact congrArg some named.symm

/-- The artifacts a revocation reaches are those under its selector. -/
theorem reached_under (valid : selectable selector = .ok ()) {id : String} (reached : id ∈ (db.reach selector).ids) :
    Under db selector id := by
  apply Closure.closure_least (P := Under db selector) ?_ ?_ id reached
  · intro id member
    obtain ⟨r,inside,rfl⟩ := mem_map.mp member
    obtain ⟨inside,selected⟩ := mem_filter.mp inside
    obtain ⟨there,at_⟩ := mem_filter.mp inside
    have at_ : r.ownerId = selector.ownerId ∧ r.erasedAt = none := by simpa using at_
    exact ⟨r,there,matches_of_selects valid at_.1 selected,.refl⟩
  · intro edge member under
    obtain ⟨r,there,matched,derives⟩ := under
    refine ⟨r,there,matched,derives.tail ?_⟩
    rcases mem_append.mp member with parent | dependency
    · obtain ⟨a,inside,named⟩ := mem_filterMap.mp parent
      split at named
      · cases Option.some.inj named
        have ma := (mem_filter.mp inside).1
        cases up : a.parentId with
        | none => simp [up,given] at *
        | some p => exact .inr ⟨a,ma,up,rfl⟩
      · contradiction
    · obtain ⟨d,inside,rfl⟩ := mem_map.mp dependency
      exact .inl ⟨d,(mem_filter.mp inside).1,rfl,rfl⟩

theorem matched_reached (member : r ∈ db.artifacts) (matched : selector.Matches r) (whole : r.erasedAt = none) :
    r.id ∈ (db.reach selector).ids := by
  apply Closure.subset_closure
  refine mem_map_of_mem (mem_filter.mpr ⟨mem_filter.mpr ⟨member,?_⟩,selects_of_matches matched⟩)
  simp [matched.1,whole]

theorem reached_owner (shape : Shape db) (valid : selectable selector = .ok ()) (member : r ∈ db.artifacts)
    (reached : r.id ∈ (db.reach selector).ids) : r.ownerId = selector.ownerId := by
  obtain ⟨root,mroot,matched,derives⟩ := reached_under valid reached
  obtain ⟨q,mq,named,owner⟩ := shape.derived derives mroot rfl
  rw [← shape.unique mq member named]
  exact owner.trans matched.1

/-- What derives from a reached artifact is reached. -/
theorem reached_further (shape : Shape db) (valid : selectable selector = .ok ()) (md : d ∈ db.dependencies)
    (reached : d.inputId ∈ (db.reach selector).ids) : d.artifactId ∈ (db.reach selector).ids := by
  obtain ⟨q,mq,r,mr,namedQ,namedR,owner⟩ := shape.ends md
  rw [← namedQ] at reached
  have ofOwner := owner.symm.trans (reached_owner shape valid mq reached)
  apply Closure.closure_closed (d.inputId,d.artifactId) ?_ (namedQ ▸ reached)
  apply mem_append_right
  refine mem_map.mpr ⟨d,mem_filter.mpr ⟨md,?_⟩,rfl⟩
  exact any_eq_true.mpr ⟨r,mr,by simp [namedR,ofOwner]⟩

theorem revokedRow_reshaped {now : Stamp} (done : Invalidated selector now db db') :
    Reshaped (revokedRow (db.reach selector).ids now) db db' := by
  refine ⟨done.artifacts,done.dependencies,fun r => ?_,fun r filed => ?_⟩
  · obtain ⟨id,owner,task,parent,source,_⟩ := revokedRow_same (db.reach selector).ids now r
    refine ⟨id,?_,parent,source⟩
    unfold ArtifactRow.scope
    rw [owner,task]
  · obtain ⟨id,owner,task,parent,source,record,_⟩ := revokedRow_same (db.reach selector).ids now r
    constructor
    · rw [record,id]; exact filed.id
    · rw [record,owner]; exact filed.owner
    · rw [record,task]; exact filed.task
    · rw [record,parent]; exact filed.parent
    · rw [record,source]; exact filed.source
    · rw [id]; exact filed.shaped
    · unfold ArtifactRow.scope
      rw [owner,task]
      exact filed.valid

theorem Invalidated.committed {now : Stamp} (done : Invalidated selector now db db') : Committed db' selector := by
  by_cases known : ∃ t ∈ db.tombstones, t.sameKey (selector.tombstone now)
  · obtain ⟨t,member,owner,task,source⟩ := known
    exact ⟨t,(done.tombstones t).mpr (.inl member),owner,task,source⟩
  · refine ⟨selector.tombstone now,(done.tombstones _).mpr (.inr ⟨rfl,?_⟩),rfl,rfl,rfl⟩
    exact fun t member same => known ⟨t,member,same⟩

theorem Invalidated.keeps {now : Stamp} (done : Invalidated selector now db db') {other : ArtifactRevocation}
    (committed : Committed db other) : Committed db' other := by
  obtain ⟨t,member,rest⟩ := committed
  exact ⟨t,(done.tombstones t).mpr (.inl member),rest⟩

/-- A stage that stays open is none of those reached. -/
theorem unreached_stage (member : s ∈ db.stages) (open_ : s.revokedAt = none)
    (apart : s.id ∉ (db.reach selector).stages.map fun s => s.id) (owner : s.ownerId = selector.ownerId) :
    ¬((!given selector.taskId || decide (some s.taskId = selector.taskId)) && !given selector.sourceRef ||
      s.inputIds.any (db.reach selector).ids.contains) = true := by
  intro touched
  apply apart
  refine mem_map_of_mem (mem_filter.mpr ⟨member,?_⟩)
  rw [Bool.and_eq_true]
  exact ⟨by simp [owner,open_],touched⟩

theorem Settled.invalidated {now : Stamp} (settled : Settled db) (shape : Shape db) (valid : selectable selector = .ok ())
    (done : Invalidated selector now db db') : Settled db' := by
  have re := revokedRow_reshaped done
  have covers (t : Tombstone) (r : ArtifactRow) :
      t.covers (revokedRow (db.reach selector).ids now r).scope (revokedRow (db.reach selector).ids now r).sourceRef ↔
        t.covers r.scope r.sourceRef := by rw [(re.same r).2.1,(re.same r).2.2.2]
  constructor
  · intro d md i' mi' a' ma' namedI namedA revoked
    obtain ⟨i,mi,rfl⟩ := re.mem mi'
    obtain ⟨a,ma,rfl⟩ := re.mem ma'
    rw [done.dependencies] at md
    rw [(re.same _).1] at namedI namedA
    rw [revokedRow_revoked] at revoked ⊢
    rcases revoked with revoked | reached
    · exact .inl (settled.closed d md i mi a ma namedI namedA revoked)
    · rw [namedI] at reached
      rw [namedA]
      exact .inr (reached_further shape valid md reached)
  · intro t mt r' mr' covered
    obtain ⟨r,mr,rfl⟩ := re.mem mr'
    rw [covers] at covered
    rw [revokedRow_revoked]
    rcases (done.tombstones t).mp mt with old | ⟨rfl,_⟩
    · exact .inl (settled.buried t old r mr covered)
    · by_cases whole : r.erasedAt = none
      · exact .inr (matched_reached mr (matches_of_tombstone valid covered) whole)
      · exact .inl (settled.erased r mr whole)
  · intro r' mr' revoked
    obtain ⟨r,mr,rfl⟩ := re.mem mr'
    rw [(re.same r).1]
    rcases revokedRow_revoked.mp revoked with revoked | reached
    · obtain ⟨other,committed,under⟩ := settled.justified r mr revoked
      exact ⟨other,done.keeps committed,re.under.mpr under⟩
    · exact ⟨selector,done.committed,re.under.mpr (reached_under valid reached)⟩
  · intro r' mr' erased
    obtain ⟨r,mr,rfl⟩ := re.mem mr'
    obtain ⟨_,_,_,_,_,_,same⟩ := revokedRow_same (db.reach selector).ids now r
    rw [same] at erased
    exact revokedRow_revoked.mpr (.inl (settled.erased r mr erased))
  · intro p mp
    rcases done.pending p mp with old | reached
    · obtain ⟨r,mr,named,revoked⟩ := settled.pending p old
      exact ⟨_,re.into mr,(re.same r).1.trans named,revokedRow_revoked.mpr (.inl revoked)⟩
    · obtain ⟨root,mroot,_,derives⟩ := reached_under valid reached
      obtain ⟨r,mr,named,_⟩ := shape.derived derives mroot rfl
      exact ⟨_,re.into mr,(re.same r).1.trans named,revokedRow_revoked.mpr (.inr (named ▸ reached))⟩
  · rw [done.stages,map_map]
    have ids : ((fun s : StageRow => s.id) ∘ revokedStage ((db.reach selector).stages.map fun s => s.id) now) = fun s => s.id :=
      funext fun s => (revokedStage_same _ _ s).1
    rw [ids]
    exact settled.stageIds
  · intro s' ms' open_
    rw [done.stages] at ms'
    obtain ⟨s,ms,rfl⟩ := mem_map.mp ms'
    obtain ⟨same,apart⟩ := revokedStage_open open_
    rw [same] at open_ ⊢
    obtain ⟨inputs,clear⟩ := settled.stages s ms open_
    constructor
    · intro i mi
      obtain ⟨r,mr,named,scope,alive⟩ := inputs i mi
      have unreached : r.id ∉ (db.reach selector).ids := by
        intro reached
        have owner : s.ownerId = selector.ownerId :=
          (congrArg ArtifactScope.ownerId scope).symm.trans (reached_owner shape valid mr reached)
        apply unreached_stage ms open_ apart owner
        rw [Bool.or_eq_true]
        exact .inr (any_eq_true.mpr ⟨i,mi,by simpa [named] using reached⟩)
      have stays : revokedRow (db.reach selector).ids now r = r := by simp [revokedRow,unreached]
      exact ⟨r,stays ▸ re.into mr,named,scope,alive⟩
    · rw [isTombstoned_false] at clear ⊢
      intro t mt covered
      rcases (done.tombstones t).mp mt with old | ⟨rfl,_⟩
      · exact clear t old covered
      · obtain ⟨owner,task,source⟩ := covered
        apply unreached_stage ms open_ apart owner.symm
        have whole : given selector.sourceRef = false := by
          have none : selector.sourceRef.getD "" = "" := source.elim (fun h => h) fun h => h
          cases chosen : selector.sourceRef with
          | none => rfl
          | some ref => rw [chosen] at none; simpa [given] using none
        have here : (!given selector.taskId || decide (some s.taskId = selector.taskId)) = true := by
          have task : selector.taskId.getD "" = "" ∨ selector.taskId.getD "" = s.taskId := task
          cases chosen : selector.taskId with
          | none => rfl
          | some t =>
            rw [chosen] at task
            rcases task with none | named
            · have none : t = "" := none
              simp [given,none]
            · have named : t = s.taskId := named
              simp [named]
        simp [whole,here]

end Neurobro.Artifacts
