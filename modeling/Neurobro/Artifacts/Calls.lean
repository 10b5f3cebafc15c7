import Neurobro.Artifacts.Trail
import Neurobro.Data.Rows

/-! Every call of the artifact store is a trail of its steps, wherever it is broken off,
and what it hands out can be read when it ends. -/
namespace Neurobro.Artifacts

open Durable

variable {h : Host} {releasing : Bool} {m₀ : Machine} {db : Db}

theorem Trail.trans {m m' m'' : Machine} (first : Trail h releasing m m') (second : Trail h releasing m' m'') :
    Trail h releasing m m'' := by
  induction second with
  | start => exact first
  | step _ change ih => exact ih.step change

/-! What the readings find. -/

theorem row_ok {scope : ArtifactScope} {id : String} {record : ArtifactRecord} (read : db.row scope id = .ok record) :
    ∃ r ∈ db.artifacts, r.id = id ∧ r.scope = scope ∧ r.revokedAt = none ∧ record = r.record := by
  unfold Db.row at read
  obtain ⟨_,_,read⟩ := bind_ok read
  obtain ⟨_,_,read⟩ := bind_ok read
  cases found : db.find scope id with
  | none => rw [found] at read; contradiction
  | some r =>
    rw [found] at read
    obtain ⟨open_,same⟩ := guard_eq_ok.mp read
    have at_ : r.id = id ∧ r.ownerId = scope.ownerId ∧ r.taskId = scope.taskId := by simpa using List.find?_some found
    refine ⟨r,List.mem_of_find?_eq_some found,at_.1,?_,?_,(Except.ok.inj same).symm⟩
    · unfold ArtifactRow.scope
      rw [at_.2.1,at_.2.2]
    · by_contra revoked
      exact open_ (.inl (Option.isSome_iff_ne_none.mpr revoked))

/-- A record some scope can read. -/
def Found (db : Db) (record : ArtifactRecord) : Prop := ∃ scope id, db.row scope id = .ok record

theorem Found.live (shape : Shape db) {record : ArtifactRecord} (found : Found db record) : ∃ scope, Live db scope record.id := by
  obtain ⟨scope,id,read⟩ := found
  obtain ⟨r,member,named,inScope,open_,rfl⟩ := row_ok read
  exact ⟨scope,r,member,(shape.filed r member).id.symm,inScope,open_⟩

theorem rows_found {α : Type} {scope : α → ArtifactScope} {id : α → String} {xs : List α} {records : List ArtifactRecord}
    (read : xs.mapM (fun x => db.row (scope x) (id x)) = .ok records) : ∀ record ∈ records, Found db record := by
  intro record member
  have each := forall₂_mapM (R := fun x record => db.row (scope x) (id x) = .ok record) read fun _ _ ok => ok
  obtain ⟨x,_,ok⟩ := forall₂_mem each member
  exact ⟨_,_,ok⟩

theorem climb_found {scope : ArtifactScope} {found records : List ArtifactRecord}
    {current : Option String} (begun : ∀ record ∈ found, Found db record)
    (read : db.climb scope fuel seen found current = .ok records) : ∀ record ∈ records, Found db record := by
  induction fuel generalizing seen found current with
  | zero => contradiction
  | succ fuel ih =>
    unfold Db.climb at read
    split at read
    · cases Except.ok.inj read
      exact begun
    · split at read
      · contradiction
      · obtain ⟨record,row,read⟩ := bind_ok read
        apply ih _ read
        intro other member
        rcases List.mem_cons.mp member with rfl | old
        · exact ⟨_,_,row⟩
        · exact begun other old

theorem dependenciesOf_found {scope : ArtifactScope} {id : String} {records : List ArtifactRecord}
    (read : db.dependenciesOf scope id = .ok records) : ∀ record ∈ records, Found db record := by
  unfold Db.dependenciesOf at read
  obtain ⟨_,_,read⟩ := bind_ok read
  exact rows_found read

theorem list_found {scope : ArtifactScope} {records : List ArtifactRecord} (read : db.list scope = .ok records) :
    ∀ record ∈ records, Found db record := by
  unfold Db.list at read
  obtain ⟨_,_,read⟩ := bind_ok read
  exact rows_found read

theorem getStage_found {m : Machine} {scope : ArtifactScope} {stage : ArtifactStage}
    (read : m.getStage h scope stageId = .ok stage) : ∀ input ∈ stage.inputs, Found m.db input.1 := by
  unfold Machine.getStage at read
  obtain ⟨_,_,read⟩ := bind_ok read
  obtain ⟨records,rows,read⟩ := bind_ok read
  obtain ⟨_,_,read⟩ := bind_ok read
  cases Except.ok.inj read
  intro input member
  obtain ⟨record,there,rfl⟩ := List.mem_map.mp member
  exact rows_found rows record there

theorem stageable_ok {m : Machine} {scope : ArtifactScope} {records : List ArtifactRecord}
    (read : m.stageable h scope artifactIds = .ok records) :
    (∀ id ∈ artifactIds, Live m.db scope id) ∧ m.db.isTombstoned scope none = false ∧ ∀ record ∈ records, Found m.db record := by
  unfold Machine.stageable at read
  obtain ⟨_,_,read⟩ := bind_ok read
  obtain ⟨_,read⟩ := guard_eq_ok.mp read
  obtain ⟨clear,read⟩ := guard_eq_ok.mp read
  obtain ⟨found,rows,read⟩ := bind_ok read
  obtain ⟨_,read⟩ := guard_eq_ok.mp read
  cases Except.ok.inj read
  refine ⟨fun id member => ?_,by simpa using clear,rows_found rows⟩
  have each := forall₂_mapM (R := fun id record => m.db.row scope id = .ok record) rows fun _ _ ok => ok
  obtain ⟨record,_,ok⟩ := forall₂_mem each.flip member
  obtain ⟨r,there,named,inScope,open_,_⟩ := row_ok ok
  exact ⟨r,there,named,inScope,open_⟩

/-! What is checked before saving. -/

theorem keep_getD (value : Option String) : (keep value).getD "" = value.getD "" := by
  unfold keep given
  cases value with
  | none => rfl
  | some v =>
    by_cases empty : v = ""
    · simp [empty]
    · simp [empty]

theorem keep_some {value : Option String} (kept : keep value = some v) : value = some v ∧ given value = true := by
  unfold keep at kept
  split at kept
  · exact ⟨kept,‹_›⟩
  · contradiction

theorem admissible_ok (shape : Shape db) {input : ArtifactInput} {dependencies : List String} {linked : List ArtifactRecord}
    {admitted : Admitted} (ok : admissible h db input dependencies linked = .ok admitted) {id : String}
    (shaped : idPattern id = true) (now : Stamp) :
    Savable db (input.record h admitted id now)
        (dependencies ++ linked.map (fun source => source.id) ++ (admitted.parent.map fun p => p.id).toList) ∧
      input.bytes.length ≤ h.maxBytes := by
  unfold admissible at ok
  obtain ⟨_,checked,ok⟩ := bind_ok ok
  obtain ⟨_,_,ok⟩ := bind_ok ok
  obtain ⟨size,ok⟩ := guard_eq_ok.mp ok
  obtain ⟨_,_,ok⟩ := bind_ok ok
  obtain ⟨mimeType,_,ok⟩ := bind_ok ok
  obtain ⟨_,ok⟩ := guard_eq_ok.mp ok
  obtain ⟨parent,parented,ok⟩ := bind_ok ok
  obtain ⟨_,depended,ok⟩ := bind_ok ok
  obtain ⟨_,related,ok⟩ := bind_ok ok
  obtain ⟨clear,ok⟩ := guard_eq_ok.mp ok
  cases Except.ok.inj ok
  have parentRow (p : ArtifactRecord) (is_ : parent = some p) :
      db.row ⟨input.ownerId,input.taskId⟩ (input.parentId.getD "") = .ok p := by
    subst is_
    unfold Db.parentOf at parented
    split at parented
    · obtain ⟨p',row,same⟩ := map_ok parented
      cases Option.some.inj same
      exact row
    · cases Except.ok.inj parented
  refine ⟨⟨⟨rfl,rfl,rfl,rfl,rfl,shaped,checked⟩,?_,?_,?_⟩,by omega⟩
  · intro i member
    rcases List.mem_append.mp member with member | member
    · rcases List.mem_append.mp member with member | member
      · obtain ⟨record,row,_⟩ := map_ok (forM_ok depended i member)
        obtain ⟨q,mq,named,inScope,open_,_⟩ := row_ok row
        exact ⟨q,mq,named,congrArg ArtifactScope.ownerId inScope,open_⟩
      · obtain ⟨source,there,rfl⟩ := List.mem_map.mp member
        have linkedOk := forM_ok related source there
        unfold sameOwner at linkedOk
        obtain ⟨owner,linkedOk⟩ := guard_eq_ok.mp linkedOk
        obtain ⟨record,row,_⟩ := bind_ok linkedOk
        obtain ⟨q,mq,named,inScope,open_,_⟩ := row_ok row
        have owner : source.ownerId = input.ownerId := by simpa using owner
        exact ⟨q,mq,named,(congrArg ArtifactScope.ownerId inScope).trans owner,open_⟩
    · cases is_ : parent with
      | none => rw [is_] at member; simp at member
      | some p =>
        rw [is_] at member
        have same : i = p.id := by simpa using member
        obtain ⟨q,mq,_,inScope,open_,rfl⟩ := row_ok (parentRow p is_)
        exact ⟨q,mq,(shape.filed q mq).id.symm.trans same.symm,congrArg ArtifactScope.ownerId inScope,open_⟩
  · intro p kept
    obtain ⟨is_,there⟩ := keep_some kept
    unfold Db.parentOf at parented
    rw [if_pos there] at parented
    obtain ⟨record,row,rfl⟩ := map_ok parented
    rw [is_,Option.getD_some] at row
    obtain ⟨q,mq,named,inScope,_,rfl⟩ := row_ok row
    refine ⟨?_,q,mq,named,inScope⟩
    have filed := (shape.filed q mq).id
    simp [filed,named]
  · have open_ : db.isTombstoned ⟨input.ownerId,input.taskId⟩ (input.sourceRef.or (parent.bind fun p => p.sourceRef)) = false := by
      simpa using clear
    rw [isTombstoned_false] at open_ ⊢
    intro t member covered
    apply open_ t member
    obtain ⟨owner,task,source⟩ := covered
    refine ⟨owner,task,?_⟩
    have kept : t.sourceRef = "" ∨ t.sourceRef =
        (keep (input.sourceRef.or (parent.bind fun p => p.sourceRef))).getD "" := source
    rw [keep_getD] at kept
    exact kept

/-! The programs. -/

theorem reading_meets {α : Type} {P : Machine → Prop} {C : Machine → Prop} {f : Machine → Except String α}
    (broken : ∀ m, P m → C m) :
    Meets P (reading f) (fun a m => P m ∧ f m = .ok a) C := by
  unfold reading
  apply Meets.bind (M := fun r m => P m ∧ f m = r)
  · exact .look fun m holds => ⟨holds,rfl⟩
  · intro r
    refine .lift (fun m a held ok => ⟨held.1,held.2.trans ok⟩) fun m held => broken m held.1

/-- A predicate that the directories of stages do not matter to. -/
def Areal (P : Machine → Prop) : Prop := ∀ m stageId area, P m → P (m.setArea stageId area)

theorem removeStage_meets (areal : Areal P) (id : String) : Meets P (removeStage id) (fun _ => P) P:= by
  unfold removeStage
  apply Meets.bind (M := fun _ => P)
  · exact .lift (fun _ _ holds _ => holds) fun _ holds => holds
  intro _
  apply Meets.bind (M := fun _ => P)
  · exact .look fun _ holds => holds
  intro area
  apply Meets.bind (M := fun _ => P)
  · exact .guard (fun _ holds _ => holds) fun _ holds => holds
  intro _
  refine .when (fun _ => .write (fun _ holds => holds) fun m _ m' holds done => ?_) fun _ _ holds => holds
  obtain ⟨_,same⟩ := Prod.mk.inj (Except.ok.inj done)
  subst same
  exact areal m id none holds

theorem Trail.areal : Areal (Trail h releasing m₀) := fun _ stageId area trail => trail.step (.area stageId area)

theorem cleanupRevokedStages_meets (ownerId : Option String) :
    Meets (Trail h releasing m₀) (cleanupRevokedStages ownerId) (fun _ => Trail h releasing m₀) (Trail h releasing m₀) := by
  unfold cleanupRevokedStages
  apply Meets.bind (M := fun _ => Trail h releasing m₀)
  · exact .look fun _ trail => trail
  intro ids
  exact .each (I := fun _ => Trail h releasing m₀) ids fun id _ _ => removeStage_meets Trail.areal id

/-- A trail, and a name under which nothing readable is stored. -/
def Sparing (h : Host) (releasing : Bool) (m₀ : Machine) (db : Db) (id : String) (m : Machine) : Prop :=
  Trail h releasing m₀ m ∧ m.db = db ∧ Unneeded m id

theorem removeFile_meets {id : String} :
    Meets (Sparing h releasing m₀ db id) (removeFile id) (fun _ => Sparing h releasing m₀ db id)
      (Sparing h releasing m₀ db id) := by
  unfold removeFile
  apply Meets.bind (M := fun _ => Sparing h releasing m₀ db id)
  · exact .look fun _ holds => holds
  intro there
  refine .when (fun _ => .write (fun _ holds => holds) fun m _ m' holds done => ?_) fun _ _ holds => holds
  obtain ⟨_,same⟩ := Prod.mk.inj (Except.ok.inj done)
  subst same
  obtain ⟨trail,tables,unneeded⟩ := holds
  exact ⟨trail.step (.unlinked id unneeded),tables,unneeded⟩

theorem writeBlob_meets (sound : Sound h m₀) {id : String} {bytes : Bytes} :
    Meets (fun m => Trail h releasing m₀ m ∧ m.db = db) (writeBlob id bytes)
      (fun _ m => Sparing h releasing m₀ db id m ∧ m.blob id = some bytes) (Trail h releasing m₀) := by
  unfold writeBlob
  apply Meets.bind (M := fun _ m => Sparing h releasing m₀ db id m ∧ (m.blob id).isSome)
  · refine .write (fun _ holds => holds.1) fun m _ m' holds done => ?_
    obtain ⟨trail,tables⟩ := holds
    unfold Machine.createBlob at done
    split at done
    · contradiction
    · rename_i absent
      have absent : m.blob id = none := by simpa using absent
      obtain ⟨_,same⟩ := Prod.mk.inj (Except.ok.inj done)
      subst same
      refine ⟨⟨trail.step (.created id absent),tables,fun r member named open_ => ?_⟩,?_⟩
      · -- An artifact that can be read has its file.
        have now_ := (trail.keeps sound).1
        obtain ⟨bytes',original⟩ := now_.originals r member open_
        have there := original.there
        rw [(now_.shape.filed r member).id,named,absent] at there
        contradiction
      · have none : m.blobs.find? (fun b => b.1 = id) = none := Option.map_eq_none_iff.mp absent
        unfold Machine.blob
        rw [List.find?_append,none]
        simp
  · intro _
    refine .write (fun _ holds => holds.1.1) fun m _ m' holds done => ?_
    obtain ⟨⟨trail,tables,unneeded⟩,there⟩ := holds
    obtain ⟨_,same⟩ := Prod.mk.inj (Except.ok.inj done)
    subst same
    refine ⟨⟨trail.step (.filled id bytes unneeded),tables,unneeded⟩,?_⟩
    rw [blob_filled,if_pos rfl]
    obtain ⟨old,found⟩ := Option.isSome_iff_exists.mp there
    rw [found]
    rfl

theorem draw_meets {P : Machine → Prop} {C : Machine → Prop} (drew : ∀ m, P m → P { m with drawn := m.drawn + 1 }) :
    Meets P draw (fun _ => P) C := by
  unfold draw
  apply Meets.bind (M := fun _ => P)
  · exact .look fun _ holds => holds
  intro drawn
  apply Meets.bind (M := fun _ => P)
  · exact .note fun m holds => drew m holds
  intro _
  exact .pure fun _ holds => holds

/-- What a call that hands out a record ends with. -/
def Saved (h : Host) (releasing : Bool) (m₀ : Machine) (record : ArtifactRecord) (m : Machine) : Prop :=
  Trail h releasing m₀ m ∧ ∃ scope, Live m.db scope record.id

theorem save_meets (sound : Sound h m₀) (now : Stamp) (input : ArtifactInput) (dependencies : List String)
    (linked : List ArtifactRecord) :
    Meets (Trail h releasing m₀) (save h now input dependencies linked) (Saved h releasing m₀) (Trail h releasing m₀) := by
  refine .named fun m₁ trail₁ => ?_
  have shape₁ := (trail₁.keeps sound).1.shape
  unfold save
  apply Meets.bind (reading_meets fun m is_ => is_ ▸ trail₁)
  intro admitted
  refine .assume (F := admissible h m₁.db input dependencies linked = .ok admitted) (fun m held => held.1 ▸ held.2) fun checked => ?_
  apply Meets.bind (M := fun _ m => Trail h releasing m₀ m ∧ m.db = m₁.db)
  · apply Meets.pre (P := fun m => Trail h releasing m₀ m ∧ m.db = m₁.db)
    · exact draw_meets fun m held => ⟨held.1.step .drew,held.2⟩
    · rintro m ⟨rfl,_⟩
      exact ⟨trail₁,rfl⟩
  intro drawn
  dsimp only
  apply Meets.bind (M := fun _ m => (Trail h releasing m₀ m ∧ m.db = m₁.db) ∧ idPattern (h.uuid drawn) = true)
  · refine .lift (fun m _ held ok => ⟨held,?_⟩) fun _ held => held.1
    have ok : artifactId (h.uuid drawn) = .ok () := ok
    unfold artifactId at ok
    obtain ⟨shaped,_⟩ := guard_eq_ok.mp ok
    simpa using shaped
  intro _
  refine .assume (fun _ held => held.2) fun shaped => ?_
  obtain ⟨savable,size⟩ := admissible_ok shape₁ checked shaped now
  generalize made : input.record h admitted (h.uuid drawn) now = record at savable
  have facts : record.size = input.bytes.length ∧ record.sha256 = h.sha256 input.bytes := by
    rw [← made]
    exact ⟨rfl,rfl⟩
  apply Meets.bind
  · exact (writeBlob_meets sound).pre fun _ held => held.1
  intro _
  apply Meets.bind (M := fun _ m => Saved h releasing m₀ record m)
  · apply Meets.weaken (P := fun m => Sparing h releasing m₀ m₁.db record.id m ∧
        m.blob record.id = some (encrypt h (h.nonce drawn) record input.bytes))
      (Q := fun _ m => Saved h releasing m₀ record m) (C := Sparing h releasing m₀ m₁.db record.id)
    · apply Meets.rescue
      · refine .write (fun _ held => held.1) fun m _ m' held done => ?_
        obtain ⟨⟨trail,tables,_⟩,file⟩ := held
        obtain ⟨r,ran,same⟩ := map_ok done
        obtain ⟨_,rfl⟩ := Prod.mk.inj same
        rw [tables] at ran
        obtain ⟨fresh,made⟩ := saved_ok ran
        refine ⟨trail.step (.saved record _ input.bytes (tables ▸ savable) ⟨⟨_,file⟩,facts.1.symm,facts.2.symm,size⟩
          (tables ▸ ran)),record.row.scope,record.row,?_,rfl,rfl,rfl⟩
        show record.row ∈ r.2.artifacts
        rw [made]
        exact mem_withArtifact.mpr (.inr rfl)
      · intro e
        apply Meets.bind removeFile_meets
        intro _
        exact .throw fun _ held => held
    · exact fun _ held => held
    · exact fun _ _ held => held
    · exact fun _ held => held.1
  · intro _
    exact .pure fun _ held => held

theorem copyIntoTask_meets (sound : Sound h m₀) (now : Stamp) (sourceScope : ArtifactScope) (id : String)
    (targetScope : ArtifactScope) (name sourceRef : Option String) :
    Meets (Trail h releasing m₀) (copyIntoTask h now sourceScope id targetScope name sourceRef) (Saved h releasing m₀)
      (Trail h releasing m₀) := by
  unfold copyIntoTask
  apply Meets.bind (M := fun _ => Trail h releasing m₀)
  · exact .lift (fun _ _ trail _ => trail) fun _ trail => trail
  intro _
  apply Meets.bind (M := fun _ => Trail h releasing m₀)
  · exact .lift (fun _ _ trail _ => trail) fun _ trail => trail
  intro _
  apply Meets.bind (M := fun _ => Trail h releasing m₀)
  · exact .guard (fun _ trail _ => trail) fun _ trail => trail
  intro _
  apply Meets.bind ((reading_meets fun _ trail => trail).post fun _ _ held => held.1)
  intro source
  apply Meets.bind ((reading_meets fun _ trail => trail).post fun _ _ held => held.1)
  intro bytes
  exact save_meets sound now _ [] [source]

theorem putOutput_meets (sound : Sound h m₀) (now : Stamp) (scope : ArtifactScope) (stageId file : String)
    (options : OutputOptions) :
    Meets (Trail h releasing m₀) (putOutput h now scope stageId file options) (Saved h releasing m₀) (Trail h releasing m₀) := by
  unfold putOutput
  apply Meets.bind ((reading_meets fun _ trail => trail).post fun _ _ held => held.1)
  intro stage
  apply Meets.bind (M := fun _ => Trail h releasing m₀)
  · exact .lift (fun _ _ trail _ => trail) fun _ trail => trail
  intro _
  apply Meets.bind ((reading_meets fun _ trail => trail).post fun _ _ held => held.1)
  intro bytes
  exact save_meets sound now _ stage.inputIds []

end Neurobro.Artifacts
