import Mathlib.Logic.Relation
import Neurobro.Memory.Service

/-! What the transactions of the memory store do to its tables, and every durable step of
every call as one relation. -/
namespace Neurobro.Memory

open Durable List

variable {h : Host}

/-! An update by reference. -/

/-- The rows of `sources` with a new state for some references. -/
def restated (refs : List String) (state : SourceState) (r : SourceRow) : SourceRow :=
  if r.ref ∈ refs then { r with state := state } else r

/-- A row and what an update made of it: only its state, its payload and its blob can
differ. -/
structure SourceRow.Same (r r' : SourceRow) : Prop where
  ref : r'.ref = r.ref
  owner : r'.owner = r.owner
  account : r'.account = r.account
  scope : r'.scope = r.scope
  sourceId : r'.sourceId = r.sourceId
  version : r'.version = r.version
  eventAt : r'.eventAt = r.eventAt

theorem SourceRow.Same.refl (r : SourceRow) : r.Same r := ⟨rfl,rfl,rfl,rfl,rfl,rfl,rfl⟩

theorem SourceRow.Same.trans {r r' r'' : SourceRow} (first : r.Same r') (second : r'.Same r'') : r.Same r'' :=
  ⟨second.ref.trans first.ref,second.owner.trans first.owner,second.account.trans first.account,
    second.scope.trans first.scope,second.sourceId.trans first.sourceId,second.version.trans first.version,
    second.eventAt.trans first.eventAt⟩

theorem SourceRow.Same.of {r r' : SourceRow} (same : r.Same r') (owner account sourceId : String) :
    r'.Of owner account sourceId ↔ r.Of owner account sourceId := by
  unfold SourceRow.Of
  rw [same.owner,same.account,same.sourceId]

theorem restated_same (refs : List String) (state : SourceState) (r : SourceRow) : r.Same (restated refs state r) := by
  unfold restated
  split
  · exact ⟨rfl,rfl,rfl,rfl,rfl,rfl,rfl⟩
  · exact .refl r

@[simp] theorem restated_ref (refs : List String) (state : SourceState) (r : SourceRow) :
    (restated refs state r).ref = r.ref := (restated_same refs state r).ref

@[simp] theorem restated_payload (refs : List String) (state : SourceState) (r : SourceRow) :
    (restated refs state r).payload = r.payload := by
  unfold restated
  split <;> rfl

@[simp] theorem restated_blob (refs : List String) (state : SourceState) (r : SourceRow) :
    (restated refs state r).blob = r.blob := by
  unfold restated
  split <;> rfl

theorem restated_state (refs : List String) (state : SourceState) (r : SourceRow) :
    (restated refs state r).state = if r.ref ∈ refs then state else r.state := by
  unfold restated
  split <;> rfl

/-! Invalidation. -/

theorem mem_addOnce {derived : List String} {name x : String} : x ∈ addOnce derived name ↔ x ∈ derived ∨ x = name := by
  unfold addOnce
  by_cases there : derived.contains name = true
  · have member : name ∈ derived := by simpa using there
    rw [if_pos there]
    constructor
    · exact .inl
    · rintro (h | rfl)
      · exact h
      · exact member
  · rw [if_neg there]
    simp

/-- What one pass over derivations or revisions leaves alone. -/
structure Db.Kept (db db' : Db) : Prop where
  tombstones : db'.tombstones = db.tombstones
  derivations : db'.derivations = db.derivations
  invalidations : db'.invalidations = db.invalidations
  preferences : ∀ p' ∈ db'.preferences, ∃ p ∈ db.preferences, p' = p ∨ p' = { p with state := .revoked, payload := none }

theorem Db.Kept.refl (db : Db) : db.Kept db := ⟨rfl,rfl,rfl,fun p member => ⟨p,member,.inl rfl⟩⟩

theorem Db.Kept.trans {db db' db'' : Db} (first : db.Kept db') (second : db'.Kept db'') : db.Kept db'' where
  tombstones := second.tombstones.trans first.tombstones
  derivations := second.derivations.trans first.derivations
  invalidations := second.invalidations.trans first.invalidations
  preferences p'' member := by
    obtain ⟨p',member',h'⟩ := second.preferences p'' member
    obtain ⟨p,there,h⟩ := first.preferences p' member'
    refine ⟨p,there,?_⟩
    rcases h' with rfl | rfl <;> rcases h with rfl | rfl
    · exact .inl rfl
    · exact .inr rfl
    · exact .inr rfl
    · exact .inr rfl

theorem withdrawDerived_spec (ref : String) (acc : Db × List String) (d : Derivation) :
    acc.1.Kept (Db.withdrawDerived ref acc d).1 ∧ (Db.withdrawDerived ref acc d).1.sources = acc.1.sources ∧
      (Db.withdrawDerived ref acc d).2 = addOnce acc.2 d.name := by
  unfold Db.withdrawDerived
  refine ⟨?_,?_,rfl⟩
  · cases d.kind with
    | preference =>
      refine ⟨rfl,rfl,rfl,fun p' member => ?_⟩
      obtain ⟨p,there,rfl⟩ := mem_map.mp member
      refine ⟨p,there,?_⟩
      by_cases named : p.sourceRef = ref
      · right; simp only [if_pos named]
      · left; simp only [if_neg named]
    | procedure => exact ⟨rfl,rfl,rfl,fun p member => ⟨p,member,.inl rfl⟩⟩
    | artifact => exact .refl _
    | transcript => exact .refl _
    | summary => exact .refl _
  · cases d.kind <;> rfl

theorem withdrawDerived_foldl (ref : String) (derived : List Derivation) (acc : Db × List String) :
    acc.1.Kept (derived.foldl (Db.withdrawDerived ref) acc).1 ∧
      (derived.foldl (Db.withdrawDerived ref) acc).1.sources = acc.1.sources ∧
      ∀ name ∈ acc.2 ++ derived.map Derivation.name, name ∈ (derived.foldl (Db.withdrawDerived ref) acc).2 := by
  induction derived generalizing acc with
  | nil => exact ⟨.refl _,rfl,fun name member => by simpa using member⟩
  | cons d rest ih =>
    obtain ⟨kept,sources,named⟩ := withdrawDerived_spec ref acc d
    obtain ⟨keptRest,sourcesRest,namedRest⟩ := ih (Db.withdrawDerived ref acc d)
    refine ⟨kept.trans keptRest,sourcesRest.trans sources,fun name member => namedRest name ?_⟩
    rw [named]
    simp only [map_cons,mem_append,mem_cons] at member
    rcases member with old | rfl | later
    · exact mem_append_left _ (mem_addOnce.mpr (.inl old))
    · exact mem_append_left _ (mem_addOnce.mpr (.inr rfl))
    · exact mem_append_right _ later

/-- What one pass over the references does. -/
structure Withdrawn (ownerId : String) (state : SourceState) (refs : List String) (acc after : Db × List String) : Prop where
  kept : acc.1.Kept after.1
  sources : after.1.sources = acc.1.sources.map (restated refs state)
  earlier : ∀ name ∈ acc.2, name ∈ after.2
  named : ∀ d ∈ acc.1.derivations, d.owner = ownerId → d.sourceRef ∈ refs → d.name ∈ after.2

theorem withdraw_spec (ownerId : String) (state : SourceState) (acc : Db × List String) (ref : String) :
    Withdrawn ownerId state [ref] acc (Db.withdraw ownerId state acc ref) := by
  obtain ⟨kept,sources,named⟩ := withdrawDerived_foldl ref
    (acc.1.derivations.filter fun d => decide (d.owner = ownerId) && decide (d.sourceRef = ref)) acc
  constructor
  · exact ⟨kept.tombstones,kept.derivations,kept.invalidations,kept.preferences⟩
  · unfold Db.withdraw Db.setState
    dsimp only
    rw [sources]
    apply map_congr_left
    intro r _
    unfold restated
    simp only [mem_singleton]
  · exact fun name member => named name (mem_append_left _ member)
  · intro d member owner at_
    apply named
    apply mem_append_right
    exact mem_map_of_mem (mem_filter.mpr ⟨member,by simpa [owner] using at_⟩)

theorem restated_cons (ref : String) (refs : List String) (state : SourceState) (r : SourceRow) :
    restated refs state (restated [ref] state r) = restated (ref :: refs) state r := by
  unfold restated
  by_cases first : r.ref = ref <;> by_cases rest : r.ref ∈ refs <;> simp [first,rest]

theorem withdraw_foldl (ownerId : String) (state : SourceState) (refs : List String) (acc : Db × List String) :
    Withdrawn ownerId state refs acc (refs.foldl (Db.withdraw ownerId state) acc) := by
  induction refs generalizing acc with
  | nil =>
    refine ⟨.refl _,?_,fun _ member => member,fun d _ _ no => absurd no (by simp)⟩
    have same : restated [] state = id := by
      funext r
      unfold restated
      simp
    rw [same,map_id,foldl_nil]
  | cons ref rest ih =>
    have first := withdraw_spec ownerId state acc ref
    have later := ih (Db.withdraw ownerId state acc ref)
    constructor
    · exact first.kept.trans later.kept
    · rw [foldl_cons,later.sources,first.sources,map_map]
      apply map_congr_left
      intro r _
      exact restated_cons ref rest state r
    · exact fun name member => later.earlier name (first.earlier name member)
    · intro d member owner at_
      rcases mem_cons.mp at_ with same | there
      · exact later.earlier _ (first.named d member owner (by simpa using same))
      · exact later.named d (by rw [first.kept.derivations]; exact member) owner there

/-- The tables after an invalidation, and its entry. -/
structure Invalidated (ownerId : String) (rs : List String) (state : SourceState) (db : Db) (event : Invalidation) (db' : Db) :
    Prop where
  tombstones : db'.tombstones = db.tombstones
  derivations : db'.derivations = db.derivations
  preferences : ∀ p' ∈ db'.preferences, ∃ p ∈ db.preferences, p' = p ∨ p' = { p with state := .revoked, payload := none }
  sources : db'.sources = db.sources.map (restated rs state)
  invalidations : db'.invalidations = db.invalidations ++ [event]
  owner : event.ownerId = ownerId
  generation : event.generation = db.generation ownerId + 1
  refs : event.sourceRefs = rs
  named : ∀ d ∈ db.derivations, d.owner = ownerId → d.sourceRef ∈ rs → d.name ∈ event.derivedRefs

theorem invalidate_spec (ownerId : String) (refs : List String) (reason : Reason) (state : SourceState) (now : String) (db : Db) :
    Invalidated ownerId refs state db (db.invalidate ownerId refs reason state now).1
      (db.invalidate ownerId refs reason state now).2 := by
  have done := withdraw_foldl ownerId state refs (db,[])
  have same : (refs.foldl (Db.withdraw ownerId state) (db,[])).1.generation ownerId = db.generation ownerId := by
    unfold Db.generation
    rw [done.kept.invalidations]
  constructor
  · exact done.kept.tombstones
  · exact done.kept.derivations
  · exact done.kept.preferences
  · exact done.sources
  · exact congrArg (· ++ _) done.kept.invalidations
  · rfl
  · exact congrArg (· + 1) same
  · rfl
  · exact done.named

/-! What each transaction does to the sources. -/

/-- The payload of some revisions is dropped. -/
def emptied (refs : List String) (r : SourceRow) : SourceRow := if r.ref ∈ refs then { r with payload := none } else r

theorem emptied_same (refs : List String) (r : SourceRow) : r.Same (emptied refs r) := by
  unfold emptied
  split
  · exact ⟨rfl,rfl,rfl,rfl,rfl,rfl,rfl⟩
  · exact .refl r

@[simp] theorem emptied_state (refs : List String) (r : SourceRow) : (emptied refs r).state = r.state := by
  unfold emptied
  split <;> rfl

@[simp] theorem emptied_blob (refs : List String) (r : SourceRow) : (emptied refs r).blob = r.blob := by
  unfold emptied
  split <;> rfl

theorem emptied_payload (there : (emptied refs r).payload = some source) : r.payload = some source:= by
  unfold emptied at there
  split at there
  · contradiction
  · exact there

theorem emptied_cons (ref : String) (refs : List String) (r : SourceRow) :
    emptied refs (emptied [ref] r) = emptied (ref :: refs) r := by
  unfold emptied
  by_cases first : r.ref = ref <;> by_cases rest : r.ref ∈ refs <;> simp [first,rest]

/-- Only the payloads of the revisions named are dropped. -/
theorem setPayload_foldl (refs : List String) (db : Db) :
    refs.foldl (fun db ref => db.setPayload ref) db = { db with sources := db.sources.map (emptied refs) } := by
  induction refs generalizing db with
  | nil =>
    have same : emptied [] = id := by
      funext r
      unfold emptied
      simp
    simp [same]
  | cons ref rest ih =>
    rw [foldl_cons,ih]
    unfold Db.setPayload
    simp only [map_map]
    congr 1
    apply map_congr_left
    intro r _
    have one : (if r.ref = ref then { r with payload := none } else r) = emptied [ref] r := by
      unfold emptied
      simp
    rw [Function.comp_apply,one,emptied_cons]

/-- The tables after revisions were taken out of use, all of them named in one entry. -/
structure TakenOut (ownerId : String) (rs : List String) (state : SourceState) (db : Db) (event : Invalidation) (db' : Db) :
    Prop where
  derivations : db'.derivations = db.derivations
  preferences : ∀ p' ∈ db'.preferences, ∃ p ∈ db.preferences, p' = p ∨ p' = { p with state := .revoked, payload := none }
  sources : ∃ dropped, db'.sources = db.sources.map fun r => emptied dropped (restated rs state r)
  invalidations : db'.invalidations = db.invalidations ++ [event]
  owner : event.ownerId = ownerId
  generation : event.generation = db.generation ownerId + 1
  refs : event.sourceRefs = rs
  named : ∀ d ∈ db.derivations, d.owner = ownerId → d.sourceRef ∈ rs → d.name ∈ event.derivedRefs

theorem forgotten_takes {now : String} {row : SourceRow} {related : List SourceRow}
 {event : Invalidation} (done : forgotten now access row related mode db = .ok (event,db')) :
    TakenOut access.ownerId (related.map fun r => r.ref) mode.state db event db' ∧
      db'.tombstones = (if db.tombstoned row.owner row.account row.sourceId then db.tombstones
        else db.tombstones ++ [⟨row.owner,row.account,row.sourceId,now⟩]) := by
  dsimp only [forgotten] at done
  generalize buriedEq : (if db.tombstoned row.owner row.account row.sourceId then db
    else { db with tombstones := db.tombstones ++ [⟨row.owner,row.account,row.sourceId,now⟩] }) = buried at done
  have spec := invalidate_spec access.ownerId (related.map fun r => r.ref) mode.reason mode.state now buried
  generalize buried.invalidate access.ownerId (related.map fun r => r.ref) mode.reason mode.state now = taken at done spec
  obtain ⟨rfl,rfl⟩ := Prod.mk.inj (Except.ok.inj done)
  have sources : buried.sources = db.sources := by rw [← buriedEq]; split <;> rfl
  have derivations : buried.derivations = db.derivations := by rw [← buriedEq]; split <;> rfl
  have invalidations : buried.invalidations = db.invalidations := by rw [← buriedEq]; split <;> rfl
  have preferences : buried.preferences = db.preferences := by rw [← buriedEq]; split <;> rfl
  have generation : buried.generation access.ownerId = db.generation access.ownerId := by
    unfold Db.generation
    rw [invalidations]
  have tombstones : buried.tombstones = (if db.tombstoned row.owner row.account row.sourceId then db.tombstones
      else db.tombstones ++ [⟨row.owner,row.account,row.sourceId,now⟩]) := by rw [← buriedEq]; split <;> rfl
  have dropped := setPayload_foldl (related.map fun r => r.ref) taken.2
  rw [foldl_map] at dropped
  constructor
  · constructor
    · dsimp only [Db.withdrawCoverage]
      split
      · rw [dropped]; exact spec.derivations.trans derivations
      · exact spec.derivations.trans derivations
    · dsimp only [Db.withdrawCoverage]
      rw [← preferences]
      split
      · rw [dropped]; exact spec.preferences
      · exact spec.preferences
    · dsimp only [Db.withdrawCoverage]
      split
      · refine ⟨related.map fun r => r.ref,?_⟩
        rw [dropped]
        dsimp only
        rw [spec.sources,sources,map_map]
        rfl
      · refine ⟨[],?_⟩
        have same : ∀ r, emptied [] r = r := fun r => by unfold emptied; simp
        simp only [same]
        rw [spec.sources,sources]
    · dsimp only [Db.withdrawCoverage]
      rw [← invalidations]
      split
      · rw [dropped]; exact spec.invalidations
      · exact spec.invalidations
    · exact spec.owner
    · exact spec.generation.trans (congrArg (· + 1) generation)
    · exact spec.refs
    · rw [← derivations]; exact spec.named
  · dsimp only [Db.withdrawCoverage]
    rw [← tombstones]
    split
    · rw [dropped]; exact spec.tombstones
    · exact spec.tombstones

theorem retained_takes {now : String} {related : List SourceRow}
 {event : Invalidation} (done : retained now access related expired db = .ok (event,db')) :
    TakenOut access.ownerId expired .erased db event db' ∧ db'.tombstones = db.tombstones := by
  dsimp only [retained] at done
  have spec := invalidate_spec access.ownerId expired .retention .erased now db
  generalize db.invalidate access.ownerId expired .retention .erased now = taken at done spec
  obtain ⟨rfl,rfl⟩ := Prod.mk.inj (Except.ok.inj done)
  rw [setPayload_foldl]
  constructor
  · constructor
    · exact spec.derivations
    · exact spec.preferences
    · refine ⟨expired,?_⟩
      dsimp only [Db.withdrawCoverage]
      rw [spec.sources,map_map]
      rfl
    · exact spec.invalidations
    · exact spec.owner
    · exact spec.generation
    · exact spec.refs
    · exact spec.named
  · exact spec.tombstones

/-- The tables between the invalidation of the former revision, if there is one, and the
insertion of the new one. -/
structure Replaced (source : SourceRevision) (db mid : Db) : Prop where
  fresh : ∀ r ∈ mid.sources, r.ref ≠ source.ref
  novel : ∀ r ∈ mid.sources, r.Of source.ownerId source.accountId source.sourceId → r.version ≠ source.version
  invalidated : superseded source db = [] ∧ mid = db ∨
    ∃ event, Invalidated source.ownerId (superseded source db) .superseded db event mid

theorem ingested_spec {now : String}
    (done : ingested now source db = .ok ((),db')) :
    ∃ mid, Replaced source db mid ∧
      db' = { mid with sources := mid.sources ++ [source.row (blobName source.ref)] } := by
  dsimp only [ingested] at done
  obtain ⟨conflictFree,same⟩ := guard_eq_ok.mp done
  cases Except.ok.inj same
  refine ⟨_,⟨?_,?_,?_⟩,rfl⟩
  · intro r member clash
    apply conflictFree
    rw [any_eq_true]
    exact ⟨r,member,by simp [clash]⟩
  · intro r member of clash
    apply conflictFree
    rw [any_eq_true]
    exact ⟨r,member,by simp [clash,of]⟩
  · by_cases none : ((db.current source.ownerId source.accountId source.sourceId).map fun r => r.ref).isEmpty = true
    · left
      exact ⟨List.isEmpty_iff.mp none,if_pos none⟩
    · right
      rw [if_neg none]
      exact ⟨_,invalidate_spec ..⟩

/-! What is recorded without touching a source. -/

/-- A derivation stands on a revision of its owner. -/
def Derivation.Grounded (d : Derivation) (rows : List SourceRow) : Prop :=
  ∃ r ∈ rows, r.ref = d.sourceRef ∧ r.owner = d.owner

/-- A preference stands on a revision of its owner, and its sealed record agrees with its
row. -/
structure PreferenceRow.Grounded (p : PreferenceRow) (rows : List SourceRow) : Prop where
  source : ∃ r ∈ rows, r.ref = p.sourceRef ∧ r.owner = p.owner
  payload : ∀ record ∈ p.payload, record.sourceRef = p.sourceRef ∧ record.ownerId = p.owner ∧ record.scope = p.scope

structure Recorded (db db' : Db) : Prop where
  sources : db'.sources = db.sources
  tombstones : db'.tombstones = db.tombstones
  derivations : ∀ d ∈ db'.derivations, d ∈ db.derivations ∨ d.Grounded db.sources
  preferences : ∀ p' ∈ db'.preferences,
    (∃ p ∈ db.preferences, p' = p ∨ p' = { p with state := .superseded }) ∨ p'.Grounded db.sources
  invalidations : db'.invalidations = db.invalidations ∨
    ∃ event, db'.invalidations = db.invalidations ++ [event] ∧ event.generation = db.generation event.ownerId + 1

theorem sourceRow_mem {db : Db} {row : SourceRow} (found : db.sourceRow ref = some row) :
    row ∈ db.sources ∧ row.ref = ref :=
  ⟨mem_of_find?_eq_some found,by simpa using List.find?_some found⟩

theorem derivable_grounded {ownerId ref : String} (h : derivable ownerId db ref = .ok ()) :
    ∃ r ∈ db.sources, r.ref = ref ∧ r.owner = ownerId := by
  unfold derivable at h
  split at h
  · contradiction
  · rename_i row found
    obtain ⟨accepted,_⟩ := guard_eq_ok.mp h
    obtain ⟨member,at_⟩ := sourceRow_mem found
    exact ⟨row,member,at_,by_contra fun other => accepted (.inl other)⟩

theorem insertDerivation_spec (d : Derivation) (db : Db) :
    ∃ ds, db.insertDerivation d = { db with derivations := ds } ∧ ∀ e ∈ ds, e ∈ db.derivations ∨ e = d := by
  unfold Db.insertDerivation
  split
  · exact ⟨db.derivations,rfl,fun _ member => .inl member⟩
  · exact ⟨_,rfl,fun e member => by simpa using member⟩

theorem insertDerivations_spec (d : String → Derivation) (refs : List String) (db : Db) :
    ∃ ds, refs.foldl (fun db ref => db.insertDerivation (d ref)) db = { db with derivations := ds } ∧
      ∀ e ∈ ds, e ∈ db.derivations ∨ ∃ ref ∈ refs, e = d ref := by
  induction refs generalizing db with
  | nil => exact ⟨db.derivations,rfl,fun _ member => .inl member⟩
  | cons ref rest ih =>
    obtain ⟨ds,frame,grown⟩ := insertDerivation_spec (d ref) db
    obtain ⟨ds',frameRest,grownRest⟩ := ih (db.insertDerivation (d ref))
    refine ⟨ds',?_,fun e member => ?_⟩
    · rw [foldl_cons,frameRest,frame]
    · rw [frame] at grownRest
      rcases grownRest e member with old | ⟨later,there,rfl⟩
      · rcases grown e old with older | rfl
        · exact .inl older
        · exact .inr ⟨ref,mem_cons_self,rfl⟩
      · exact .inr ⟨later,mem_cons_of_mem _ there,rfl⟩

theorem registered_spec {ownerId id : String}
    (done : registered ownerId id kind refs db = .ok db') :
    ∃ ds, db' = { db with derivations := ds } ∧ ∀ d ∈ ds, d ∈ db.derivations ∨ d.Grounded db.sources := by
  unfold registered at done
  obtain ⟨_,_,done⟩ := bind_ok done
  obtain ⟨_,checked,done⟩ := bind_ok done
  cases Except.ok.inj done
  obtain ⟨ds,frame,grown⟩ := insertDerivations_spec (fun ref => ⟨id,kind,ownerId,ref⟩) refs db
  refine ⟨ds,frame,fun d member => ?_⟩
  rcases grown d member with old | ⟨ref,there,rfl⟩
  · exact .inl old
  · right
    exact derivable_grounded (forM_ok checked ref there)

theorem preferable_grounded {input : PreferenceInput} {db : Db} (h : preferable input db = .ok ()) :
    ∃ r ∈ db.sources, r.ref = input.sourceRef ∧ r.owner = input.ownerId := by
  unfold preferable at h
  obtain ⟨_,h⟩ := guard_eq_ok.mp h
  obtain ⟨_,_,h⟩ := bind_ok h
  obtain ⟨_,_,h⟩ := bind_ok h
  obtain ⟨_,_,h⟩ := bind_ok h
  split at h
  · contradiction
  · rename_i row found
    obtain ⟨accepted,_⟩ := guard_eq_ok.mp h
    obtain ⟨member,at_⟩ := sourceRow_mem found
    exact ⟨row,member,at_,by_contra fun other => accepted (.inl other)⟩

/-- What a preference says of its input. -/
theorem after_fields {input : PreferenceInput} {drawn now : String}
    (h : input.after previous drawn now = .ok p) :
    p.sourceRef = input.sourceRef ∧ p.ownerId = input.ownerId ∧ p.scope = input.scope := by
  unfold PreferenceInput.after at h
  obtain ⟨_,h⟩ := guard_eq_ok.mp h
  cases Except.ok.inj h
  exact ⟨rfl,rfl,rfl⟩

/-- The tables of a preference before its derivation is registered. -/
theorem superseded_preferences (id : String) (known : Bool) (db : Db) :
    ∃ ps, (if known then db.supersedePreferences id else db) = { db with preferences := ps } ∧
      ∀ p' ∈ ps, ∃ p ∈ db.preferences, p' = p ∨ p' = { p with state := .superseded } := by
  by_cases some : known = true
  · rw [if_pos some]
    refine ⟨_,rfl,fun p' member => ?_⟩
    obtain ⟨p,there,rfl⟩ := mem_map.mp member
    refine ⟨p,there,?_⟩
    by_cases closed : p.id = id ∧ p.state = .active
    · right; simp only [if_pos closed]
    · left; simp only [if_neg closed]
  · rw [if_neg some]
    exact ⟨db.preferences,rfl,fun p member => ⟨p,member,.inl rfl⟩⟩

theorem preferred_recorded {now drawn : String} {input : PreferenceInput}
    (checked : preferable input db = .ok ()) (done : preferred now drawn input db = .ok (preference,db')) :
    Recorded db db' := by
  dsimp only [preferred] at done
  obtain ⟨p,made,done⟩ := bind_ok done
  obtain ⟨ps,closed,old⟩ := superseded_preferences p.id (db.previousPreference input).isSome db
  rw [closed] at done
  obtain ⟨_,done⟩ := guard_eq_ok.mp done
  obtain ⟨linked,registers,done⟩ := bind_ok done
  obtain ⟨rfl,rfl⟩ := Prod.mk.inj (Except.ok.inj done)
  obtain ⟨ds,rfl,grounded⟩ := registered_spec registers
  obtain ⟨sourceRef,ownerId,scope⟩ := after_fields made
  constructor
  · rfl
  · rfl
  · exact grounded
  · intro p' member
    rcases mem_append.mp member with earlier | new
    · exact .inl (old p' earlier)
    · right
      cases mem_singleton.mp new
      refine ⟨?_,?_⟩
      · obtain ⟨r,there,at_,owner⟩ := preferable_grounded checked
        exact ⟨r,there,at_.trans sourceRef.symm,owner.trans ownerId.symm⟩
      · intro record same
        cases Option.some.inj same
        exact ⟨rfl,rfl,rfl⟩
  · right
    exact ⟨_,rfl,rfl⟩

theorem mirrored_recorded {now drawn : String} {input : ProcedureInput} {record : ProcedureCandidate}
    (done : mirrored now drawn input db = .ok (record,db')) : Recorded db db' := by
  have stored (id : String) (r : ProcedureCandidate) {linked : Db}
      (registers : registered input.ownerId id .procedure input.sourceRefs ((db.replaceProcedure r).deleteDerivations id .procedure)
        = .ok linked) : Recorded db linked := by
    obtain ⟨ds,rfl,grounded⟩ := registered_spec registers
    refine ⟨rfl,rfl,fun d member => ?_,fun p member => .inl ⟨p,member,.inl rfl⟩,.inl rfl⟩
    rcases grounded d member with old | new
    · exact .inl (mem_of_mem_filter old)
    · exact .inr new
  dsimp only [mirrored] at done
  split at done
  · obtain ⟨linked,registers,done⟩ := bind_ok done
    obtain ⟨rfl,rfl⟩ := Prod.mk.inj (Except.ok.inj done)
    exact stored _ _ registers
  · obtain ⟨_,done⟩ := guard_eq_ok.mp done
    split at done
    · obtain ⟨_,_,same⟩ := map_ok done
      cases same
      exact ⟨rfl,rfl,fun d member => .inl member,fun p member => .inl ⟨p,member,.inl rfl⟩,.inl rfl⟩
    · obtain ⟨linked,registers,done⟩ := bind_ok done
      obtain ⟨rfl,rfl⟩ := Prod.mk.inj (Except.ok.inj done)
      exact stored _ _ registers

end Neurobro.Memory
