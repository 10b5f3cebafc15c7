import Mathlib.Data.List.Induction
import Neurobro.Memory.Erasure

/-! The revisions of a source only move forward as long as retention never erases the
current revision of a source that keeps another one. -/
namespace Neurobro.Memory

open Durable List

variable {h : Host}

/-- The source is closed for good, or its current revision is no older than `n`. -/
def Db.Leads (db : Db) (owner account sourceId : String) (n : Int) : Prop :=
  db.tombstoned owner account sourceId = true ∨ ∃ r ∈ db.sources, r.Of owner account sourceId ∧
    r.state = .active ∧ ∃ s, r.payload = some s ∧ n ≤ s.revisionSequence

/-! What takes revisions out of use. -/

/-- No revision arrives or becomes current, and a current one goes only with its source. -/
structure Wanes (db db' : Db) : Prop where
  refs : (db'.sources.map fun r => r.ref) = db.sources.map fun r => r.ref
  tombstones : ∀ owner account sourceId, db.tombstoned owner account sourceId = true →
    db'.tombstoned owner account sourceId = true
  kept : ∀ r ∈ db.sources, r.state = .active → db'.tombstoned r.owner r.account r.sourceId = true ∨
    ∃ r' ∈ db'.sources, r.Same r' ∧ r'.state = .active ∧ r'.payload = r.payload
  old : ∀ r' ∈ db'.sources, ∃ r ∈ db.sources, r.Same r' ∧ (r'.state = .active → r.state = .active) ∧
    ∀ s ∈ r'.payload, r.payload = some s

theorem Wanes.refl (db : Db) : Wanes db db :=
  ⟨rfl,fun _ _ _ there => there,fun r member active => .inr ⟨r,member,.refl r,active,rfl⟩,
    fun r member => ⟨r,member,.refl r,fun active => active,fun _ there => there⟩⟩

theorem Wanes.trans {db db' db'' : Db} (first : Wanes db db') (second : Wanes db' db'') : Wanes db db'' where
  refs := second.refs.trans first.refs
  tombstones owner account sourceId there :=
    second.tombstones owner account sourceId (first.tombstones owner account sourceId there)
  kept r member active := by
    rcases first.kept r member active with closed | ⟨r',there,same,active',payload⟩
    · exact .inl (second.tombstones _ _ _ closed)
    · rcases second.kept r' there active' with closed | ⟨r'',there',same',active'',payload'⟩
      · left
        rwa [same.owner,same.account,same.sourceId] at closed
      · exact .inr ⟨r'',there',same.trans same',active'',payload'.trans payload⟩
  old r'' member := by
    obtain ⟨r',there',same',active',payload'⟩ := second.old r'' member
    obtain ⟨r,there,same,active,payload⟩ := first.old r' there'
    exact ⟨r,there,same.trans same',fun is => active (active' is),fun s held => payload s (payload' s held)⟩

theorem Db.Leads.wanes
    (leads : db.Leads owner account sourceId n) (wanes : Wanes db db') : db'.Leads owner account sourceId n := by
  rcases leads with closed | ⟨r,member,of,active,s,payload,newer⟩
  · exact .inl (wanes.tombstones _ _ _ closed)
  · rcases wanes.kept r member active with closed | ⟨r',there,same,active',payload'⟩
    · left
      obtain ⟨rfl,rfl,rfl⟩ := of
      exact closed
    · exact .inr ⟨r',there,(same.of _ _ _).mpr of,active',s,payload'.trans payload,newer⟩

/-- An update row by row under which a current row goes only with its source. -/
theorem Wanes.mapped (rows : db'.sources = db.sources.map f)
    (tombstones : ∀ owner account sourceId, db.tombstoned owner account sourceId = true →
      db'.tombstoned owner account sourceId = true)
    (same : ∀ r : SourceRow, r.Same (f r)) (active : ∀ r : SourceRow, (f r).state = .active → r.state = .active)
    (payload : ∀ (r : SourceRow) (s : SourceRevision), (f r).payload = some s → r.payload = some s)
    (stays : ∀ r ∈ db.sources, r.state = .active → db'.tombstoned r.owner r.account r.sourceId = true ∨
      (f r).state = .active ∧ (f r).payload = r.payload) : Wanes db db' where
  refs := by
    rw [rows,map_map]
    exact map_congr_left fun r _ => (same r).ref
  tombstones := tombstones
  kept r member is := by
    rcases stays r member is with closed | ⟨state,held⟩
    · exact .inl closed
    · exact .inr ⟨f r,by rw [rows]; exact mem_map_of_mem member,same r,state,held⟩
  old r' member := by
    rw [rows] at member
    obtain ⟨r,there,rfl⟩ := mem_map.mp member
    exact ⟨r,there,same r,active r,payload r⟩

theorem wanes_setBlob (db : Db) (ref : String) : Wanes db (db.setBlob ref) := by
  apply Wanes.mapped (setBlob_rows ref db) (fun _ _ _ there => there)
  · intro r
    split
    · exact ⟨rfl,rfl,rfl,rfl,rfl,rfl,rfl⟩
    · exact .refl r
  · intro r active
    split at active <;> exact active
  · intro r s there
    split at there <;> exact there
  · intro r _ active
    right
    split <;> exact ⟨active,rfl⟩

theorem wanes_taken (rs dropped : List String) {state : SourceState} (inactive : state ≠ .active)
    (rows : db'.sources = db.sources.map fun r => emptied dropped (restated rs state r))
    (within : ∀ ref ∈ dropped, ref ∈ rs)
    (tombstones : ∀ owner account sourceId, db.tombstoned owner account sourceId = true →
      db'.tombstoned owner account sourceId = true)
    (closes : ∀ r ∈ db.sources, r.state = .active → r.ref ∈ rs → db'.tombstoned r.owner r.account r.sourceId = true) :
    Wanes db db' := by
  have subdued := subdued_taken rs dropped inactive
  apply Wanes.mapped rows tombstones subdued.same subdued.active subdued.payload
  intro r member active
  by_cases out : r.ref ∈ rs
  · exact .inl (closes r member active out)
  · right
    have stays : r.ref ∉ dropped := fun gone => out (within _ gone)
    simp [emptied,restated,out,stays,active]

theorem forgotten_rows {now : String} {row : SourceRow} {related : List SourceRow}
 {event : Invalidation} (done : forgotten now access row related mode db = .ok (event,db')) :
    ∃ dropped, (∀ ref ∈ dropped, ref ∈ related.map fun r => r.ref) ∧ db'.sources = db.sources.map fun r =>
      emptied dropped (restated (related.map fun r => r.ref) mode.state r) := by
  dsimp only [forgotten] at done
  generalize buriedEq : (if db.tombstoned row.owner row.account row.sourceId then db
    else { db with tombstones := db.tombstones ++ [⟨row.owner,row.account,row.sourceId,now⟩] }) = buried at done
  have spec := invalidate_spec access.ownerId (related.map fun r => r.ref) mode.reason mode.state now buried
  generalize buried.invalidate access.ownerId (related.map fun r => r.ref) mode.reason mode.state now = taken at done spec
  obtain ⟨rfl,rfl⟩ := Prod.mk.inj (Except.ok.inj done)
  have sources : buried.sources = db.sources := by rw [← buriedEq]; split <;> rfl
  have emptying := setPayload_foldl (related.map fun r => r.ref) taken.2
  rw [foldl_map] at emptying
  dsimp only [Db.withdrawCoverage]
  by_cases erase : mode = .erase
  · refine ⟨related.map fun r => r.ref,fun _ there => there,?_⟩
    rw [if_pos erase,emptying]
    dsimp only
    rw [spec.sources,sources,map_map]
    rfl
  · refine ⟨[],fun _ none => absurd none (by simp),?_⟩
    have same : ∀ r, emptied [] r = r := fun r => by simp [emptied]
    simp only [same]
    rw [if_neg erase,spec.sources,sources]

theorem retained_rows {now : String} {related : List SourceRow}
 {event : Invalidation} (done : retained now access related expired db = .ok (event,db')) :
    db'.sources = db.sources.map fun r => emptied expired (restated expired .erased r) := by
  dsimp only [retained] at done
  have spec := invalidate_spec access.ownerId expired .retention .erased now db
  generalize db.invalidate access.ownerId expired .retention .erased now = taken at done spec
  obtain ⟨rfl,rfl⟩ := Prod.mk.inj (Except.ok.inj done)
  rw [setPayload_foldl]
  dsimp only [Db.withdrawCoverage]
  rw [spec.sources,map_map]
  rfl

theorem row_unique {db : Db} (refs : (db.sources.map fun r => r.ref).Nodup) (member : r ∈ db.sources)
    (member' : r' ∈ db.sources) (same : r'.ref = r.ref) : r' = r :=
  inj_on_of_nodup_map refs member' member same

/-- Forgetting closes the source of all the revisions it takes. -/
theorem forgotten_wanes {now : String} {access : MemoryAccess} {row : SourceRow}
    {event : Invalidation} (refs : (db.sources.map fun r => r.ref).Nodup)
    (done : forgotten now access row (db.related row.owner row.account row.sourceId) mode db = .ok (event,db')) :
    Wanes db db' := by
  obtain ⟨dropped,within,rows⟩ := forgotten_rows done
  obtain ⟨_,tombstones⟩ := forgotten_takes done
  apply wanes_taken _ dropped (mode_inactive mode) rows within
  · intro owner account sourceId there
    unfold Db.tombstoned at there ⊢
    rw [tombstones]
    split
    · exact there
    · exact tombstoned_append.mpr (.inl there)
  · intro r member _ out
    obtain ⟨r',there,same⟩ := mem_map.mp out
    obtain ⟨there,of⟩ := mem_filter.mp there
    obtain rfl := row_unique refs member there same
    obtain ⟨owner,account,sourceId⟩ := of_decide_eq_true of
    unfold Db.tombstoned
    rw [tombstones,owner,account,sourceId]
    split
    · assumption
    · exact tombstoned_append.mpr (.inr ⟨rfl,rfl,rfl⟩)

/-! Retention that spares the current revisions. -/

/-- Where the current revision of a source is before the cutoff, so are the others. -/
def SparesCurrent (access : MemoryAccess) (cutoff : String) (db : Db) : Prop :=
  ∀ r ∈ db.sources, r.state = .active → access.permits r = true → r.eventAt < cutoff →
    ∀ r' ∈ db.related r.owner r.account r.sourceId, r'.state ≠ .erased → r'.eventAt < cutoff

/-- What retention does, one source after another: nothing comes back from erasure. -/
structure Sweeps (db db' : Db) : Prop where
  wanes : Wanes db db'
  erased : ∀ r' ∈ db'.sources, r'.state ≠ .erased → ∃ r ∈ db.sources, r.Same r' ∧ r.state ≠ .erased

theorem Sweeps.refl (db : Db) : Sweeps db db := ⟨.refl db,fun r member live => ⟨r,member,.refl r,live⟩⟩

theorem Sweeps.trans {db db' db'' : Db} (first : Sweeps db db') (second : Sweeps db' db'') : Sweeps db db'' where
  wanes := first.wanes.trans second.wanes
  erased r'' member live := by
    obtain ⟨r',there',same',live'⟩ := second.erased r'' member live
    obtain ⟨r,there,same,is⟩ := first.erased r' there' live'
    exact ⟨r,there,same.trans same',is⟩

theorem SparesCurrent.sweeps (spares : SparesCurrent access cutoff db)
    (sweeps : Sweeps db db') : SparesCurrent access cutoff db' := by
  intro r member active permitted before r' related live
  obtain ⟨q,there,same,was,_⟩ := sweeps.wanes.old r member
  obtain ⟨member',of⟩ := mem_filter.mp related
  obtain ⟨q',there',same',live'⟩ := sweeps.erased r' member' live
  rw [same.permits] at permitted
  rw [same.eventAt] at before
  rw [same'.eventAt]
  refine spares q there (was active) permitted before q' (mem_filter.mpr ⟨there',?_⟩) live'
  have near := of_decide_eq_true of
  rw [same'.of,same.owner,same.account,same.sourceId] at near
  exact decide_eq_true near

theorem sweeps_setBlob (db : Db) (ref : String) : Sweeps db (db.setBlob ref) where
  wanes := wanes_setBlob db ref
  erased r' member live := by
    rw [setBlob_rows] at member
    obtain ⟨r,there,rfl⟩ := mem_map.mp member
    refine ⟨r,there,?_,?_⟩
    · split
      · exact ⟨rfl,rfl,rfl,rfl,rfl,rfl,rfl⟩
      · exact .refl r
    · split at live <;> exact live

/-- Revisions that are erased stay so, the others are the ones that were. -/
theorem sweeps_erasing (wanes : Wanes db db')
    (rows : db'.sources = db.sources.map fun r => emptied dropped (restated rs .erased r)) : Sweeps db db' where
  wanes := wanes
  erased r' member live := by
    rw [rows] at member
    obtain ⟨r,there,rfl⟩ := mem_map.mp member
    refine ⟨r,there,(restated_same _ _ r).trans (emptied_same _ _),?_⟩
    rw [emptied_state,restated_state] at live
    split at live
    · exact absurd rfl live
    · exact live

theorem forgotten_sweeps {now : String} {row : SourceRow} {event : Invalidation}
    (refs : (db.sources.map fun r => r.ref).Nodup)
    (done : forgotten now access row (db.related row.owner row.account row.sourceId) .erase db = .ok (event,db')) :
    Sweeps db db' := by
  obtain ⟨dropped,_,rows⟩ := forgotten_rows done
  exact sweeps_erasing (forgotten_wanes refs done) rows

/-- A turn of retention that leaves a later revision leaves the current one. -/
theorem retained_sweeps {now cutoff : String} {access : MemoryAccess} {row : SourceRow} {event : Invalidation}
    (refs : (db.sources.map fun r => r.ref).Nodup) (spares : SparesCurrent access cutoff db) {related : List SourceRow}
    (all : related = (db.related row.owner row.account row.sourceId).filter fun r => !decide (r.state = .erased))
    (later : ¬ (related.all fun r => r.eventAt < cutoff) = true)
    (done : retained now access related ((related.filter fun r => access.permits r && decide (r.eventAt < cutoff)).map
      fun r => r.ref) db = .ok (event,db')) : Sweeps db db' := by
  have rows := retained_rows done
  refine sweeps_erasing (wanes_taken _ _ (by decide) rows (fun _ there => there) (fun owner account sourceId there => ?_)
    fun r member active out => (later ?_).elim) rows
  · unfold Db.tombstoned at there ⊢
    rwa [(retained_takes done).2]
  · obtain ⟨r',there,same⟩ := mem_map.mp out
    obtain ⟨inside,chosen⟩ := mem_filter.mp there
    obtain ⟨permitted,before⟩ := Bool.and_eq_true_iff.mp chosen
    have inside' := inside
    rw [all] at inside'
    obtain ⟨near,_⟩ := mem_filter.mp inside'
    obtain ⟨member',of⟩ := mem_filter.mp near
    obtain rfl := row_unique refs member member' same
    obtain ⟨owner,account,sourceId⟩ := of_decide_eq_true of
    apply all_eq_true.mpr
    intro q there
    rw [all] at there
    obtain ⟨close,live⟩ := mem_filter.mp there
    apply decide_eq_true
    apply spares r' member' active permitted (of_decide_eq_true before) q
    · rw [owner,account,sourceId]
      exact close
    · simpa using live

/-! The calls. -/

/-- Finishing the erasures keeps what holds of the tables whichever blob is cleared. -/
theorem finishErasures_keeps {P : Db → Prop} (clears : ∀ db ref, P db → P (db.setBlob ref)) :
    Meets (fun m : Machine => P m.db) finishErasures (fun _ m => P m.db) fun m : Machine => P m.db := by
  unfold finishErasures
  refine .bind (M := fun _ m => P m.db) (.look fun _ held => held) fun rows => ?_
  have loop : Meets (fun m : Machine => P m.db) (Script.each finishErasure rows) (fun _ m => P m.db) fun m => P m.db := by
    refine .each (I := fun _ (m : Machine) => P m.db) rows fun row _ _ => ?_
    unfold finishErasure
    refine .bind (M := fun _ m => P m.db) (.look fun _ held => held) fun there => ?_
    refine .bind (M := fun _ m => P m.db) (.when (fun _ => ?_) fun _ _ held => held) fun _ => ?_
    · refine .write (fun _ held => held) fun m a m' held done => ?_
      unfold Machine.unlink at done
      split at done
      · cases done
        exact held
      · contradiction
    · refine .write (fun _ held => held) fun m a m' held done => ?_
      cases done
      exact clears _ _ held
  refine .bind loop fun _ => .bind (M := fun _ m => P m.db) (.when (fun _ => ?_) fun _ _ held => held) fun _ =>
    .note fun _ held => held
  refine .write (fun _ held => held) fun m a m' held done => ?_
  cases done
  exact held

theorem transaction_keeps {α : Type} {db : Db} {P : Db → Prop} {dropped : Db → List String}
    {f : Db → Except String (α × Db)} (begun : P db) (does : ∀ a db', f db = .ok (a,db') → P db') :
    Meets (fun m : Machine => m.db = db) (transaction dropped f) (fun _ m => P m.db) fun m => P m.db := by
  have still : ∀ m : Machine, m.db = db → P m.db := by
    rintro m rfl
    exact begun
  refine .step still (fun m a m' held done => ?_) fun m a m' held done => ?_
  · subst held
    obtain ⟨⟨a',db'⟩,ran,same⟩ := map_ok done
    cases same
    exact does a' db' ran
  · exact still m held

/-- What forgetting leaves, and what erasure leaves. -/
def Forgotten (mode : Mode) (db db' : Db) : Prop := Wanes db db' ∧ (mode = .erase → Sweeps db db')

theorem Forgotten.setBlob (gone : Forgotten mode db db') (ref : String) : Forgotten mode db (db'.setBlob ref):=
  ⟨gone.1.trans (wanes_setBlob db' ref),fun erase => (gone.2 erase).trans (sweeps_setBlob db' ref)⟩

theorem forget_wanes (now : String) (access : MemoryAccess) (ref : String) (mode : Mode) {db : Db}
    (refs : (db.sources.map fun r => r.ref).Nodup) :
    Meets (fun m => m.db = db) (forget now access ref mode) (fun _ m => Forgotten mode db m.db)
      fun m => Forgotten mode db m.db := by
  have begun : Forgotten mode db db := ⟨.refl db,fun _ => .refl db⟩
  have still : ∀ m : Machine, m.db = db → Forgotten mode db m.db := by
    rintro m rfl
    exact begun
  unfold forget
  refine .bind (M := fun seen m => m.db = db ∧ seen = db) (.look fun m held => ⟨held,held⟩) fun seen => ?_
  apply Meets.assume (fun m held => held.2)
  rintro rfl
  cases found : seen.sourceRow ref with
  | none => exact .throw fun m held => still m held.1
  | some row =>
    refine .bind (M := fun _ m => m.db = seen) (.guard (fun m held _ => held.1) fun m held => still m held.1) fun _ => ?_
    refine .bind (transaction_keeps begun fun event db' done => ?_) fun event => ?_
    · refine ⟨forgotten_wanes refs done,?_⟩
      rintro rfl
      exact forgotten_sweeps refs done
    · refine .bind (.when (fun _ => finishErasures_keeps fun _ name gone => gone.setBlob name) fun _ _ held => held) fun _ => ?_
      exact .pure fun _ held => held

theorem expire_sweeps (now : String) (access : MemoryAccess) (cutoff : String)
    (acc : List (String × String) × List Invalidation) (ref : String) {db : Db}
    (refs : (db.sources.map fun r => r.ref).Nodup) (spares : SparesCurrent access cutoff db) :
    Meets (fun m : Machine => Sweeps db m.db) (expire now access cutoff acc ref) (fun _ m => Sweeps db m.db)
      fun m : Machine => Sweeps db m.db := by
  refine .named fun m₁ swept => ?_
  have refs' : (m₁.db.sources.map fun r => r.ref).Nodup := swept.wanes.refs ▸ refs
  have spares' := spares.sweeps swept
  have still : ∀ m : Machine, m.db = m₁.db → Sweeps db m.db := fun m same => same ▸ swept
  unfold expire
  refine .bind (M := fun seen m => m.db = m₁.db ∧ seen = m₁.db) (.look ?_) fun seen => ?_
  · rintro m rfl
    exact ⟨rfl,rfl⟩
  apply Meets.assume (fun m held => held.2)
  rintro rfl
  refine .pre (P := fun m => m.db = m₁.db) ?_ fun m held => held.1
  cases found : m₁.db.sourceRow ref with
  | none => exact .throw still
  | some row =>
    refine .ite (fun _ => .pure still) fun _ => .ite (fun _ => ?_) fun later => ?_
    · refine .bind (M := fun _ m => Sweeps db m.db) ?_ fun event => .pure fun _ held => held
      exact (forget_wanes now access ref .erase refs').weaken (fun _ held => held)
        (fun _ m gone => swept.trans (gone.2 rfl)) fun m gone => swept.trans (gone.2 rfl)
    · refine .bind (transaction_keeps swept fun event db' done => ?_) fun event => ?_
      · exact swept.trans (retained_sweeps refs' spares' rfl later done)
      · refine .bind (finishErasures_keeps fun db' name held => ?_) fun _ => .pure fun _ held => held
        exact held.trans (sweeps_setBlob db' name)

theorem expireBefore_sweeps (now : String) (access : MemoryAccess) (cutoff : String)
    (refs : (db.sources.map fun r => r.ref).Nodup) (spares : SparesCurrent access cutoff db) :
    Meets (fun m => m.db = db) (expireBefore h now access cutoff) (fun _ m => Sweeps db m.db)
      fun m => Sweeps db m.db := by
  have still : ∀ m : Machine, m.db = db → Sweeps db m.db := by
    rintro m rfl
    exact .refl m.db
  unfold expireBefore
  refine .bind (M := fun _ m => Sweeps db m.db) (.guard (fun m held _ => still m held) still) fun _ => ?_
  refine .bind (M := fun _ m => Sweeps db m.db) (.look fun _ held => held) fun rows => ?_
  refine .bind (M := fun _ m => Sweeps db m.db) ?_ fun acc => .pure fun _ held => held
  exact .fold (I := fun _ _ (m : Machine) => Sweeps db m.db) _ _ fun acc ref _ _ =>
    expire_sweeps now access cutoff acc ref refs spares

/-- What an ingestion does to the tables: nothing, or its transaction. -/
def Arrives (h : Host) (input : SourceInput) (db db' : Db) : Prop :=
  db' = db ∨ admitted h input db = .ok none ∧ ∃ ref now, ingested now (input.revision h ref now) db = .ok ((),db')

theorem ingestSource_arrives (now : String) (input : SourceInput) (db : Db) :
    Meets (fun m => m.db = db) (ingestSource h now input) (fun _ m => Arrives h input db m.db)
      fun m => Arrives h input db m.db := by
  have still : ∀ m : Machine, m.db = db → Arrives h input db m.db := fun m same => .inl same
  unfold ingestSource
  refine .bind (M := fun seen m => m.db = db ∧ seen = db) (.look fun m held => ⟨held,held⟩) fun seen => ?_
  apply Meets.assume (fun m held => held.2)
  rintro rfl
  refine .bind (M := fun r m => m.db = seen ∧ admitted h input seen = .ok r) (.lift (fun m a held ran => ⟨held.1,ran⟩)
    fun m held => still m held.1) fun r => ?_
  apply Meets.assume (fun m held => held.2)
  intro allowed
  refine .pre (P := fun m => m.db = seen) ?_ fun m held => held.1
  cases r with
  | some old => exact .pure still
  | none =>
    refine .bind (M := fun _ m => m.db = seen) ?_ fun ref => ?_
    · unfold randomUUID
      refine .bind (M := fun _ m => m.db = seen) (.look fun _ held => held) fun drawn => ?_
      exact .bind (M := fun _ m => m.db = seen) (.note fun _ held => held) fun _ => .pure fun _ held => held
    refine .bind (M := fun _ m => m.db = seen) ?_ fun _ => ?_
    · refine .write still fun m a m' held done => ?_
      unfold Machine.createBlob at done
      obtain ⟨_,same⟩ := guard_eq_ok.mp done
      cases same
      exact held
    refine .bind (M := fun _ m => m.db = seen) ?_ fun _ => ?_
    · refine .write still fun m a m' held done => ?_
      cases done
      exact held
    let Tried (r : Except String Unit) (m : Machine) := Arrives h input seen m.db ∧ ((∃ e, r = .error e) → m.db = seen)
    refine .bind (M := Tried) (.attempt still (fun m a m' held done => ?_) (fun m a m' e held _ => ?_) fun m e held => ?_)
      fun r => ?_
    · subst held
      obtain ⟨⟨_,db'⟩,ran,same⟩ := map_ok done
      cases same
      exact ⟨.inr ⟨allowed,ref,now,ran⟩,fun ⟨e,no⟩ => by contradiction⟩
    · exact ⟨still m held,fun _ => held⟩
    · exact ⟨still m held,fun _ => held⟩
    cases r with
    | ok _ => exact .bind (M := fun _ m => Arrives h input seen m.db) (.note fun m held => held.1) fun _ => .pure fun _ held => held
    | error e =>
      refine .bind (M := fun _ m => m.db = seen) ?_ fun _ => .throw still
      refine .write (fun m held => held.1) fun m a m' held done => ?_
      unfold Machine.unlink at done
      split at done
      · cases done
        exact held.2 ⟨e,rfl⟩
      · contradiction

/-- What is only recorded leaves every revision as it was. -/
theorem Trail.wanes (trail : Trail h false m labels m') : Wanes m.db m'.db := by
  induction trail with
  | start => exact .refl _
  | step _ change ih =>
    apply ih.trans
    cases change with
    | process | drew | created | filled | unlinked | finished => exact .refl _
    | cleared ref => exact wanes_setBlob _ ref
    | tables index change =>
      cases change with
      | recorded done =>
        refine .mapped (f := id) (by rw [done.sources,map_id]) (fun owner account sourceId there => ?_) .refl
          (fun _ active => active) (fun _ _ held => held) fun _ _ active => .inr ⟨active,rfl⟩
        unfold Db.tombstoned at there ⊢
        rwa [done.tombstones]

/-- Retention spares the current revisions of sources that keep others. -/
def Cautious (db : Db) : Call → Prop
  | .expireBefore access cutoff => SparesCurrent access cutoff db
  | _ => True

/-- One call, however it ends: revisions go, or one arrives that was admitted. -/
def Moves (h : Host) (db db' : Db) : Prop := Wanes db db' ∨ ∃ input, Arrives h input db db'

theorem perform_moves (good : Good h m₀) (event : Call × String) (cautious : Cautious m₀.db event.1) :
    Meets (fun m => m = m₀) (perform h event) (fun _ m => Moves h m₀.db m.db) fun m => Moves h m₀.db m.db := by
  have still : ∀ m, m = m₀ → Moves h m₀.db m.db := by
    rintro _ rfl
    exact .inl (.refl _)
  have opens {α : Type} {m : Script Machine α}
      (body : Meets (fun m => m = m₀) m (fun _ m => Moves h m₀.db m.db) fun m => Moves h m₀.db m.db) :
      Meets (fun m => m = m₀) (ready m) (fun _ m => Moves h m₀.db m.db) fun m => Moves h m₀.db m.db := by
    unfold ready
    refine .bind (M := fun _ m => m = m₀) (.look fun _ held => held) fun opened => ?_
    exact .bind (M := fun _ m => m = m₀) (.guard (fun _ held _ => held) still) fun _ => body
  have answers {α : Type} {m : Script Machine α} {k : α → Answer} {P : Db → Prop} (moves : ∀ db, P db → Moves h m₀.db db)
      (spec : Meets (fun m => m = m₀) m (fun _ m => P m.db) fun m => P m.db) :
      Meets (fun m => m = m₀) (m >>= fun a => pure (k a)) (fun _ m => Moves h m₀.db m.db) fun m => Moves h m₀.db m.db :=
    .bind (M := fun _ m => Moves h m₀.db m.db)
      (spec.weaken (fun _ held => held) (fun _ m held => moves _ held) fun m held => moves _ held) fun _ => .pure fun _ held => held
  have records {α : Type} {m : Script Machine α} {k : α → Answer}
      (spec : Meets (fun m => m = m₀) m (fun _ => Records h m₀) (Records h m₀)) :
      Meets (fun m => m = m₀) (m >>= fun a => pure (k a)) (fun _ m => Moves h m₀.db m.db) fun m => Moves h m₀.db m.db :=
    answers (fun _ wanes => .inl wanes) (spec.weaken (fun _ held => held) (fun _ _ trail => trail.wanes) fun _ trail => trail.wanes)
  have refs := good.sound.refs
  have at_ : ∀ m, m = m₀ → m.db = m₀.db := fun _ same => congrArg Machine.db same
  have begun : ∀ m, m = m₀ → Records h m₀ m := by
    rintro _ rfl
    exact .start
  obtain ⟨call,now⟩ := event
  cases call with
  | reopen => exact records (reopen_meets good.sound)
  | ingestSource input =>
    exact opens (answers (fun _ arrives => .inr ⟨input,arrives⟩) ((ingestSource_arrives now input m₀.db).pre at_))
  | forget access ref mode =>
    exact opens (answers (fun _ gone => .inl gone.1) ((forget_wanes now access ref mode refs).pre at_))
  | expireBefore access cutoff =>
    exact opens (answers (fun _ swept => .inl swept.wanes) ((expireBefore_sweeps now access cutoff refs cautious).pre at_))
  | putPreference input => exact opens (records (putPreference_meets good.sound now input))
  | mirrorProcedureCandidate input => exact opens (records (mirrorProcedureCandidate_meets good.sound now input))
  | registerDerived ownerId id kind sourceRefs =>
    exact opens (records ((registerDerived_meets ownerId id kind sourceRefs).pre begun))
  | recordCoverage input => exact opens (records (recordCoverage_meets good.sound now input))
  | buildContext request => exact opens (records (buildContext_meets good.sound now request))

theorem next_moves (good : Good h m) (event : Event) (cautious : Cautious m.db event.1.1) :
    Moves h m.db (next h m event).2.db := by
  have ended : Ends (fun _ m' => Moves h m.db m'.db) (fun m' => Moves h m.db m'.db) (next h m event).1 (next h m event).2 :=
    stepOf_ends (P := fun m' => m' = m) rfl (perform_moves good event.1 cautious) fun _ held => held
  cases outcome : (next h m event).1 <;> rw [outcome] at ended <;> exact ended

/-! What an admitted revision comes after. -/

theorem admitted_ordered {input : SourceInput} (good : Good h m) (allowed : admitted h input m.db = .ok none)
 (member : r ∈ m.db.sources) (of : r.Of input.ownerId input.accountId input.sourceId)
    (active : r.state = .active) :
    ∃ sequence s, input.revisionSequence = some sequence ∧ r.payload = some s ∧ s.revisionSequence < sequence := by
  have current : r ∈ m.db.current input.ownerId input.accountId input.sourceId :=
    mem_filter.mpr ⟨member,by simp [of,active]⟩
  unfold admitted at allowed
  obtain ⟨_,_,allowed⟩ := bind_ok allowed
  obtain ⟨_,allowed⟩ := guard_eq_ok.mp allowed
  split at allowed
  · obtain ⟨_,_,same⟩ := bind_ok allowed
    cases same
  · cases head : (m.db.current input.ownerId input.accountId input.sourceId).head? with
    | none =>
      rw [List.head?_eq_none_iff.mp head] at current
      cases current
    | some r' =>
      rw [head] at allowed
      obtain ⟨_,checked,_⟩ := bind_ok allowed
      obtain ⟨member',is⟩ := mem_filter.mp (mem_of_head? head)
      simp only [Bool.and_eq_true,decide_eq_true_eq] at is
      obtain ⟨owner,account,sourceId⟩ := is.1
      have only : r.ref = r'.ref := good.orderly.single r member r' member' active is.2 (by rw [owner,account,sourceId]; exact of)
      obtain rfl := good.sound.unique member' member only
      unfold ordered at checked
      cases given : input.revisionSequence with
      | none =>
        rw [given] at checked
        contradiction
      | some sequence =>
        rw [given] at checked
        obtain ⟨s,decoded,checked⟩ := bind_ok checked
        have newer : ¬ sequence ≤ s.revisionSequence := fun stale => by simp [stale] at checked
        exact ⟨sequence,s,rfl,decode_ok decoded,by omega⟩

/-- The transaction of an ingestion, as one update of the rows and one more row. -/
theorem ingested_rows {now : String} (done : ingested now source db = .ok ((),db')) :
    db'.sources = db.sources.map (restated (superseded source db) .superseded) ++ [source.row (blobName source.ref)] ∧
      db'.tombstones = db.tombstones ∧ ∀ r ∈ db.sources, r.ref ≠ source.ref := by
  obtain ⟨mid,⟨fresh,_,replaced⟩,rfl⟩ := ingested_spec done
  rcases replaced with ⟨none,rfl⟩ | ⟨event,spec⟩
  · have same : restated [] .superseded = id := by
      funext r
      simp [restated]
    exact ⟨by rw [none,same,map_id],rfl,fresh⟩
  · refine ⟨by rw [spec.sources],spec.tombstones,fun r member => ?_⟩
    have there : restated (superseded source db) .superseded r ∈ mid.sources := by
      rw [spec.sources]
      exact mem_map_of_mem member
    simpa using fresh _ there

/-- The revisions of the other sources, and those that were not current, stay. -/
theorem arrived_leads {input : SourceInput} {ref now owner account sourceId : String}
    (good : Good h m) (allowed : admitted h input m.db = .ok none)
    (done : ingested now (input.revision h ref now) m.db = .ok ((),db')) (leads : m.db.Leads owner account sourceId n) :
    db'.Leads owner account sourceId n := by
  obtain ⟨rows,tombstones,_⟩ := ingested_rows done
  rcases leads with closed | ⟨r,member,of,active,s,payload,newer⟩
  · left
    unfold Db.tombstoned at closed ⊢
    rwa [tombstones]
  · right
    by_cases own : r.Of input.ownerId input.accountId input.sourceId
    · obtain ⟨sequence,s',given,payload',after_⟩ := admitted_ordered good allowed member own active
      obtain rfl : s = s' := Option.some.inj (payload.symm.trans payload')
      obtain ⟨rfl,rfl,rfl⟩ := of
      obtain ⟨o,a,i⟩ := own
      refine ⟨_,by rw [rows]; exact mem_append_right _ (mem_singleton_self _),⟨o.symm,a.symm,i.symm⟩,rfl,_,rfl,?_⟩
      have sequence_ : (input.revision h ref now).revisionSequence = sequence := by simp [SourceInput.revision,given]
      omega
    · have stays : r.ref ∉ superseded (input.revision h ref now) m.db := by
        intro out
        obtain ⟨r',there,same⟩ := mem_map.mp out
        obtain ⟨there,chosen⟩ := mem_filter.mp there
        simp only [Bool.and_eq_true,decide_eq_true_eq] at chosen
        exact own (good.sound.unique member there same ▸ chosen.1)
      refine ⟨r,?_,of,active,s,payload,newer⟩
      rw [rows]
      apply mem_append_left
      have kept : restated (superseded (input.revision h ref now) m.db) .superseded r = r := if_neg stays
      exact kept ▸ mem_map_of_mem member

theorem Moves.leads (good : Good h m)
    (moves : Moves h m.db db') (leads : m.db.Leads owner account sourceId n) : db'.Leads owner account sourceId n := by
  rcases moves with wanes | ⟨input,rfl | ⟨allowed,ref,now,done⟩⟩
  · exact leads.wanes wanes
  · exact leads
  · exact arrived_leads good allowed done leads

/-- A revision with its record was there before, or leads its source. -/
theorem Moves.row {m : Machine} (moves : Moves h m.db db') (member : r ∈ db'.sources)
 (payload : r.payload = some s) :
    (∃ q ∈ m.db.sources, q.Same r ∧ q.payload = some s) ∨ db'.Leads r.owner r.account r.sourceId s.revisionSequence := by
  rcases moves with wanes | ⟨input,rfl | ⟨allowed,ref,now,done⟩⟩
  · obtain ⟨q,there,same,_,held⟩ := wanes.old r member
    exact .inl ⟨q,there,same,held s payload⟩
  · exact .inl ⟨r,member,.refl r,payload⟩
  · obtain ⟨rows,_,_⟩ := ingested_rows done
    have found := member
    rw [rows] at found
    rcases mem_append.mp found with old | new
    · obtain ⟨q,there,rfl⟩ := mem_map.mp old
      exact .inl ⟨q,there,restated_same _ _ q,by simpa using payload⟩
    · right
      cases mem_singleton.mp new
      cases Option.some.inj payload
      exact .inr ⟨_,member,⟨rfl,rfl,rfl⟩,rfl,_,rfl,Int.le_refl _⟩

/-- What becomes current comes after all that its source is led by. -/
theorem Moves.activated (good : Good h m) (moves : Moves h m.db db')
    (member : r ∈ db'.sources) (active : r.state = .active)
    (news : ∀ q ∈ m.db.sources, q.ref = r.ref → q.state ≠ .active) :
    ∃ s, r.payload = some s ∧ ∀ n, m.db.Leads r.owner r.account r.sourceId n → n < s.revisionSequence := by
  rcases moves with wanes | ⟨input,rfl | ⟨allowed,ref,now,done⟩⟩
  · obtain ⟨q,there,same,was,_⟩ := wanes.old r member
    exact absurd (was active) (news q there same.ref.symm)
  · exact absurd active (news r member rfl)
  · obtain ⟨rows,_,_⟩ := ingested_rows done
    rw [rows] at member
    rcases mem_append.mp member with old | new
    · obtain ⟨q,there,rfl⟩ := mem_map.mp old
      have was : q.state = .active := by
        rw [restated_state] at active
        split at active
        · contradiction
        · exact active
      exact absurd was (news q there (restated_ref _ _ q).symm)
    · cases mem_singleton.mp new
      refine ⟨_,rfl,fun n leads => ?_⟩
      rcases leads with closed | ⟨q,there,of,is,s,payload,newer⟩
      · exact absurd (closed.symm.trans (admitted_untombed allowed)) (by simp)
      · obtain ⟨sequence,s',given,payload',after_⟩ := admitted_ordered good allowed there of is
        obtain rfl : s = s' := Option.some.inj (payload.symm.trans payload')
        have sequence_ : (input.revision h ref now).revisionSequence = sequence := by simp [SourceInput.revision,given]
        omega

/-! Runs. -/

theorem after_append (run : List Event) (event : Event) : after h (run ++ [event]) = (next h (after h run) event).2 :=
  (play_append ..).trans rfl

/-- A revision that the store held of a source at some point of a run. -/
def Held (h : Host) (run : List Event) (owner account sourceId : String) (s : SourceRevision) : Prop :=
  ∃ first later, run = first ++ later ∧ ∃ r ∈ (after h first).db.sources, r.Of owner account sourceId ∧ r.payload = some s

/-- In every call of a run, retention spares the current revisions of sources that keep
others. -/
def Retains (h : Host) (run : List Event) : Prop :=
  ∀ first event later, run = first ++ event :: later → Cautious (after h first).db event.1.1

/-- A revision that becomes current in a call of the run comes after every revision its
source had before. -/
def Forward (h : Host) (run : List Event) : Prop :=
  ∀ first event later, run = first ++ event :: later → ∀ r ∈ (next h (after h first) event).2.db.sources,
    r.state = .active → (∀ q ∈ (after h first).db.sources, q.ref = r.ref → q.state ≠ .active) →
      ∃ s, r.payload = some s ∧
        ∀ s', Held h first r.owner r.account r.sourceId s' → s'.revisionSequence < s.revisionSequence

theorem Retains.earlier {first later : List Event} (retains : Retains h (first ++ later)) : Retains h first :=
  fun before event rest same => retains before event (rest ++ later) (by rw [same]; simp)

theorem retains_nil : Retains h [] := fun _ _ _ same => by simp at same

theorem Retains.snoc {run : List Event} (retains : Retains h run) (event : Event)
    (cautious : Cautious (after h run).db event.1.1) : Retains h (run ++ [event]) := by
  intro first last later split
  rcases eq_nil_or_concat later with rfl | ⟨rest,final,rfl⟩
  · obtain ⟨rfl,same⟩ := append_inj' split rfl
    cases same
    exact cautious
  · rw [concat_eq_append,← cons_append,← append_assoc] at split
    exact retains first last rest (append_inj' split rfl).1

theorem held_last {run : List Event} {event : Event}
    (held : Held h (run ++ [event]) owner account sourceId s) : Held h run owner account sourceId s ∨
      ∃ r ∈ (next h (after h run) event).2.db.sources, r.Of owner account sourceId ∧ r.payload = some s := by
  obtain ⟨first,later,split,there⟩ := held
  rcases eq_nil_or_concat later with rfl | ⟨rest,last,rfl⟩
  · right
    rw [append_nil] at split
    rwa [← split,after_append] at there
  · left
    rw [concat_eq_append,← append_assoc] at split
    exact ⟨first,rest,(append_inj' split rfl).1,there⟩

/-- Every source is led by the newest revision it ever had. -/
theorem Retains.leads {run : List Event} (retains : Retains h run) {owner account sourceId : String}
    (held : Held h run owner account sourceId s) : (after h run).db.Leads owner account sourceId s.revisionSequence := by
  induction run using List.reverseRecOn with
  | nil =>
    obtain ⟨first,later,split,r,there,_⟩ := held
    obtain ⟨rfl,_⟩ := append_eq_nil_iff.mp split.symm
    cases there
  | append_singleton run event ih =>
    have good := after_good (h := h) run
    have moves := next_moves good event (retains run event [] rfl)
    have earlier : Held h run owner account sourceId s →
        (next h (after h run) event).2.db.Leads owner account sourceId s.revisionSequence :=
      fun before => moves.leads good (ih retains.earlier before)
    rw [after_append]
    rcases held_last held with before | ⟨r,there,of,payload⟩
    · exact earlier before
    · rcases moves.row there payload with ⟨q,old,same,payload'⟩ | leads
      · exact earlier ⟨run,[],(append_nil run).symm,q,old,(same.of _ _ _).mp of,payload'⟩
      · obtain ⟨rfl,rfl,rfl⟩ := of
        exact leads

/-- Where no retention erases the current revision of a source that keeps another one,
each revision that becomes current has a higher sequence than all its source had before,
whatever was erased in between. -/
theorem revisions_forward (h : Host) (run : List Event) (retains : Retains h run) : Forward h run := by
  rintro first event later rfl r member active news
  have good := after_good (h := h) first
  have moves := next_moves good event (retains first event later rfl)
  obtain ⟨s,payload,newer⟩ := moves.activated good member active news
  exact ⟨s,payload,fun s' held => newer _ (retains.earlier.leads held)⟩

/-! An edit after retention, and one that comes late. -/

def edit (version eventAt : String) (sequence : Int) : SourceInput :=
  { ownerId := "owner", accountId := "account", scope := "scope", sourceId := "a", version := version, eventAt := eventAt,
    text := "text", revisionSequence := some sequence }

/-- Retention erases the first revision of a message that was edited. -/
def edited : List Event :=
  [((.reopen,"now"),[]),((.ingestSource (edit "1" "2020" 1),"now"),[]),((.ingestSource (edit "2" "2024" 5),"now"),[]),
   ((.expireBefore reader "2022","now"),[]),((.ingestSource (edit "3" "2025" 7),"now"),[])]

/-- Retention erases an edit that is dated before the message, and an older edit comes. -/
def backdated : List Event :=
  [((.reopen,"now"),[]),((.ingestSource (edit "1" "2024" 1),"now"),[]),((.ingestSource (edit "2" "2020" 5),"now"),[]),
   ((.expireBefore reader "2022","now"),[]),((.ingestSource (edit "3" "2025" 3),"now"),[])]

theorem spares_of_late
    (late : (db.sources.all fun r => !decide (r.state = .active) || !decide (r.eventAt < cutoff)) = true) :
    SparesCurrent access cutoff db := by
  intro r member active _ before
  have := all_eq_true.mp late r member
  simp [active,before] at this

theorem retains_edited : Retains plain edited := by
  have opened : Retains plain (edited.take 1) := retains_nil.snoc ((.reopen,"now"),[]) trivial
  have first : Retains plain (edited.take 2) := opened.snoc ((.ingestSource (edit "1" "2020" 1),"now"),[]) trivial
  have second : Retains plain (edited.take 3) := first.snoc ((.ingestSource (edit "2" "2024" 5),"now"),[]) trivial
  have late : SparesCurrent reader "2022" (after plain (edited.take 3)).db := spares_of_late (by decide +kernel)
  have third : Retains plain (edited.take 4) := second.snoc ((.expireBefore reader "2022","now"),[]) late
  exact third.snoc ((.ingestSource (edit "3" "2025" 7),"now"),[]) trivial

/-- The last edit is current in the end. -/
theorem revisions_forward_edited : Forward plain edited ∧
    ((after plain edited).db.sources.map fun r => r.payload.map fun s => s.revisionSequence) = [none,some 5,some 7] :=
  ⟨revisions_forward plain edited retains_edited,by decide +kernel⟩

/-- The message goes back from its fifth to its third revision. -/
theorem backdated_not_forward : ¬Forward plain backdated := by
  intro forward
  have third : ((after plain backdated).db.sources.any fun r => decide (r.state = .active) &&
      decide (r.Of "owner" "account" "a") && decide ((r.payload.map fun s => s.revisionSequence) = some 3)) = true := by
    decide +kernel
  have fifth : ((after plain (backdated.take 3)).db.sources.any fun r => decide (r.Of "owner" "account" "a") &&
      decide ((r.payload.map fun s => s.revisionSequence) = some 5)) = true := by
    decide +kernel
  have none : ((after plain (backdated.take 4)).db.sources.any fun r => decide (r.state = .active)) = false := by
    decide +kernel
  obtain ⟨r,member,is⟩ := any_eq_true.mp third
  obtain ⟨r',member',is'⟩ := any_eq_true.mp fifth
  simp only [Bool.and_eq_true,decide_eq_true_eq] at is is'
  obtain ⟨⟨active,owner,account,source⟩,sequence⟩ := is
  obtain ⟨of,sequence'⟩ := is'
  obtain ⟨s',payload',five⟩ := Option.map_eq_some_iff.mp sequence'
  obtain ⟨s,payload,newer⟩ := forward (backdated.take 4) _ [] rfl r member active fun q there _ is =>
    any_eq_false.mp none q there (decide_eq_true is)
  rw [payload] at sequence
  have three : s.revisionSequence = 3 := Option.some.inj sequence
  have := newer s' ⟨backdated.take 3,(backdated.take 4).drop 3,rfl,r',member',by rwa [owner,account,source],payload'⟩
  omega

end Neurobro.Memory
