import Neurobro.Memory.Calls

/-! The invariant of the memory store: one current revision for each source, none for a
tombstoned one, invalidations numbered from one, and records that agree with their rows. -/
namespace Neurobro.Memory

open Durable List

variable {h : Host}

def Db.entries (db : Db) (owner : String) : List Invalidation := db.invalidations.filter fun e => e.ownerId = owner

/-- The sealed revision agrees with its row. -/
structure SourceRow.Agrees (r : SourceRow) (s : SourceRevision) : Prop where
  ref : s.ref = r.ref
  owner : s.ownerId = r.owner
  account : s.accountId = r.account
  scope : s.scope = r.scope
  sourceId : s.sourceId = r.sourceId
  version : s.version = r.version

structure Orderly (db : Db) : Prop where
  single : ∀ r ∈ db.sources, ∀ r' ∈ db.sources, r.state = .active → r'.state = .active →
    r.Of r'.owner r'.account r'.sourceId → r.ref = r'.ref
  buried : ∀ r ∈ db.sources, db.tombstoned r.owner r.account r.sourceId = true → r.state ≠ .active
  numbered : ∀ owner, (db.entries owner).map (fun e => e.generation) = List.range' 1 (db.generation owner)
  payload : ∀ r ∈ db.sources, ∀ s ∈ r.payload, r.Agrees s
  derivations : ∀ d ∈ db.derivations, d.Grounded db.sources
  preferences : ∀ p ∈ db.preferences, p.Grounded db.sources

theorem orderly_empty : Orderly {} :=
  ⟨fun _ no => absurd no (by simp),fun _ no => absurd no (by simp),fun _ => rfl,fun _ no => absurd no (by simp),
    fun _ no => absurd no (by simp),fun _ no => absurd no (by simp)⟩

/-! Generations. -/

theorem foldl_max_range (n : Nat) : (List.range' 1 n).foldl max 0 = n := by
  induction n with
  | zero => rfl
  | succ n ih =>
    rw [range'_concat,foldl_append,ih]
    simp
    omega

theorem generation_entries (db : Db) (owner : String) :
    db.generation owner = ((db.entries owner).map fun e => e.generation).foldl max 0 := rfl

/-- The next entry of an owner takes the next number. -/
theorem numbered_append {db db' : Db} {event : Invalidation}
    (numbered : ∀ owner, (db.entries owner).map (fun e => e.generation) = List.range' 1 (db.generation owner))
    (grown : db'.invalidations = db.invalidations ++ [event]) (next : event.generation = db.generation event.ownerId + 1)
    (owner : String) : (db'.entries owner).map (fun e => e.generation) = List.range' 1 (db'.generation owner) := by
  have entries : db'.entries owner = db.entries owner ++ if event.ownerId = owner then [event] else [] := by
    unfold Db.entries
    rw [grown,filter_append]
    by_cases own : event.ownerId = owner <;> simp [own]
  rw [generation_entries,entries,map_append,numbered]
  by_cases own : event.ownerId = owner
  · rw [if_pos own,map_singleton,next,own]
    have longer : List.range' 1 (db.generation owner) ++ [db.generation owner + 1] = List.range' 1 (db.generation owner + 1) := by
      rw [range'_concat,Nat.one_mul,Nat.add_comm]
    rw [longer,foldl_max_range]
  · rw [if_neg own,map_nil,append_nil,foldl_max_range]

theorem numbered_same {db db' : Db}
    (numbered : ∀ owner, (db.entries owner).map (fun e => e.generation) = List.range' 1 (db.generation owner))
    (same : db'.invalidations = db.invalidations) (owner : String) :
    (db'.entries owner).map (fun e => e.generation) = List.range' 1 (db'.generation owner) := by
  have entries : db'.entries owner = db.entries owner := by unfold Db.entries; rw [same]
  rw [generation_entries,entries,← generation_entries]
  exact numbered owner

/-! Rows that stay. -/

/-- Every row has its counterpart, of the same source. -/
def Continued (rows rows' : List SourceRow) : Prop := ∀ r ∈ rows, ∃ r' ∈ rows', r.Same r'

theorem Derivation.Grounded.continued {d : Derivation} {rows rows' : List SourceRow} (grounded : d.Grounded rows)
    (continued : Continued rows rows') : d.Grounded rows' := by
  obtain ⟨r,there,at_,owner⟩ := grounded
  obtain ⟨r',there',same⟩ := continued r there
  exact ⟨r',there',same.ref.trans at_,same.owner.trans owner⟩

theorem PreferenceRow.Grounded.continued {p : PreferenceRow} {rows rows' : List SourceRow} (grounded : p.Grounded rows)
    (continued : Continued rows rows') : p.Grounded rows' := by
  obtain ⟨r,there,at_,owner⟩ := grounded.source
  obtain ⟨r',there',same⟩ := continued r there
  exact ⟨⟨r',there',same.ref.trans at_,same.owner.trans owner⟩,grounded.payload⟩

/-- A preference that lost its record, or was superseded, stands where it stood. -/
theorem PreferenceRow.Grounded.closed {p p' : PreferenceRow} (grounded : p.Grounded rows)
    (closed : p' = p ∨ p' = { p with state := .revoked, payload := none } ∨ p' = { p with state := .superseded }) :
    p'.Grounded rows := by
  rcases closed with rfl | rfl | rfl
  · exact grounded
  · exact ⟨grounded.source,fun _ no => absurd no (by simp)⟩
  · exact ⟨grounded.source,grounded.payload⟩

/-- What an update of the rows keeps of the order of the sources. -/
structure Subdued (f : SourceRow → SourceRow) : Prop where
  same : ∀ r : SourceRow, r.Same (f r)
  active : ∀ r, (f r).state = .active → r.state = .active
  payload : ∀ r s, (f r).payload = some s → r.payload = some s

theorem Subdued.continued {f : SourceRow → SourceRow} (subdued : Subdued f) (rows : List SourceRow) :
    Continued rows (rows.map f) := fun r member => ⟨f r,mem_map_of_mem member,subdued.same r⟩

theorem Subdued.single (subdued : Subdued f) {rows : List SourceRow}
    (single : ∀ r ∈ rows, ∀ r' ∈ rows, r.state = .active → r'.state = .active → r.Of r'.owner r'.account r'.sourceId → r.ref = r'.ref) :
    ∀ r ∈ rows.map f, ∀ r' ∈ rows.map f, r.state = .active → r'.state = .active →
      r.Of r'.owner r'.account r'.sourceId → r.ref = r'.ref := by
  intro x member x' member' active active' of
  obtain ⟨r,there,rfl⟩ := mem_map.mp member
  obtain ⟨r',there',rfl⟩ := mem_map.mp member'
  have one := subdued.same r
  have two := subdued.same r'
  rw [one.of,two.owner,two.account,two.sourceId] at of
  rw [one.ref,two.ref]
  exact single r there r' there' (subdued.active r active) (subdued.active r' active') of

theorem SourceRow.Agrees.same {r r' : SourceRow} (agrees : r.Agrees s) (same : r.Same r') : r'.Agrees s :=
  ⟨agrees.ref.trans same.ref.symm,agrees.owner.trans same.owner.symm,agrees.account.trans same.account.symm,
    agrees.scope.trans same.scope.symm,agrees.sourceId.trans same.sourceId.symm,agrees.version.trans same.version.symm⟩

theorem Subdued.agrees (subdued : Subdued f) {rows : List SourceRow}
    (payload : ∀ r ∈ rows, ∀ s ∈ r.payload, r.Agrees s) : ∀ r ∈ rows.map f, ∀ s ∈ r.payload, r.Agrees s := by
  intro x member s there
  obtain ⟨r,row,rfl⟩ := mem_map.mp member
  exact (payload r row s (subdued.payload r s there)).same (subdued.same r)

theorem subdued_taken (rs dropped : List String) {state : SourceState} (inactive : state ≠ .active) :
    Subdued fun r => emptied dropped (restated rs state r) := by
  constructor
  · exact fun r => (restated_same rs state r).trans (emptied_same dropped _)
  · intro r active
    rw [emptied_state,restated_state] at active
    split at active
    · exact absurd active inactive
    · exact active
  · intro r s there
    have before := emptied_payload there
    rwa [restated_payload] at before

theorem Invalidated.taken {state : SourceState} {event : Invalidation}
    (spec : Invalidated ownerId rs state db event db') : TakenOut ownerId rs state db event db' where
  derivations := spec.derivations
  preferences := spec.preferences
  sources := by
    refine ⟨[],?_⟩
    have same : ∀ r, emptied [] r = r := fun r => by unfold emptied; simp
    simp only [same]
    exact spec.sources
  invalidations := spec.invalidations
  owner := spec.owner
  generation := spec.generation
  refs := spec.refs
  named := spec.named

/-- Taking revisions out of use keeps the order, once it is known which sources are
buried with them. -/
theorem TakenOut.orderly {ownerId : String} {rs : List String} {state : SourceState} {db db' : Db} {event : Invalidation}
    (taken : TakenOut ownerId rs state db event db') (inactive : state ≠ .active) (orderly : Orderly db)
    (buried : ∀ r ∈ db.sources, db'.tombstoned r.owner r.account r.sourceId = true →
      db.tombstoned r.owner r.account r.sourceId = true ∨ r.ref ∈ rs) : Orderly db' := by
  obtain ⟨dropped,rows⟩ := taken.sources
  have subdued := subdued_taken rs dropped inactive
  have continued := subdued.continued db.sources
  constructor
  · rw [rows]; exact subdued.single orderly.single
  · intro x member tombstoned active
    rw [rows] at member
    obtain ⟨r,there,rfl⟩ := mem_map.mp member
    have same := subdued.same r
    rw [same.owner,same.account,same.sourceId] at tombstoned
    rcases buried r there tombstoned with before | out
    · exact orderly.buried r there before (subdued.active r active)
    · rw [emptied_state,restated_state,if_pos out] at active
      exact inactive active
  · exact numbered_append orderly.numbered taken.invalidations (taken.owner ▸ taken.generation)
  · rw [rows]; exact subdued.agrees orderly.payload
  · intro d member
    rw [taken.derivations] at member
    rw [rows]
    exact (orderly.derivations d member).continued continued
  · intro p' member
    obtain ⟨p,there,closed⟩ := taken.preferences p' member
    rw [rows]
    exact ((orderly.preferences p there).closed (closed.imp_right .inl)).continued continued

theorem mode_inactive (mode : Mode) : mode.state ≠ .active := by
  cases mode <;> decide

theorem tombstoned_append {ts : List SourceTombstone} :
    ((ts ++ [t]).any fun t => decide (t.owner = owner ∧ t.account = account ∧ t.sourceId = sourceId)) = true ↔
      (ts.any fun t => decide (t.owner = owner ∧ t.account = account ∧ t.sourceId = sourceId)) = true ∨
        (t.owner = owner ∧ t.account = account ∧ t.sourceId = sourceId) := by
  rw [any_append]
  simp

/-- A new current revision, where there was none. -/
theorem Orderly.arrived {source : SourceRevision} (orderly : Orderly db)
    (untombed : db.tombstoned source.ownerId source.accountId source.sourceId = false)
    (free : ∀ r ∈ db.sources, r.Of source.ownerId source.accountId source.sourceId → r.state ≠ .active) :
    Orderly { db with sources := db.sources ++ [source.row (blobName source.ref)] } := by
  have continued : Continued db.sources (db.sources ++ [source.row (blobName source.ref)]) :=
    fun r member => ⟨r,mem_append_left _ member,.refl r⟩
  constructor
  · intro r member r' member' active active' of
    rcases mem_append.mp member with old | new <;> rcases mem_append.mp member' with old' | new'
    · exact orderly.single r old r' old' active active' of
    · cases mem_singleton.mp new'
      exact absurd active (free r old of)
    · cases mem_singleton.mp new
      obtain ⟨owner,account,sourceId⟩ := of
      exact absurd active' (free r' old' ⟨owner.symm,account.symm,sourceId.symm⟩)
    · cases mem_singleton.mp new
      cases mem_singleton.mp new'
      rfl
  · intro r member tombstoned
    rcases mem_append.mp member with old | new
    · exact orderly.buried r old tombstoned
    · cases mem_singleton.mp new
      exact absurd (untombed.symm.trans tombstoned) (by simp)
  · exact numbered_same orderly.numbered rfl
  · intro r member s there
    rcases mem_append.mp member with old | new
    · exact orderly.payload r old s there
    · cases mem_singleton.mp new
      cases Option.some.inj there
      exact ⟨rfl,rfl,rfl,rfl,rfl,rfl⟩
  · exact fun d member => (orderly.derivations d member).continued continued
  · exact fun p member => (orderly.preferences p member).continued continued

theorem Recorded.orderly {db db' : Db} (recorded : Recorded db db') (orderly : Orderly db) : Orderly db' := by
  constructor
  · rw [recorded.sources]; exact orderly.single
  · rw [recorded.sources]
    unfold Db.tombstoned
    rw [recorded.tombstones]
    exact orderly.buried
  · rcases recorded.invalidations with same | ⟨event,grown,next⟩
    · exact numbered_same orderly.numbered same
    · exact numbered_append orderly.numbered grown next
  · rw [recorded.sources]; exact orderly.payload
  · intro d member
    rw [recorded.sources]
    rcases recorded.derivations d member with old | new
    · exact orderly.derivations d old
    · exact new
  · intro p' member
    rw [recorded.sources]
    rcases recorded.preferences p' member with ⟨p,there,closed⟩ | new
    · exact (orderly.preferences p there).closed (closed.imp_right .inr)
    · exact new

/-- The current revisions of a source are the ones an ingestion supersedes. -/
theorem mem_superseded (member : r ∈ db.sources)
    (of : r.Of source.ownerId source.accountId source.sourceId) (active : r.state = .active) : r.ref ∈ superseded source db := by
  apply mem_map_of_mem
  exact mem_filter.mpr ⟨member,by simp [of,active]⟩

theorem DbChange.orderly {withdrawing : Bool} {label : Option Label} {drawn : Nat} {db db' : Db}
    (change : DbChange h drawn withdrawing label db db') (orderly : Orderly db) : Orderly db' := by
  cases change with
  | recorded done => exact done.orderly orderly
  | retained now access row related expired event member permitted ofSource done =>
    obtain ⟨taken,tombstones⟩ := retained_takes done
    refine taken.orderly (by decide) orderly fun r there tombstoned => .inl ?_
    unfold Db.tombstoned at tombstoned ⊢
    rwa [tombstones] at tombstoned
  | forgotten now access row mode event member permitted done =>
    obtain ⟨taken,tombstones⟩ := forgotten_takes done
    refine taken.orderly (mode_inactive mode) orderly fun r there tombstoned => ?_
    unfold Db.tombstoned at tombstoned
    rw [tombstones] at tombstoned
    split at tombstoned
    · exact .inl tombstoned
    · rcases tombstoned_append.mp tombstoned with old | ⟨owner,account,sourceId⟩
      · exact .inl old
      · right
        apply mem_map_of_mem
        exact mem_filter.mpr ⟨there,decide_eq_true ⟨owner.symm,account.symm,sourceId.symm⟩⟩
  | ingested now source k young fresh untombed done =>
    obtain ⟨mid,⟨_,_,replaced⟩,rfl⟩ := ingested_spec done
    rcases replaced with ⟨none,rfl⟩ | ⟨event,spec⟩
    · refine orderly.arrived untombed fun r member of active => ?_
      have there := mem_superseded member of active
      rw [none] at there
      exact absurd there (by simp)
    · have same : ∀ owner account sourceId, mid.tombstoned owner account sourceId = db.tombstoned owner account sourceId := by
        intro owner account sourceId
        unfold Db.tombstoned
        rw [spec.tombstones]
      have middle : Orderly mid := spec.taken.orderly (by decide) orderly fun r there tombstoned => .inl (by rwa [same] at tombstoned)
      refine middle.arrived (by rw [same]; exact untombed) fun r' member of active => ?_
      rw [spec.sources] at member
      obtain ⟨r,there,rfl⟩ := mem_map.mp member
      rw [(restated_same _ _ r).of] at of
      rw [restated_state] at active
      split at active
      · contradiction
      · exact absurd (mem_superseded there of active) ‹_›

theorem Change.orderly {withdrawing : Bool} {label : Option Label} {m m' : Machine} (change : Change h withdrawing label m m')
    (orderly : Orderly m.db) : Orderly m'.db := by
  cases change with
  | process | drew | created | filled | unlinked | finished => exact orderly
  | tables index change => exact change.orderly orderly
  | cleared ref =>
    have subdued : Subdued fun r => if r.ref = ref then { r with blob := none } else r := by
      constructor
      · intro r
        split
        · exact ⟨rfl,rfl,rfl,rfl,rfl,rfl,rfl⟩
        · exact .refl r
      · intro r active
        split at active <;> exact active
      · intro r s there
        split at there <;> exact there
    have continued := subdued.continued m.db.sources
    constructor
    · rw [setBlob_rows]; exact subdued.single orderly.single
    · intro x member tombstoned active
      rw [setBlob_rows] at member
      obtain ⟨r,there,rfl⟩ := mem_map.mp member
      have same := subdued.same r
      rw [same.owner,same.account,same.sourceId] at tombstoned
      exact orderly.buried r there tombstoned (subdued.active r active)
    · exact numbered_same orderly.numbered rfl
    · rw [setBlob_rows]; exact subdued.agrees orderly.payload
    · exact fun d member => (orderly.derivations d member).continued continued
    · exact fun p member => (orderly.preferences p member).continued continued

theorem Trail.orderly {withdrawing : Bool} {m m' : Machine} {labels : List Label} (trail : Trail h withdrawing m labels m')
    (orderly : Orderly m.db) : Orderly m'.db := by
  induction trail with
  | start => exact orderly
  | step _ change ih => exact change.orderly ih

/-- What every reachable store satisfies. -/
structure Good (h : Host) (m : Machine) : Prop where
  sound : Sound h m
  orderly : Orderly m.db

theorem Called.good {call : Call} (called : Called h call m m') (good : Good h m) : Good h m' := by
  obtain ⟨_,_,_,trail⟩ := called
  exact ⟨trail.sound good.sound,trail.orderly good.orderly⟩

theorem Good.fell (good : Good h m) : Good h m.fell := ⟨good.sound.unmoved rfl (Nat.le_refl _),good.orderly⟩

theorem after_good (run : List Event) : Good h (after h run) := by
  refine play_keeps (fun event => .named fun m good => ?_) (fun _ good => good.fell) run ⟨sound_empty,orderly_empty⟩
  exact (perform_meets good.sound event).weaken (fun _ same => same) (fun _ _ called => called.good good)
    fun _ called => called.good good

/-- The next call of a run, however it ends, is a trail of steps and perhaps a crash. -/
theorem next_called (good : Good h m) (event : Event) : Called h event.1.1 m (next h m event).2 := by
  have ended : Ends (fun _ => Called h event.1.1 m) (Called h event.1.1 m) (next h m event).1 (next h m event).2 := by
    apply stepOf_ends (P := fun m' => m' = m) rfl (perform_meets good.sound event.1)
    rintro s ⟨withdrawing,ls,ok,trail⟩
    exact ⟨withdrawing,ls,ok,trail.quiet (.process false [])⟩
  cases outcome : (next h m event).1 <;> rw [outcome] at ended <;> exact ended

end Neurobro.Memory
