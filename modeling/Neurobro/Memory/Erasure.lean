import Neurobro.Memory.Readings

/-! Erasure is final as long as no `forget` that keeps content is carried out on a source
with an erased revision; such a `forget` takes the erased revision back. -/
namespace Neurobro.Memory

open Durable List

variable {h : Host}

/-- The original of an erased revision is there only while its row still names it, a
revision that is not erased has one, and versions of a source are unique. -/
structure Wiped (m : Machine) : Prop where
  gone : ∀ r ∈ m.db.sources, r.state = .erased → r.blob = none → m.hasBlob (blobName r.ref) = false
  held : ∀ r ∈ m.db.sources, r.state ≠ .erased → r.blob ≠ none
  swept : ∀ ref ∈ m.swept, ∃ r ∈ m.db.sources, r.ref = ref ∧ r.state = .erased ∧ r.blob = none
  versions : ∀ r ∈ m.db.sources, ∀ r' ∈ m.db.sources, r'.Of r.owner r.account r.sourceId → r'.version = r.version → r'.ref = r.ref

theorem wiped_empty : Wiped {} :=
  ⟨fun _ no => absurd no (by simp),fun _ no => absurd no (by simp),fun _ no => absurd no (by simp),fun _ no => absurd no (by simp)⟩

theorem blobName_injective (same : blobName ref = blobName ref') : ref = ref' := by
  unfold blobName at same
  exact (String.append_left_inj ".enc").mp same

/-- What an update of the rows keeps of erasure: an erased revision stays erased, and no
row loses its original. -/
structure Wiping (f : SourceRow → SourceRow) (rows : List SourceRow) : Prop where
  same : ∀ r : SourceRow, r.Same (f r)
  erased : ∀ r ∈ rows, r.state = .erased → (f r).state = .erased
  blob : ∀ r, (f r).blob = r.blob

theorem Wiping.versions (wiping : Wiping f rows)
    (versions : ∀ r ∈ rows, ∀ r' ∈ rows, r'.Of r.owner r.account r.sourceId → r'.version = r.version → r'.ref = r.ref) :
    ∀ r ∈ rows.map f, ∀ r' ∈ rows.map f, r'.Of r.owner r.account r.sourceId → r'.version = r.version → r'.ref = r.ref := by
  intro x member x' member' of version
  obtain ⟨r,there,rfl⟩ := mem_map.mp member
  obtain ⟨r',there',rfl⟩ := mem_map.mp member'
  have one := wiping.same r
  have two := wiping.same r'
  rw [two.of,one.owner,one.account,one.sourceId] at of
  rw [one.ref,two.ref]
  exact versions r there r' there' of (by rw [← one.version,← two.version]; exact version)

/-- The rows are updated in place, the originals stay as they are. -/
theorem Wiping.wiped {f : SourceRow → SourceRow} {m m' : Machine} (wiping : Wiping f m.db.sources) (wiped : Wiped m)
    (rows : m'.db.sources = m.db.sources.map f) (blobs : m'.blobs = m.blobs) (swept : m'.swept = m.swept) : Wiped m' := by
  have before {x : SourceRow} (member : x ∈ m'.db.sources) : ∃ r ∈ m.db.sources, x = f r := by
    rw [rows] at member
    obtain ⟨r,there,rfl⟩ := mem_map.mp member
    exact ⟨r,there,rfl⟩
  have named (r : SourceRow) (there : r ∈ m.db.sources) (cleared : r.blob = none) : r.state = .erased := by
    by_contra kept
    exact wiped.held r there kept cleared
  constructor
  · intro x member erased cleared
    obtain ⟨r,there,rfl⟩ := before member
    rw [wiping.blob] at cleared
    rw [(wiping.same r).ref]
    unfold Machine.hasBlob
    rw [blobs]
    exact wiped.gone r there (named r there cleared) cleared
  · intro x member kept cleared
    obtain ⟨r,there,rfl⟩ := before member
    rw [wiping.blob] at cleared
    exact kept (wiping.erased r there (named r there cleared))
  · intro ref member
    rw [swept] at member
    obtain ⟨r,there,at_,erased,cleared⟩ := wiped.swept ref member
    exact ⟨f r,by rw [rows]; exact mem_map_of_mem there,(wiping.same r).ref.trans at_,wiping.erased r there erased,
      (wiping.blob r).trans cleared⟩
  · rw [rows]; exact wiping.versions wiped.versions

/-- Revisions that are not erased are taken out of use, or any are erased. -/
theorem wiping_taken {state : SourceState}
    (calm : state = .erased ∨ ∀ r ∈ rows, r.ref ∈ rs → r.state ≠ .erased) :
    Wiping (fun r => emptied dropped (restated rs state r)) rows := by
  constructor
  · exact fun r => (restated_same rs state r).trans (emptied_same dropped _)
  · intro r member erased
    rw [emptied_state,restated_state]
    split
    · rename_i out
      rcases calm with rfl | kept
      · rfl
      · exact absurd erased (kept r member out)
    · exact erased
  · intro r
    rw [emptied_blob,restated_blob]

theorem hasBlob_append (m : Machine) (name other : String) (bytes : Bytes) (apart : name ≠ other) :
    Machine.hasBlob { m with blobs := m.blobs ++ [(other,bytes)] } name = m.hasBlob name := by
  unfold Machine.hasBlob
  rw [any_append]
  simp [apart.symm]

theorem hasBlob_filled (m : Machine) (name other : String) (bytes : Bytes) :
    Machine.hasBlob { m with blobs := m.blobs.map fun b => if b.1 = other then (other,bytes) else b } name = m.hasBlob name := by
  unfold Machine.hasBlob
  rw [any_map]
  congr 1
  funext b
  by_cases at_ : b.1 = other
  · simp [at_]
  · simp [at_]

theorem hasBlob_less (m : Machine) (name : String) (p : String × Bytes → Bool) (gone : m.hasBlob name = false) :
    Machine.hasBlob { m with blobs := m.blobs.filter p } name = false := by
  unfold Machine.hasBlob at *
  rw [any_eq_false] at *
  exact fun b member => gone b (mem_of_mem_filter member)

/-- A revision that arrives with its original. -/
theorem Wiped.arrived {source : SourceRevision} (wiped : Wiped m)
    (novel : ∀ r ∈ m.db.sources, r.Of source.ownerId source.accountId source.sourceId → r.version ≠ source.version)
    (index : List (String × String)) :
    Wiped { m with db := { m.db with sources := m.db.sources ++ [source.row (blobName source.ref)] }, index := index } := by
  constructor
  · intro r member erased cleared
    rcases mem_append.mp member with old | new
    · exact wiped.gone r old erased cleared
    · cases mem_singleton.mp new
      contradiction
  · intro r member kept cleared
    rcases mem_append.mp member with old | new
    · exact wiped.held r old kept cleared
    · cases mem_singleton.mp new
      contradiction
  · intro ref member
    obtain ⟨r,there,rest⟩ := wiped.swept ref member
    exact ⟨r,mem_append_left _ there,rest⟩
  · intro r member r' member' of version
    rcases mem_append.mp member with old | new <;> rcases mem_append.mp member' with old' | new'
    · exact wiped.versions r old r' old' of version
    · cases mem_singleton.mp new'
      obtain ⟨owner,account,sourceId⟩ := of
      exact absurd version.symm (novel r old ⟨owner.symm,account.symm,sourceId.symm⟩)
    · cases mem_singleton.mp new
      exact absurd version (novel r' old' of)
    · cases mem_singleton.mp new
      cases mem_singleton.mp new'
      rfl

/-- The revisions a `forget` names are erased by it, or none of them was. -/
theorem forget_calm {row : SourceRow} (sound : Sound h m)
    (calm : (forgetLabel mode row m.db).revives = false) :
    mode.state = .erased ∨ ∀ r ∈ m.db.sources,
      r.ref ∈ (m.db.related row.owner row.account row.sourceId).map (fun r => r.ref) → r.state ≠ .erased := by
  unfold forgetLabel at calm
  by_cases erase : mode = .erase
  · left; rw [erase]; rfl
  · right
    intro r member named
    obtain ⟨r',there,same⟩ := mem_map.mp named
    rw [sound.unique (mem_of_mem_filter there) member same.symm]
    have none : ((m.db.related row.owner row.account row.sourceId).any fun r => r.state = .erased) = false := by
      simpa [erase] using calm
    simpa using any_eq_false.mp none r' there

/-- A step that does not revive keeps the store wiped, and the erased erased. -/
theorem Change.wiped {withdrawing : Bool} {label : Option Label} {m m' : Machine} (change : Change h withdrawing label m m')
    (sound : Sound h m) (wiped : Wiped m) (calm : ∀ l ∈ label, l.revives = false) :
    Wiped m' ∧ ∀ r ∈ m.db.sources, r.state = .erased → ∃ r' ∈ m'.db.sources, r.Same r' ∧ r'.state = .erased := by
  have still : ∀ r ∈ m.db.sources, r.state = .erased → ∃ r' ∈ m.db.sources, r.Same r' ∧ r'.state = .erased :=
    fun r member erased => ⟨r,member,.refl r,erased⟩
  have mapped {f : SourceRow → SourceRow} {db : Db} (wiping : Wiping f m.db.sources) (rows : db.sources = m.db.sources.map f) :
      ∀ r ∈ m.db.sources, r.state = .erased → ∃ r' ∈ db.sources, r.Same r' ∧ r'.state = .erased := fun r member erased =>
    ⟨f r,by rw [rows]; exact mem_map_of_mem member,wiping.same r,wiping.erased r member erased⟩
  cases change with
  | process => exact ⟨⟨wiped.gone,wiped.held,wiped.swept,wiped.versions⟩,still⟩
  | drew => exact ⟨⟨wiped.gone,wiped.held,wiped.swept,wiped.versions⟩,still⟩
  | created k young unused =>
    refine ⟨⟨fun r member erased cleared => ?_,wiped.held,wiped.swept,wiped.versions⟩,still⟩
    rw [hasBlob_append _ _ _ _ fun same => unused r member (blobName_injective same)]
    exact wiped.gone r member erased cleared
  | filled name bytes =>
    refine ⟨⟨fun r member erased cleared => ?_,wiped.held,wiped.swept,wiped.versions⟩,still⟩
    rw [hasBlob_filled]
    exact wiped.gone r member erased cleared
  | unlinked ref unneeded =>
    exact ⟨⟨fun r member erased cleared => hasBlob_less _ _ _ (wiped.gone r member erased cleared),wiped.held,wiped.swept,
      wiped.versions⟩,still⟩
  | finished done =>
    refine ⟨⟨wiped.gone,wiped.held,fun ref member => ?_,wiped.versions⟩,still⟩
    rcases mem_append.mp member with old | new
    · exact wiped.swept ref old
    · obtain ⟨r,chosen,rfl⟩ := mem_map.mp new
      obtain ⟨there,erased⟩ := mem_filter.mp chosen
      have erased := of_decide_eq_true erased
      refine ⟨r,there,rfl,erased,?_⟩
      cases named : r.blob with
      | none => rfl
      | some b =>
        have left := mem_unfinished.mpr ⟨r,there,erased,named,rfl⟩
        rw [done] at left
        exact absurd left (by simp)
  | cleared ref unneeded gone =>
    have rows (x : SourceRow) (member : x ∈ (m.db.setBlob ref).sources) : ∃ r ∈ m.db.sources,
        r.Same x ∧ x.state = r.state ∧ (x.ref = ref ∧ r.state = .erased ∨ x.blob = r.blob) := by
      rw [setBlob_rows] at member
      obtain ⟨r,there,rfl⟩ := mem_map.mp member
      refine ⟨r,there,?_⟩
      by_cases at_ : r.ref = ref
      · rw [if_pos at_]
        exact ⟨⟨rfl,rfl,rfl,rfl,rfl,rfl,rfl⟩,rfl,.inl ⟨at_,unneeded r there at_⟩⟩
      · rw [if_neg at_]
        exact ⟨.refl r,rfl,.inr rfl⟩
    refine ⟨⟨fun x member erased cleared => ?_,fun x member kept cleared => ?_,fun ref' member => ?_,fun x member x' member' of version => ?_⟩,
      fun r member erased => ?_⟩
    · obtain ⟨r,there,same,state,⟨at_,_⟩ | blob⟩ := rows x member
      · rw [at_]; exact gone
      · rw [same.ref]
        exact wiped.gone r there (state ▸ erased) (blob ▸ cleared)
    · obtain ⟨r,there,same,state,⟨_,erased⟩ | blob⟩ := rows x member
      · exact kept (state.trans erased)
      · exact wiped.held r there (fun erased => kept (state.trans erased)) (blob ▸ cleared)
    · obtain ⟨r,there,at_,erased,cleared⟩ := wiped.swept ref' member
      refine ⟨_,mem_map_of_mem there,?_⟩
      split
      · exact ⟨at_,erased,rfl⟩
      · exact ⟨at_,erased,cleared⟩
    · obtain ⟨r,there,same,_⟩ := rows x member
      obtain ⟨r',there',same',_⟩ := rows x' member'
      rw [same'.of,same.owner,same.account,same.sourceId] at of
      rw [same.ref,same'.ref]
      exact wiped.versions r there r' there' of (by rw [← same.version,← same'.version]; exact version)
    · refine ⟨_,mem_map_of_mem member,?_⟩
      split
      · exact ⟨⟨rfl,rfl,rfl,rfl,rfl,rfl,rfl⟩,erased⟩
      · exact ⟨.refl r,erased⟩
  | tables index change =>
    cases change with
    | recorded done =>
      have rows := done.sources
      refine ⟨⟨fun r member => ?_,fun r member => ?_,fun ref member => ?_,?_⟩,fun r member erased => ⟨r,by rw [rows]; exact member,.refl r,erased⟩⟩
      · exact wiped.gone r (rows ▸ member)
      · exact wiped.held r (rows ▸ member)
      · rw [rows]; exact wiped.swept ref member
      · rw [rows]; exact wiped.versions
    | forgotten now access row mode event member permitted done =>
      obtain ⟨dropped,rows⟩ := (forgotten_takes done).1.sources
      have wiping : Wiping (fun r => emptied dropped (restated _ mode.state r)) m.db.sources :=
        wiping_taken (forget_calm sound (calm _ rfl))
      exact ⟨wiping.wiped wiped rows rfl rfl,mapped wiping rows⟩
    | retained now access row related expired event member permitted ofSource done =>
      obtain ⟨dropped,rows⟩ := (retained_takes done).1.sources
      have wiping : Wiping (fun r => emptied dropped (restated expired .erased r)) m.db.sources := wiping_taken (.inl rfl)
      exact ⟨wiping.wiped wiped rows rfl rfl,mapped wiping rows⟩
    | ingested now source k young fresh untombed done =>
      obtain ⟨mid,⟨_,novel,replaced⟩,rfl⟩ := ingested_spec done
      rcases replaced with ⟨_,rfl⟩ | ⟨event,spec⟩
      · refine ⟨wiped.arrived novel index,fun r member erased => ⟨r,mem_append_left _ member,.refl r,erased⟩⟩
      · obtain ⟨dropped,rows⟩ := spec.taken.sources
        have kept : ∀ r ∈ m.db.sources, r.ref ∈ superseded source m.db → r.state ≠ .erased := by
          intro r member named
          obtain ⟨r',chosen,same⟩ := mem_map.mp named
          obtain ⟨there,active⟩ := mem_filter.mp chosen
          rw [sound.unique there member same.symm,of_decide_eq_true (Bool.and_eq_true_iff.mp active).2]
          decide
        have wiping : Wiping (fun r => emptied dropped (restated (superseded source m.db) .superseded r)) m.db.sources :=
          wiping_taken (.inr kept)
        let between : Machine := { m with db := mid }
        have middle : Wiped between := wiping.wiped wiped rows rfl rfl
        refine ⟨middle.arrived novel index,fun r member erased => ?_⟩
        obtain ⟨r',there,same,erased'⟩ := mapped wiping rows r member erased
        exact ⟨r',mem_append_left _ there,same,erased'⟩

theorem Trail.wiped {withdrawing : Bool} {labels : List Label} {m m' : Machine} (trail : Trail h withdrawing m labels m')
    (sound : Sound h m) (wiped : Wiped m) (calm : ∀ l ∈ labels, l.revives = false) :
    Wiped m' ∧ ∀ r ∈ m.db.sources, r.state = .erased → ∃ r' ∈ m'.db.sources, r.Same r' ∧ r'.state = .erased := by
  induction trail with
  | start => exact ⟨wiped,fun r member erased => ⟨r,member,.refl r,erased⟩⟩
  | @step labels label m₁ m₂ before change ih =>
    obtain ⟨wiped₁,stays⟩ := ih fun l member => calm l (mem_append_left _ member)
    have calm₁ : ∀ l ∈ label, l.revives = false :=
      fun l member => calm l (mem_append_right _ (Option.mem_toList.mpr member))
    obtain ⟨wiped₂,stays₂⟩ := change.wiped (before.sound sound) wiped₁ calm₁
    refine ⟨wiped₂,fun r member erased => ?_⟩
    obtain ⟨r₁,there₁,same₁,erased₁⟩ := stays r member erased
    obtain ⟨r₂,there₂,same₂,erased₂⟩ := stays₂ r₁ there₁ erased₁
    exact ⟨r₂,there₂,same₁.trans same₂,erased₂⟩

/-! What nothing gives back. -/

/-- An erased revision is given by no reading and by no call, and its version is never
taken again. -/
structure Silent (h : Host) (m : Machine) (r : SourceRow) : Prop where
  read : ∀ access historical, m.readSource access r.ref historical = .ok none
  original : ∀ access, ∃ e, m.readOriginal h access r.ref = .error e
  current : ∀ access sourceId s, m.currentSource access sourceId = .ok (some s) → s.ref ≠ r.ref
  query : ∀ access text limit from_ to_ hits, m.query h access text limit from_ to_ = .ok hits → ∀ hit ∈ hits, hit.source.ref ≠ r.ref
  unshown : ∀ access, ¬Stands m access r.ref
  context : ∀ request now fates text manifest,
    (next h m ((.buildContext request,now),fates)).1 = .value (.context text manifest) →
      Built h m request text ∧ ∀ p ∈ manifest.primaryRefs, p.ref ≠ r.ref
  returned : ∀ event s, (next h m event).1 = .value (.source s) → s.ref ≠ r.ref
  refused : ∀ input now fates answer, r.Of input.ownerId input.accountId input.sourceId → r.version = input.version →
    (next h m ((.ingestSource input,now),fates)).1 ≠ .value answer

/-- The store at some state of a run, and at a later one. -/
structure ErasureHolds (h : Host) (m m' : Machine) : Prop where
  stays : ∀ r ∈ m.db.sources, r.state = .erased → ∃ r' ∈ m'.db.sources, r.Same r' ∧ r'.state = .erased
  silent : ∀ r ∈ m'.db.sources, r.state = .erased → Silent h m' r
  removed : ∀ ref ∈ m'.swept, m'.hasBlob (blobName ref) = false

/-- Erasure is final in a run. -/
def ErasureFinal (h : Host) (run : List Event) : Prop :=
  ∀ first later, run = first ++ later → ErasureHolds h (after h first) (after h run)

theorem erased_unshown (good : Good h m) (member : r ∈ m.db.sources) (erased : r.state = .erased)
    (access : MemoryAccess) : ¬Stands m access r.ref := by
  rintro ⟨r',there,same,active,_⟩
  rw [good.sound.unique member there same,erased] at active
  contradiction

/-- An ingestion that returns gives a revision that is not erased. -/
theorem ingestSource_returns {m₀ : Machine} (good : Good h m₀) (now : String) (input : SourceInput) :
    Meets (fun m => m = m₀) (ingestSource h now input)
      (fun s _ => ∀ r ∈ m₀.db.sources, r.state = .erased → s.ref ≠ r.ref) fun _ => True := by
  unfold ingestSource
  refine .bind (M := fun db m => m = m₀ ∧ db = m₀.db) (.look fun m held => ⟨held,by rw [held]⟩) fun db => ?_
  apply Meets.assume (fun _ held => held.2)
  rintro rfl
  refine .bind (M := fun a m => m = m₀ ∧ admitted h input m₀.db = .ok a) (.lift (fun m a held ran => ⟨held.1,ran⟩) fun _ _ => trivial)
    fun a => ?_
  cases a with
  | some old =>
    refine .pure fun m held r member erased same => ?_
    obtain ⟨_,ok⟩ := held
    unfold admitted at ok
    obtain ⟨_,_,ok⟩ := bind_ok ok
    obtain ⟨_,ok⟩ := guard_eq_ok.mp ok
    split at ok
    · rename_i row found
      obtain ⟨s,taken,ok⟩ := bind_ok ok
      cases Option.some.inj (Except.ok.inj ok)
      unfold sameVersion at taken
      obtain ⟨kept,taken⟩ := guard_eq_ok.mp taken
      obtain ⟨_,taken⟩ := guard_eq_ok.mp taken
      obtain ⟨source,opened,taken⟩ := bind_ok taken
      cases Except.ok.inj taken
      have there := mem_of_mem_filter (mem_of_find?_eq_some found)
      have agrees := good.orderly.payload row there source (decode_ok opened)
      rw [good.sound.unique member there (agrees.ref.symm.trans same)] at kept
      exact kept erased
    · split at ok
      · obtain ⟨_,_,ok⟩ := bind_ok ok
        cases Except.ok.inj ok
      · cases Except.ok.inj ok
  | none =>
    refine .bind (M := fun ref _ => ∀ r ∈ m₀.db.sources, r.ref ≠ ref) ?_ fun ref => ?_
    · have drawn : Meets (AtDb h false m₀ [] m₀.db) (randomUUID h) (Fresh h false m₀ [] m₀.db) (Trail h false m₀ []) :=
        randomUUID_meets good.sound m₀.db
      refine drawn.weaken ?_ (fun _ _ fresh => fresh.unused) fun _ _ => trivial
      rintro _ ⟨rfl,_⟩
      exact ⟨.start,rfl⟩
    apply Meets.assume (fun _ held => held)
    intro fresh
    let Any (_ : Machine) := True
    refine .bind (M := fun _ => Any) (.write (fun _ _ => trivial) fun _ _ _ _ _ => trivial) fun _ => ?_
    refine .bind (M := fun _ => Any) (.write (fun _ _ => trivial) fun _ _ _ _ _ => trivial) fun _ => ?_
    refine .bind (M := fun _ => Any) (.attempt (fun _ _ => trivial) (fun _ _ _ _ _ => trivial) (fun _ _ _ _ _ _ => trivial)
      fun _ _ _ => trivial) fun r => ?_
    cases r with
    | error e => exact .bind (M := fun _ => Any) (.write (fun _ _ => trivial) fun _ _ _ _ _ => trivial) fun _ => .throw fun _ _ => trivial
    | ok _ => exact .bind (M := fun _ => Any) (.note fun _ _ => trivial) fun _ => .pure fun _ _ r member _ => (fresh r member).symm

/-- The version of an erased revision is refused. -/
theorem admitted_refused {m : Machine} {r : SourceRow} {input : SourceInput} (wiped : Wiped m) (good : Good h m)
    (member : r ∈ m.db.sources) (erased : r.state = .erased) (of : r.Of input.ownerId input.accountId input.sourceId)
    (version : r.version = input.version) (a : Option SourceRevision) : admitted h input m.db ≠ .ok a := by
  intro ok
  unfold admitted at ok
  obtain ⟨_,_,ok⟩ := bind_ok ok
  obtain ⟨_,ok⟩ := guard_eq_ok.mp ok
  have chosen : r ∈ m.db.related input.ownerId input.accountId input.sourceId := mem_filter.mpr ⟨member,decide_eq_true of⟩
  split at ok
  · rename_i row found
    obtain ⟨there,of'⟩ := mem_filter.mp (mem_of_find?_eq_some found)
    have same : row.version = input.version := by simpa using List.find?_some found
    have of₂ : row.Of r.owner r.account r.sourceId := by
      obtain ⟨owner,account,sourceId⟩ := of
      rw [owner,account,sourceId]
      exact of_decide_eq_true of'
    have one : row = r := good.sound.unique member there (wiped.versions r member row there of₂ (same.trans version.symm))
    obtain ⟨s,taken,_⟩ := bind_ok ok
    unfold sameVersion at taken
    exact (guard_eq_ok.mp taken).1 (one ▸ erased)
  · rename_i none
    exact absurd version (by simpa using List.find?_eq_none.mp none r chosen)

/-- What `perform` gives for a call that is only let in when the store is open. -/
theorem ready_returns {α : Type} {m₀ : Machine} {m : Script Machine α} {Q : α → Machine → Prop}
    (body : Meets (fun m => m = m₀) m Q fun _ => True) : Meets (fun m => m = m₀) (ready m) Q fun _ => True :=
  .bind (M := fun _ m => m = m₀) (.look fun _ held => held) fun _ =>
    .bind (M := fun _ m => m = m₀) (.guard (fun _ held _ => held) fun _ _ => trivial) fun _ => body

theorem next_returned {m : Machine} (good : Good h m) {event : Event} {s : SourceRevision}
    (answered : (next h m event).1 = .value (.source s)) : ∀ r ∈ m.db.sources, r.state = .erased → s.ref ≠ r.ref := by
  let Told (a : Answer) (_ : Machine) := ∀ s, a = .source s → ∀ r ∈ m.db.sources, r.state = .erased → s.ref ≠ r.ref
  let Any (_ : Machine) := True
  have other {α : Type} {x : Script Machine α} {k : α → Answer} (never : ∀ a s, k a ≠ .source s) :
      Meets (fun s => s = m) (x >>= fun a => pure (k a)) Told Any := by
    refine .bind (M := fun _ => Any) (fun fates s held => ?_) fun a => .pure fun _ _ s same => absurd same (never a s)
    cases (x fates s).1 <;> exact trivial
  have spec : Meets (fun s => s = m) (perform h event.1) Told Any := by
    obtain ⟨⟨call,now⟩,fates⟩ := event
    cases call with
    | reopen => exact other fun _ _ no => by contradiction
    | forget access ref mode => exact ready_returns (other fun _ _ no => by contradiction)
    | expireBefore access cutoff => exact ready_returns (other fun _ _ no => by contradiction)
    | putPreference input => exact ready_returns (other fun _ _ no => by contradiction)
    | mirrorProcedureCandidate input => exact ready_returns (other fun _ _ no => by contradiction)
    | registerDerived ownerId id kind refs => exact ready_returns (other fun _ _ no => by contradiction)
    | recordCoverage input => exact ready_returns (other fun _ _ no => by contradiction)
    | buildContext request => exact ready_returns (other fun _ _ no => by contradiction)
    | ingestSource input =>
      refine ready_returns (.bind (ingestSource_returns good now input) fun s => .pure fun _ held s' same => ?_)
      cases same
      exact held
  have ended : Ends Told Any (next h m event).1 (next h m event).2 := stepOf_ends (P := fun s => s = m) rfl spec fun _ _ => trivial
  rw [answered] at ended
  exact ended s rfl

theorem next_refused {m : Machine} {r : SourceRow} (wiped : Wiped m) (good : Good h m) (member : r ∈ m.db.sources)
    (erased : r.state = .erased) {input : SourceInput} {now : String} {fates : List Fate} {answer : Answer}
    (of : r.Of input.ownerId input.accountId input.sourceId) (version : r.version = input.version) :
    (next h m ((.ingestSource input,now),fates)).1 ≠ .value answer := by
  intro answered
  let Never (_ : Answer) (_ : Machine) := False
  have spec : Meets (fun s => s = m) (perform h (.ingestSource input,now)) Never fun _ => True := by
    refine ready_returns (.bind (M := fun _ _ => False) ?_ fun _ => fun _ _ no => no.elim)
    unfold ingestSource
    refine .bind (M := fun db _ => db = m.db) (.look fun s held => by rw [held]) fun db => ?_
    refine .bind (M := fun _ _ => False) (.lift (fun s a held ran => ?_) fun _ _ => trivial) fun _ => fun _ _ no => no.elim
    exact admitted_refused wiped good member erased of version a (held ▸ ran)
  let event : Event := ((.ingestSource input,now),fates)
  have ended : Ends Never (fun _ => True) (next h m event).1 (next h m event).2 :=
    stepOf_ends (P := fun s => s = m) rfl spec fun _ _ => trivial
  rw [answered] at ended
  exact ended

theorem erased_silent (wiped : Wiped m) (good : Good h m) (member : r ∈ m.db.sources)
    (erased : r.state = .erased) : Silent h m r := by
  have unshown := erased_unshown good member erased
  have apart {access : MemoryAccess} {s : SourceRevision} (shown : Shows m access s) : s.ref ≠ r.ref :=
    fun same => unshown access (same ▸ shown.stands)
  constructor
  · intro access historical
    unfold Machine.readSource
    rw [good.sound.found member]
    exact if_pos (.inr (.inl erased))
  · intro access
    unfold Machine.readOriginal
    rw [good.sound.found member]
    refine ⟨_,if_pos (.inr ?_)⟩
    rw [erased]
    decide
  · exact fun access sourceId s read => apart (currentSource_shows good.orderly read)
  · exact fun access text limit from_ to_ hits read hit there => apart (query_shows good.orderly read hit there)
  · exact unshown
  · intro request now fates text manifest answered
    obtain ⟨built,faithful⟩ := context_faithful good (next_context answered)
    exact ⟨built,fun p there same => unshown request.access (same ▸ faithful.primary p there)⟩
  · exact fun event s answered => next_returned good answered r member erased
  · exact fun input now fates answer of version => next_refused wiped good member erased of version

/-! Runs. -/

/-- Every call of a run spares the erased. -/
def Spared (h : Host) (m : Machine) : List Event → Prop
  | [] => True
  | event :: rest => Spares m.db event.1.1 ∧ Spared h (next h m event).2 rest

theorem Spared.split {m : Machine} {first later : List Event} (spared : Spared h m (first ++ later)) :
    Spared h m first ∧ Spared h (play (perform h) Machine.fell m first) later := by
  induction first generalizing m with
  | nil => exact ⟨trivial,spared⟩
  | cons event rest ih =>
    obtain ⟨now_,next_⟩ := spared
    obtain ⟨early,late⟩ := ih next_
    exact ⟨⟨now_,early⟩,late⟩

/-- A run that spares the erased keeps them erased. -/
theorem Spared.stays {run : List Event} (spared : Spared h m run) (good : Good h m) (wiped : Wiped m) :
    Good h (play (perform h) Machine.fell m run) ∧ Wiped (play (perform h) Machine.fell m run) ∧
      ∀ r ∈ m.db.sources, r.state = .erased →
        ∃ r' ∈ (play (perform h) Machine.fell m run).db.sources, r.Same r' ∧ r'.state = .erased := by
  induction run generalizing m with
  | nil => exact ⟨good,wiped,fun r member erased => ⟨r,member,.refl r,erased⟩⟩
  | cons event rest ih =>
    have called := next_called good event
    have good' := called.good good
    obtain ⟨_,ls,labelled,trail⟩ := called
    obtain ⟨wiped',stays⟩ := trail.wiped good.sound wiped (labelled.calm spared.1)
    obtain ⟨good₂,wiped₂,stays₂⟩ := ih spared.2 good' wiped'
    refine ⟨good₂,wiped₂,fun r member erased => ?_⟩
    obtain ⟨r₁,there₁,same₁,erased₁⟩ := stays r member erased
    obtain ⟨r₂,there₂,same₂,erased₂⟩ := stays₂ r₁ there₁ erased₁
    exact ⟨r₂,there₂,same₁.trans same₂,erased₂⟩

/-- Where every `forget` that keeps content meets no erased revision of its source, an
erased revision stays erased, nothing gives it back, its version is never taken again and
its original is gone once the erasures were finished. -/
theorem erasure_final (h : Host) (run : List Event) (spared : Spared h {} run) : ErasureFinal h run := by
  rintro first later rfl
  obtain ⟨early,late⟩ := spared.split
  obtain ⟨good,wiped,_⟩ := early.stays ⟨sound_empty,orderly_empty⟩ wiped_empty
  obtain ⟨good',wiped',stays⟩ := late.stays good wiped
  have ends : after h (first ++ later) = play (perform h) Machine.fell (after h first) later := play_append ..
  rw [ends]
  refine ⟨stays,fun r member erased => erased_silent wiped' good' member erased,fun ref member => ?_⟩
  obtain ⟨r,there,rfl,erased,cleared⟩ := wiped'.swept ref member
  exact wiped'.gone r there erased cleared

/-! A plain host, a run that spares the erased, and one that does not. -/

def plain : Host where
  uuid n := String.ofList (List.replicate n 'r')
  distinct _ _ same := by simpa using congrArg String.length same
  maxBytes := 1000
  sha256 _ := "digest"
  parses _ := true
  render _ := "0"
  tokens _ := []
  search _ _ := []

def letter (sourceId : String) : SourceInput :=
  { ownerId := "owner", accountId := "account", scope := "scope", sourceId := sourceId, version := "1", eventAt := "2026", text := "text" }

def reader : MemoryAccess := ⟨"owner",["scope"],none⟩

/-- One source is withdrawn, another is erased, and the store is opened again. -/
def sparing : List Event :=
  [((.reopen,"now"),[]),((.ingestSource (letter "a"),"now"),[]),((.ingestSource (letter "b"),"now"),[]),
   ((.forget reader "" .stopUsing,"now"),[]),((.forget reader "r" .erase,"now"),[.done,.failed]),((.reopen,"now"),[])]

/-- An erased source is withdrawn from use. -/
def reviving : List Event :=
  [((.reopen,"now"),[]),((.ingestSource (letter "a"),"now"),[]),((.forget reader "" .erase,"now"),[]),
   ((.forget reader "" .stopUsing,"now"),[])]

/-- Where nothing is erased every call spares the erased. -/
theorem spares_of_unerased (call : Call) (none : (db.sources.all fun r => !decide (r.state = .erased)) = true) :
    Spares db call := by
  cases call with
  | forget access ref mode =>
    right
    intro row found permitted r member
    simpa using all_eq_true.mp none r (mem_of_mem_filter member)
  | _ => trivial

theorem sparing_spared : Spared plain {} sparing :=
  ⟨trivial,trivial,trivial,spares_of_unerased _ (by decide +kernel),.inl rfl,trivial,trivial⟩

/-- The original that could not be deleted at once is gone after the store was opened
again. -/
theorem erasure_final_sparing : (after plain sparing).swept = ["r"] ∧ ErasureFinal plain sparing :=
  ⟨by decide +kernel,erasure_final plain sparing sparing_spared⟩

/-- The erased revision is merely revoked in the end. -/
theorem erasure_taken_back : ¬ErasureFinal plain reviving := by
  intro final
  have erased : ((after plain (reviving.take 3)).db.sources.any fun r => decide (r.state = .erased)) = true := by decide +kernel
  have revoked : ((after plain reviving).db.sources.any fun r => decide (r.state = .erased)) = false := by decide +kernel
  obtain ⟨r,member,was⟩ := any_eq_true.mp erased
  obtain ⟨r',member',_,is⟩ := (final (reviving.take 3) (reviving.drop 3) rfl).stays r member (of_decide_eq_true was)
  exact any_eq_false.mp revoked r' member' (decide_eq_true is)

end Neurobro.Memory
