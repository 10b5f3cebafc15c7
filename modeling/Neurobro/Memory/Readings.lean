import Neurobro.Memory.Current

/-! What is read now: every revision, preference, procedure and section of a context
stands on a current source that the access permits. -/
namespace Neurobro.Memory

open Durable List

variable {h : Host} {m : Machine} {access : MemoryAccess}

/-- The account a reader is bound to, if any. -/
def MemoryAccess.Admits (access : MemoryAccess) (account : String) : Prop :=
  access.accountId.getD "" = "" ∨ account = access.accountId.getD ""

/-- The reference stands for a current revision inside the given scopes and account. -/
def Stands (m : Machine) (access : MemoryAccess) (ref : String) : Prop :=
  ∃ row ∈ m.db.sources, row.ref = ref ∧ row.state = .active ∧ row.owner = access.ownerId ∧ row.scope ∈ access.scopes ∧
    access.Admits row.account

/-- A revision as it may be shown. -/
structure Shows (m : Machine) (access : MemoryAccess) (s : SourceRevision) : Prop where
  stands : Stands m access s.ref
  state : s.state = .active
  owner : s.ownerId = access.ownerId
  scope : s.scope ∈ access.scopes
  account : access.Admits s.accountId

/-- A preference whose source is current and of the owner. -/
structure Backed (m : Machine) (access : MemoryAccess) (p : Preference) : Prop where
  source : ∃ row ∈ m.db.sources, row.ref = p.sourceRef ∧ row.state = .active ∧ row.owner = access.ownerId ∧
    access.Admits row.account
  owner : p.ownerId = access.ownerId
  scope : p.scope ∈ access.scopes

/-- A procedure whose every source is current and permitted. -/
def Supported (m : Machine) (access : MemoryAccess) (p : ProcedureCandidate) : Prop := ∀ ref ∈ p.sourceRefs, Stands m access ref

theorem readSource_found
    (read : m.readSource access ref historical = .ok (some s)) :
    ∃ row ∈ m.db.sources, row.ref = ref ∧ access.permits row = true ∧ row.state ≠ .erased ∧
      (historical = false → row.state = .active) ∧ ∃ source ∈ row.payload, s = { source with state := row.state } := by
  unfold Machine.readSource at read
  split at read
  · cases read
  · rename_i row found
    split at read
    · cases read
    · rename_i accepted
      push Not at accepted
      obtain ⟨permitted,kept,current⟩ := accepted
      obtain ⟨s',opened,same⟩ := map_ok read
      cases Option.some.inj same
      obtain ⟨source,decoded,rfl⟩ := map_ok opened
      obtain ⟨member,at_⟩ := sourceRow_mem found
      exact ⟨row,member,at_,by simpa using permitted,kept,current,source,decode_ok decoded,rfl⟩

theorem readSource_shows (orderly : Orderly m.db)
    (read : m.readSource access ref = .ok (some s)) : s.ref = ref ∧ Shows m access s := by
  obtain ⟨row,member,at_,permitted,_,current,source,sealed,rfl⟩ := readSource_found read
  have agrees := orderly.payload row member source sealed
  obtain ⟨owner,scope,account⟩ := permits_owner permitted
  have ref' := agrees.ref.trans at_
  refine ⟨ref',⟨row,member,at_.trans ref'.symm,current rfl,owner,scope,account⟩,current rfl,agrees.owner.trans owner,?_,?_⟩
  · exact agrees.scope ▸ scope
  · exact account.imp_right agrees.account.trans

theorem currentSource_shows (orderly : Orderly m.db)
    (read : m.currentSource access sourceId = .ok (some s)) : Shows m access s := by
  unfold Machine.currentSource at read
  dsimp only at read
  split at read
  · cases read
  · exact (readSource_shows orderly read).2
  · cases read

theorem hits_show (orderly : Orderly m.db) {limit : Nat}
    {found all : List MemoryHit} (shown : ∀ hit ∈ found, Shows m access hit.source)
    (read : m.hits access from_ to_ limit found results = .ok all) : ∀ hit ∈ all, Shows m access hit.source := by
  induction results generalizing found with
  | nil =>
    cases Except.ok.inj read
    exact shown
  | cons result rest ih =>
    obtain ⟨ref,score⟩ := result
    unfold Machine.hits at read
    obtain ⟨s,opened,read⟩ := bind_ok read
    cases s with
    | none => exact ih shown read
    | some source =>
      have one : ∀ hit ∈ found ++ [⟨source,score⟩], Shows m access hit.source := by
        intro hit member
        rcases mem_append.mp member with old | new
        · exact shown hit old
        · cases mem_singleton.mp new
          exact (readSource_shows orderly opened).2
      dsimp only at read
      split at read
      · exact ih shown read
      · split at read
        · cases Except.ok.inj read
          exact one
        · exact ih one read

theorem query_shows (orderly : Orderly m.db) {text from_ to_ : String} {limit : Option Int} {hits : List MemoryHit}
    (read : m.query h access text limit from_ to_ = .ok hits) : ∀ hit ∈ hits, Shows m access hit.source := by
  unfold Machine.query at read
  obtain ⟨_,read⟩ := guard_eq_ok.mp read
  dsimp only at read
  split at read
  · cases Except.ok.inj read
    exact fun _ no => absurd no (by simp)
  · exact hits_show orderly (fun _ no => absurd no (by simp)) read

theorem mapM_mem {α β : Type} {f : α → Except String β} {xs : List α} {ys : List β} (read : xs.mapM f = .ok ys) :
    ∀ y ∈ ys, ∃ x ∈ xs, f x = .ok y := by
  induction xs generalizing ys with
  | nil =>
    rw [mapM_nil] at read
    cases Except.ok.inj read
    exact fun _ no => absurd no (by simp)
  | cons x rest ih =>
    rw [mapM_cons] at read
    obtain ⟨y,first,read⟩ := bind_ok read
    obtain ⟨others,next,read⟩ := bind_ok read
    cases Except.ok.inj read
    intro y' member
    rcases mem_cons.mp member with rfl | later
    · exact ⟨x,mem_cons_self,first⟩
    · obtain ⟨x',there,made⟩ := ih next y' later
      exact ⟨x',mem_cons_of_mem _ there,made⟩

theorem preferences_backed (good : Good h m) {ps : List Preference} (read : m.preferences access = .ok ps) :
    ∀ p ∈ ps, Backed m access p := by
  intro p member
  obtain ⟨row,chosen,opened⟩ := mapM_mem read p member
  obtain ⟨chosen,supported⟩ := mem_filter.mp chosen
  obtain ⟨chosen,inScope⟩ := mem_filter.mp chosen
  obtain ⟨there,own⟩ := mem_filter.mp ((mem_insertionSort _).mp chosen)
  have owner : row.owner = access.ownerId := of_decide_eq_true (Bool.and_eq_true_iff.mp own).1
  have grounded := good.orderly.preferences row there
  obtain ⟨sourceRef,ownerId,scope⟩ := grounded.payload p (decode_ok opened)
  unfold Machine.supported at supported
  split at supported
  · contradiction
  · rename_i source found
    obtain ⟨active,account⟩ := Bool.and_eq_true_iff.mp supported
    obtain ⟨inside,at_⟩ := sourceRow_mem found
    obtain ⟨r,inside',at',owner'⟩ := grounded.source
    have one : r = source := good.sound.unique inside inside' (at'.trans at_.symm)
    refine ⟨⟨source,inside,at_.trans sourceRef.symm,of_decide_eq_true active,?_,?_⟩,ownerId.trans owner,?_⟩
    · rw [← one]; exact owner'.trans owner
    · unfold MemoryAccess.Admits
      simpa using account
    · rw [scope]; simpa using inScope

theorem allReadable_stand (orderly : Orderly m.db) (read : m.allReadable access refs = .ok true) :
    ∀ ref ∈ refs, Stands m access ref := by
  induction refs with
  | nil => exact fun _ no => absurd no (by simp)
  | cons ref rest ih =>
    unfold Machine.allReadable at read
    obtain ⟨s,opened,read⟩ := bind_ok read
    cases s with
    | none => cases Except.ok.inj read
    | some source =>
      intro ref' member
      rcases mem_cons.mp member with rfl | later
      · obtain ⟨same,shows_⟩ := readSource_shows orderly opened
        exact same ▸ shows_.stands
      · exact ih read ref' later

theorem keepReadable_supported (orderly : Orderly m.db) {records kept : List ProcedureCandidate}
    (read : m.keepReadable access records = .ok kept) : ∀ p ∈ kept, Supported m access p := by
  induction records generalizing kept with
  | nil =>
    cases Except.ok.inj read
    exact fun _ no => absurd no (by simp)
  | cons record rest ih =>
    unfold Machine.keepReadable at read
    obtain ⟨readable,asked,read⟩ := bind_ok read
    obtain ⟨others,next,read⟩ := bind_ok read
    cases Except.ok.inj read
    intro p member
    cases readable with
    | false => exact ih next p member
    | true =>
      rcases mem_cons.mp member with rfl | later
      · exact allReadable_stand orderly asked
      · exact ih next p later

theorem procedures_supported (orderly : Orderly m.db) (read : m.procedures access = .ok ps) :
    ∀ p ∈ ps, Supported m access p := by
  unfold Machine.procedures at read
  obtain ⟨records,_,read⟩ := bind_ok read
  exact keepReadable_supported orderly read

/-! The context. -/

/-- What a section of a context may be. -/
inductive Section (h : Host) (m : Machine) (request : ContextRequest) : String → Prop where
  | preference (p : Preference) (backed : Backed m request.access p) : Section h m request p.section_
  | message (x : String) (given : x ∈ request.recentMessages) : Section h m request (messageSection x)
  | source (s : SourceRevision) (shown : Shows m request.access s) : Section h m request s.section_
  | procedure (p : ProcedureCandidate) (supported : Supported m request.access p) : Section h m request p.section_
  | gap (g : Gap) : Section h m request (g.section_ h)

/-- The heading, and sections after it. -/
inductive Built (h : Host) (m : Machine) (request : ContextRequest) : String → Prop where
  | heading : Built h m request request.heading
  | add (text section_ : String) (before : Built h m request text) (allowed : Section h m request section_) :
      Built h m request (text ++ "\n" ++ section_)

/-- A draft that draws on current sources only. -/
structure Draft.Faithful (h : Host) (m : Machine) (request : ContextRequest) (d : Draft) : Prop where
  text : Built h m request d.text
  primary : ∀ p ∈ d.primaryRefs, Stands m request.access p.ref
  preferences : ∀ x ∈ d.preferenceRefs, ∃ p, Backed m request.access p ∧ x = (p.id,p.revision)
  procedures : ∀ id ∈ d.procedureRefs, ∃ p, Supported m request.access p ∧ id = p.id

variable {request : ContextRequest}

theorem add_faithful {ref section_ : String} (allowed : Section h m request section_)
    (faithful : d.Faithful h m request) (added : ∀ text, Built h m request text → (onAdded { d with text := text }).Faithful h m request)
    (read : request.add ref section_ onAdded d = .ok d') : d'.Faithful h m request := by
  unfold ContextRequest.add at read
  obtain ⟨n,_,read⟩ := bind_ok read
  split at read
  · cases Except.ok.inj read
    exact ⟨faithful.text,faithful.primary,faithful.preferences,faithful.procedures⟩
  · cases Except.ok.inj read
    exact added _ (.add _ _ faithful.text allowed)

theorem addPreference_faithful (backed : Backed m request.access p)
    (faithful : d.Faithful h m request) (read : request.addPreference d p = .ok d') : d'.Faithful h m request := by
  refine add_faithful (.preference p backed) faithful (fun text built => ⟨built,faithful.primary,fun x member => ?_,faithful.procedures⟩) read
  rcases mem_append.mp member with old | new
  · exact faithful.preferences x old
  · exact ⟨p,backed,mem_singleton.mp new⟩

theorem addSource_faithful (shown : Shows m request.access s)
    (faithful : d.Faithful h m request) (read : request.addSource d s = .ok d') : d'.Faithful h m request := by
  refine add_faithful (.source s shown) faithful (fun text built => ⟨built,fun p member => ?_,faithful.preferences,faithful.procedures⟩) read
  rcases mem_append.mp member with old | new
  · exact faithful.primary p old
  · cases mem_singleton.mp new
    exact shown.stands

theorem addProcedure_faithful (supported : Supported m request.access p)
    (faithful : d.Faithful h m request) (read : request.addProcedure d p = .ok d') : d'.Faithful h m request := by
  refine add_faithful (.procedure p supported) faithful (fun text built => ⟨built,faithful.primary,faithful.preferences,fun x member => ?_⟩) read
  rcases mem_append.mp member with old | new
  · exact faithful.procedures x old
  · exact ⟨p,supported,mem_singleton.mp new⟩

theorem setSource_shows {sources : List SourceRevision} (all : ∀ x ∈ sources, Shows m access x)
    (shown : Shows m access s) : ∀ x ∈ setSource sources s, Shows m access x := by
  intro x member
  unfold setSource at member
  split at member
  · obtain ⟨y,there,rfl⟩ := mem_map.mp member
    split
    · exact shown
    · exact all y there
  · rcases mem_append.mp member with old | new
    · exact all x old
    · rw [mem_singleton.mp new]; exact shown

theorem foldl_setSource_shows {hits sources : List SourceRevision} (all : ∀ x ∈ sources, Shows m access x)
    (shown : ∀ x ∈ hits, Shows m access x) : ∀ x ∈ hits.foldl setSource sources, Shows m access x := by
  induction hits generalizing sources with
  | nil => exact all
  | cons hit rest ih =>
    exact ih (setSource_shows all (shown hit mem_cons_self)) fun x later => shown x (mem_cons_of_mem _ later)

theorem selected_shows (orderly : Orderly m.db)
    (read : m.selected h request = .ok chosen) : ∀ s ∈ chosen.1, Shows m request.access s := by
  unfold Machine.selected at read
  obtain ⟨named,first,read⟩ := bind_ok read
  have shown : ∀ s ∈ named.1, Shows m request.access s := by
    let Shown (acc : List SourceRevision × List Omission) := ∀ s ∈ acc.1, Shows m request.access s
    refine foldlM_keeps (I := Shown) (fun ref _ acc acc' held step => ?_) (fun _ no => absurd no (by simp)) first
    unfold Machine.named at step
    obtain ⟨s,opened,step⟩ := bind_ok step
    cases s with
    | none => cases Except.ok.inj step; exact held
    | some source =>
      cases Except.ok.inj step
      exact setSource_shows held (readSource_shows orderly opened).2
  obtain ⟨sources,missing⟩ := named
  dsimp only at read
  split at read
  · cases Except.ok.inj read
    exact shown
  · obtain ⟨hits,asked,read⟩ := bind_ok read
    cases Except.ok.inj read
    refine foldl_setSource_shows shown fun x member => ?_
    obtain ⟨hit,there,rfl⟩ := mem_map.mp member
    exact query_shows orderly asked hit there

/-- What a manifest may refer to. -/
structure ContextManifest.Faithful (m : Machine) (access : MemoryAccess) (manifest : ContextManifest) : Prop where
  primary : ∀ p ∈ manifest.primaryRefs, Stands m access p.ref
  preferences : ∀ x ∈ manifest.preferenceRefs, ∃ p, Backed m access p ∧ x = (p.id,p.revision)
  procedures : ∀ id ∈ manifest.procedureRefs, ∃ p, Supported m access p ∧ id = p.id

theorem context_faithful (good : Good h m) {now text : String}
    (read : m.context h now request = .ok (text,manifest)) :
    Built h m request text ∧ manifest.Faithful m request.access := by
  unfold Machine.context at read
  obtain ⟨_,read⟩ := guard_eq_ok.mp read
  obtain ⟨_,_,read⟩ := bind_ok read
  obtain ⟨_,_,read⟩ := bind_ok read
  obtain ⟨_,read⟩ := guard_eq_ok.mp read
  obtain ⟨ps,preferred,read⟩ := bind_ok read
  obtain ⟨d₁,first,read⟩ := bind_ok read
  obtain ⟨d₂,second,read⟩ := bind_ok read
  obtain ⟨⟨sources,missing⟩,selected,read⟩ := bind_ok read
  obtain ⟨d₃,third,read⟩ := bind_ok read
  obtain ⟨d₄,fourth,read⟩ := bind_ok read
  obtain ⟨d₅,fifth,read⟩ := bind_ok read
  obtain ⟨_,_,read⟩ := bind_ok read
  obtain ⟨rfl,rfl⟩ := Prod.mk.inj (Except.ok.inj read)
  let I (d : Draft) := d.Faithful h m request
  have start : I { text := request.heading } :=
    ⟨.heading,fun _ no => absurd no (by simp),fun _ no => absurd no (by simp),fun _ no => absurd no (by simp)⟩
  have backed := preferences_backed good preferred
  have one : I d₁ := foldlM_keeps (I := I) (fun p member _ _ held step => addPreference_faithful (backed p member) held step) start first
  have two : I d₂ := foldlM_keeps (I := I) (fun x member _ _ held step =>
    add_faithful (.message x.1 (fst_mem_of_mem_zipIdx member)) held (fun _ built => ⟨built,held.primary,held.preferences,held.procedures⟩) step)
    one second
  have shown := selected_shows good.orderly selected
  have between : I { d₂ with omissions := d₂.omissions ++ missing } := ⟨two.text,two.primary,two.preferences,two.procedures⟩
  have three : I d₃ := foldlM_keeps (I := I) (fun s member _ _ held step => addSource_faithful (shown s member) held step)
    between third
  have four : I d₄ := by
    unfold Machine.withProcedures at fourth
    split at fourth
    · obtain ⟨records,asked,fourth⟩ := bind_ok fourth
      have supported := procedures_supported good.orderly asked
      exact foldlM_keeps (I := I) (fun p member _ _ held step => addProcedure_faithful (supported p member) held step) three fourth
    · cases Except.ok.inj fourth
      exact three
  have five : I d₅ := foldlM_keeps (I := I) (fun g _ _ _ held step =>
    add_faithful (.gap g) held (fun _ built => ⟨built,held.primary,held.preferences,held.procedures⟩) step) four fifth
  exact ⟨five.text,five.primary,five.preferences,five.procedures⟩

theorem readOriginal_stands {bytes : Bytes} (read : m.readOriginal h access ref = .ok bytes) : Stands m access ref:= by
  unfold Machine.readOriginal at read
  split at read
  · contradiction
  · rename_i row found
    obtain ⟨accepted,_⟩ := guard_eq_ok.mp read
    push Not at accepted
    obtain ⟨member,at_⟩ := sourceRow_mem found
    obtain ⟨owner,scope,account⟩ := permits_owner (by simpa using accepted.1)
    exact ⟨row,member,at_,accepted.2,owner,scope,account⟩

/-- A context that was built is the one the store read when it was asked. -/
theorem buildContext_returns (now : String) (request : ContextRequest) (m₀ : Machine) :
    Meets (fun m => m = m₀) (buildContext h now request) (fun r _ => m₀.context h now request = .ok r) fun _ => True := by
  unfold buildContext
  refine .bind (M := fun built _ => built = m₀.context h now request) (.look fun m held => by rw [held]) fun built => ?_
  refine .bind (M := fun shown _ => m₀.context h now request = .ok shown)
    (.lift (fun m a held ran => held.symm.trans ran) fun _ _ => trivial) fun shown => ?_
  obtain ⟨text,manifest⟩ := shown
  let Same (_ : Machine) := m₀.context h now request = .ok (text,manifest)
  refine .bind (M := fun _ => Same) ?_ fun drawn => ?_
  · exact .bind (M := fun _ => Same) (.look fun _ held => held) fun _ =>
      .bind (M := fun _ => Same) (.note fun _ held => held) fun _ => .pure fun _ held => held
  refine .bind (M := fun _ => Same) ?_ fun _ => .pure fun _ held => held
  unfold registerDerived
  refine .bind (M := fun _ => Same) (.lift (fun _ _ held _ => held) fun _ _ => trivial) fun _ => ?_
  refine .bind (M := fun _ => Same) (.look fun _ held => held) fun db => ?_
  refine .bind (M := fun _ => Same) (.lift (fun _ _ held _ => held) fun _ _ => trivial) fun _ => ?_
  exact .each (I := fun _ => Same) _ fun ref rest _ => .write (fun _ _ => trivial) fun _ _ _ held _ => held

theorem next_context {request : ContextRequest} {now text : String}
    (answered : (next h m ((.buildContext request,now),fates)).1 = .value (.context text manifest)) :
    m.context h now request = .ok (text,manifest) := by
  let Told (a : Answer) (_ : Machine) := ∀ text manifest, a = .context text manifest → m.context h now request = .ok (text,manifest)
  have spec : Meets (fun s => s = m) (perform h (.buildContext request,now)) Told fun _ => True := by
    refine .bind (M := fun _ s => s = m) (.look fun _ held => held) fun opened => ?_
    refine .bind (M := fun _ s => s = m) (.guard (fun _ held _ => held) fun _ _ => trivial) fun _ => ?_
    refine .bind (buildContext_returns now request m) fun shown => ?_
    obtain ⟨text,manifest⟩ := shown
    refine .pure fun _ held text' manifest' same => ?_
    cases same
    exact held
  let event : Event := ((.buildContext request,now),fates)
  have ended : Ends Told (fun _ => True) (next h m event).1 (next h m event).2 := stepOf_ends (P := fun s => s = m) rfl spec fun _ _ => trivial
  rw [answered] at ended
  exact ended text manifest rfl

/-! The store as a whole. -/

/-- One current revision for each source at most, none for a tombstoned one, and the
invalidations of every owner numbered from one. -/
structure InOrder (db : Db) : Prop where
  refs : (db.sources.map fun r => r.ref).Nodup
  single : ∀ owner account sourceId, (db.current owner account sourceId).length ≤ 1
  buried : ∀ owner account sourceId, db.tombstoned owner account sourceId = true → db.current owner account sourceId = []
  numbered : ∀ owner, (db.entries owner).map (fun e => e.generation) = List.range' 1 (db.generation owner)

/-- What the store reads now stands on current sources. -/
structure ReadsCurrent (h : Host) (m : Machine) : Prop where
  source : ∀ access ref s, m.readSource access ref = .ok (some s) → s.ref = ref ∧ Shows m access s
  original : ∀ access ref bytes, m.readOriginal h access ref = .ok bytes → Stands m access ref
  current : ∀ access sourceId s, m.currentSource access sourceId = .ok (some s) → Shows m access s
  query : ∀ access text limit from_ to_ hits, m.query h access text limit from_ to_ = .ok hits → ∀ hit ∈ hits, Shows m access hit.source
  preferences : ∀ access ps, m.preferences access = .ok ps → ∀ p ∈ ps, Backed m access p
  procedures : ∀ access ps, m.procedures access = .ok ps → ∀ p ∈ ps, Supported m access p
  context : ∀ request now fates text manifest,
    (next h m ((.buildContext request,now),fates)).1 = .value (.context text manifest) →
      Built h m request text ∧ manifest.Faithful m request.access

theorem length_le_one {α : Type} {l : List α} (nodup : l.Nodup) (same : ∀ a ∈ l, ∀ b ∈ l, a = b) : l.length ≤ 1 := by
  cases l with
  | nil => simp
  | cons a rest =>
    cases rest with
    | nil => simp
    | cons b rest =>
      have twice := same a (by simp) b (by simp)
      simp [twice] at nodup

theorem Good.inOrder (good : Good h m) : InOrder m.db := by
  have member {owner account sourceId : String} {r : SourceRow} (there : r ∈ m.db.current owner account sourceId) :
      r ∈ m.db.sources ∧ r.Of owner account sourceId ∧ r.state = .active := by
    obtain ⟨inside,chosen⟩ := mem_filter.mp there
    obtain ⟨of,active⟩ := Bool.and_eq_true_iff.mp chosen
    exact ⟨inside,of_decide_eq_true of,of_decide_eq_true active⟩
  refine ⟨good.sound.refs,fun owner account sourceId => ?_,fun owner account sourceId tombstoned => ?_,good.orderly.numbered⟩
  · have nodup : (m.db.current owner account sourceId).Nodup := (List.Nodup.of_map _ good.sound.refs).filter _
    refine length_le_one nodup fun r there r' there' => ?_
    obtain ⟨row,of,active⟩ := member there
    obtain ⟨row',of',active'⟩ := member there'
    have of₂ : r.Of r'.owner r'.account r'.sourceId :=
      ⟨of.1.trans of'.1.symm,of.2.1.trans of'.2.1.symm,of.2.2.trans of'.2.2.symm⟩
    exact good.sound.unique row' row (good.orderly.single r row r' row' active active' of₂)
  · apply eq_nil_iff_forall_not_mem.mpr
    intro r there
    obtain ⟨row,⟨rfl,rfl,rfl⟩,active⟩ := member there
    exact good.orderly.buried r row tombstoned active

theorem Good.readsCurrent (good : Good h m) : ReadsCurrent h m where
  source _ _ _ read := readSource_shows good.orderly read
  original _ _ _ read := readOriginal_stands read
  current _ _ _ read := currentSource_shows good.orderly read
  query _ _ _ _ _ _ read := query_shows good.orderly read
  preferences _ _ read := preferences_backed good read
  procedures _ _ read := procedures_supported good.orderly read
  context _ _ _ _ _ answered := context_faithful good (next_context answered)

/-- In every state a run of the store can reach, sources are in order, whatever is read
now stands on current sources, and a further call, whatever its end, accounts for every
revision it takes out of use. -/
theorem memory_in_order (h : Host) (run : List Event) :
    InOrder (after h run).db ∧ ReadsCurrent h (after h run) ∧
      ∀ event, Accounted (after h run).db (next h (after h run) event).2.db := by
  have good : Good h (after h run) := after_good run
  exact ⟨good.inOrder,good.readsCurrent,fun event => (next_called good event).accounted good⟩

end Neurobro.Memory
