import Neurobro.Artifacts.Performs

/-! What is not revoked can be read, by every reading there is, and reads as before. -/
namespace Neurobro.Artifacts

open Durable List

variable {h : Host} {m m' : Machine} {r : ArtifactRow}

/-- A row that is there and open. -/
def Remains (m : Machine) (r : ArtifactRow) : Prop := r ∈ m.db.artifacts ∧ r.revokedAt = none

theorem find_mem (shape : Shape db) (member : r ∈ db.artifacts) : db.find r.scope r.id = some r := by
  unfold Db.find
  cases found : db.artifacts.find? fun q => q.id = r.id ∧ q.ownerId = r.scope.ownerId ∧ q.taskId = r.scope.taskId with
  | none =>
    rw [List.find?_eq_none] at found
    exact absurd (by simp [ArtifactRow.scope]) (found r member)
  | some q =>
    have at_ := List.find?_some found
    rw [decide_eq_true_eq] at at_
    rw [shape.unique (mem_of_find?_eq_some found) member at_.1]

theorem row_remains (sound : Sound h m) (remains : Remains m r) : m.db.row r.scope r.id = .ok r.record := by
  obtain ⟨member,open_⟩ := remains
  have filed := sound.shape.filed r member
  have shaped : artifactId r.id = .ok () := by simp [artifactId,filed.shaped]; rfl
  have clear : m.db.isTombstoned r.scope r.record.sourceRef = false := by
    rw [filed.source,isTombstoned_false]
    exact fun t mt covered => sound.settled.buried t mt r member covered open_
  unfold Db.row
  rw [filed.valid,shaped,find_mem sound.shape member]
  show (if _ then _ else _) = _
  rw [if_neg (by simp [open_,clear])]
  rfl

theorem decrypt_encrypt (nonce : Nonce) {record : ArtifactRecord} {bytes : Bytes} (size : bytes.length = record.size)
    (sha : h.sha256 bytes = record.sha256) : decrypt h record (encrypt h nonce record bytes) = .ok bytes := by
  have format : FORMAT.length = 6 := rfl
  have tag := h.cipher.tag nonce.bytes (aad record) bytes
  have opens := h.cipher.opens nonce.bytes (aad record) bytes
  have nonceSize := nonce.size
  unfold encrypt
  generalize h.cipher.close nonce.bytes (aad record) bytes = sealed at tag opens
  obtain ⟨t,stream⟩ := sealed
  dsimp only at tag opens ⊢
  have head : (FORMAT ++ nonce.bytes ++ t ++ stream).take 6 = FORMAT := by
    rw [append_assoc,append_assoc,← format,take_left]
  have first : ((FORMAT ++ nonce.bytes ++ t ++ stream).drop 6).take 12 = nonce.bytes := by
    rw [append_assoc,append_assoc,← format,drop_left,← nonceSize,take_left]
  have second : ((FORMAT ++ nonce.bytes ++ t ++ stream).drop 18).take 16 = t := by
    have at_ : (FORMAT ++ nonce.bytes).length = 18 := by rw [length_append,format,nonceSize]
    rw [append_assoc,← at_,drop_left,← tag,take_left]
  have third : (FORMAT ++ nonce.bytes ++ t ++ stream).drop 34 = stream := by
    have at_ : (FORMAT ++ nonce.bytes ++ t).length = 34 := by
      rw [length_append,length_append,format,nonceSize,tag]
    rw [← at_,drop_left]
  have long : ¬(FORMAT ++ nonce.bytes ++ t ++ stream).length < 34 := by
    simp only [length_append,format,nonceSize,tag]
    omega
  unfold decrypt
  rw [first,second,third,opens]
  show (if _ then _ else _) = _
  rw [if_neg (by simp only [head,long]; simp)]
  show (if _ then _ else _) = _
  rw [if_neg (by simp [size,sha])]
  rfl

theorem read_remains (sound : Sound h m) (remains : Remains m r) {bytes : Bytes} (original : Original h m r.record bytes) :
    m.read h r.scope r.id = .ok bytes := by
  obtain ⟨⟨nonce,there⟩,size,sha,bound⟩ := original
  unfold Machine.read
  rw [row_remains sound remains]
  show (boundedRead ((m.blob r.record.id).map .file) (h.maxBytes + 34) >>= fun encrypted => decrypt h r.record encrypted) = _
  rw [there]
  have length : (encrypt h nonce r.record bytes).length ≤ h.maxBytes + 34 := by
    have format : FORMAT.length = 6 := rfl
    unfold encrypt
    simp only [length_append,format,nonce.size,h.cipher.tag,h.cipher.stream]
    omega
  show ((if _ then _ else _) >>= _) = _
  rw [if_neg (by omega)]
  exact decrypt_encrypt nonce size sha

theorem mapM_ok {α β : Type} {f : α → Except String β} {g : α → β} {xs : List α} (each : ∀ x ∈ xs, f x = .ok (g x)) :
    xs.mapM f = .ok (xs.map g) := by
  induction xs with
  | nil => rfl
  | cons x rest ih =>
    rw [mapM_cons,each x mem_cons_self,ih fun y member => each y (mem_cons_of_mem _ member)]
    rfl

/-- The open rows of a scope. -/
def openRows (db : Db) (scope : ArtifactScope) : List ArtifactRow :=
  db.artifacts.filter fun r => r.ownerId = scope.ownerId ∧ r.taskId = scope.taskId ∧ r.revokedAt = none

theorem mem_openRows {scope : ArtifactScope} :
    r ∈ openRows db scope ↔ r ∈ db.artifacts ∧ r.scope = scope ∧ r.revokedAt = none := by
  unfold openRows ArtifactRow.scope
  rw [mem_filter]
  constructor
  · rintro ⟨member,at_⟩
    have at_ : r.ownerId = scope.ownerId ∧ r.taskId = scope.taskId ∧ r.revokedAt = none := by simpa using at_
    exact ⟨member,by rw [at_.1,at_.2.1],at_.2.2⟩
  · rintro ⟨member,rfl,open_⟩
    exact ⟨member,by simp [open_]⟩

theorem list_remains (sound : Sound h m) {scope : ArtifactScope} (valid : scope.check = .ok ()) :
    m.db.list scope = .ok ((openRows m.db scope).map fun r => r.record) := by
  unfold Db.list
  rw [valid]
  apply mapM_ok
  intro r member
  obtain ⟨there,rfl,open_⟩ := mem_openRows.mp member
  exact row_remains sound ⟨there,open_⟩

/-! The ancestry of a row. -/

inductive Line (db : Db) : ArtifactRow → List ArtifactRecord → Prop where
  | root {r : ArtifactRow} (none : r.parentId = none) : Line db r [r.record]
  | child {r q : ArtifactRow} {up : List ArtifactRecord} (parent : r.parentId = some q.id) (member : q ∈ db.artifacts)
      (line : Line db q up) : Line db r (up ++ [r.record])

theorem Shape.at_unique (shape : Shape db) {i j : Nat} (atI : db.artifacts[i]? = some q)
    (atJ : db.artifacts[j]? = some r) (same : q.id = r.id) : i = j := by
  have row := shape.unique (mem_of_getElem? atI) (mem_of_getElem? atJ) same
  subst row
  obtain ⟨bi,hi⟩ := List.getElem?_eq_some_iff.mp atI
  obtain ⟨bj,hj⟩ := List.getElem?_eq_some_iff.mp atJ
  exact (List.Nodup.getElem_inj_iff shape.ids.of_map).mp (hi.trans hj.symm)

/-- A parent is an older row. -/
theorem Shape.older (shape : Shape db) {a : Nat} (at_ : db.artifacts[a]? = some r) (parent : r.parentId = some p) :
    ∃ (i : Nat) (q : ArtifactRow), i < a ∧ db.artifacts[i]? = some q ∧ q.id = p ∧ q.scope = r.scope := by
  obtain ⟨edge,q,mq,named,inScope⟩ := shape.parents r (mem_of_getElem? at_) p parent
  obtain ⟨i,j,q',r',before,atI,atJ,named',named'',_⟩ := shape.younger _ edge
  have same := shape.at_unique atJ at_ named''
  have row := shape.unique (mem_of_getElem? atI) mq (named'.trans named.symm)
  exact ⟨i,q',by omega,atI,named',row ▸ inScope⟩

theorem line_exists (shape : Shape db) (member : r ∈ db.artifacts) : ∃ up, Line db r up := by
  obtain ⟨a,at_⟩ := mem_iff_getElem?.mp member
  induction a using Nat.strong_induction_on generalizing r with
  | _ a ih =>
    cases parent : r.parentId with
    | none => exact ⟨_,.root parent⟩
    | some p =>
      obtain ⟨i,q,before,atI,rfl,_⟩ := shape.older at_ parent
      obtain ⟨up,line⟩ := ih i before (mem_of_getElem? atI) atI
      exact ⟨_,.child parent (mem_of_getElem? atI) line⟩

/-- An open row has an open parent, in its own scope. -/
theorem parent_remains (sound : Sound h m) (remains : Remains m r) (parent : r.parentId = some q.id)
    (member : q ∈ m.db.artifacts) : Remains m q ∧ q.scope = r.scope := by
  obtain ⟨edge,q',mq',named,inScope⟩ := sound.shape.parents r remains.1 q.id parent
  have same := sound.shape.unique mq' member named
  subst same
  refine ⟨⟨member,?_⟩,inScope⟩
  by_contra revoked
  exact sound.settled.closed _ edge q' member r remains.1 rfl rfl revoked remains.2

/-- The loop finds the whole ancestry: what it has seen is younger, so it stops in time. -/
theorem climb_line (sound : Sound h m) (line : Line m.db r up) {a fuel : Nat}
    {found : List ArtifactRecord} (remains : Remains m r) (at_ : m.db.artifacts[a]? = some r)
    (younger : ∀ s ∈ seen, ∃ (k : Nat) (q : ArtifactRow), m.db.artifacts[k]? = some q ∧ q.id = s ∧ a < k) (enough : a + 2 ≤ fuel) :
    m.db.climb r.scope fuel seen found (some r.id) = .ok (up ++ found) := by
  have turn (r : ArtifactRow) (a fuel : Nat) (seen : List String) (found : List ArtifactRecord) (remains : Remains m r)
      (at_ : m.db.artifacts[a]? = some r)
      (younger : ∀ s ∈ seen, ∃ (k : Nat) (q : ArtifactRow), m.db.artifacts[k]? = some q ∧ q.id = s ∧ a < k) :
      m.db.climb r.scope (fuel + 1) seen found (some r.id) =
        m.db.climb r.scope fuel (seen ++ [r.id]) (r.record :: found) r.record.parentId := by
    have named : given (some r.id) = true := by
      have shaped := (sound.shape.filed r remains.1).shaped
      by_cases empty : r.id = ""
      · rw [empty] at shaped
        contradiction
      · simp [given,empty]
    have unseen : seen.contains r.id = false := by
      by_contra there
      have there : r.id ∈ seen := by simpa using there
      obtain ⟨k,q,atK,same,later⟩ := younger r.id there
      have index := sound.shape.at_unique atK at_ same
      omega
    rw [Db.climb]
    rw [if_neg (by simp [named]),if_neg (by simpa using unseen)]
    show (m.db.row r.scope r.id >>= _) = _
    rw [row_remains sound remains]
    rfl
  induction line generalizing a fuel seen found with
  | @root r none =>
    obtain ⟨fuel,rfl⟩ : ∃ f, fuel = f + 2 := ⟨fuel - 2,by omega⟩
    rw [turn r a (fuel + 1) seen found remains at_ younger,(sound.shape.filed r remains.1).parent,none]
    rfl
  | @child r q up parent member _ ih =>
    obtain ⟨fuel,rfl⟩ : ∃ f, fuel = f + 1 := ⟨fuel - 1,by omega⟩
    rw [turn r a fuel seen found remains at_ younger,(sound.shape.filed r remains.1).parent,parent]
    obtain ⟨alive,inScope⟩ := parent_remains sound remains parent member
    obtain ⟨i,q',before,atI,named,_⟩ := sound.shape.older at_ parent
    have same := sound.shape.unique (mem_of_getElem? atI) member named
    subst same
    rw [← inScope,ih alive atI ?_ (by omega)]
    · simp
    · intro s there
      rcases mem_append.mp there with old | last
      · obtain ⟨k,p,atK,same,later⟩ := younger s old
        exact ⟨k,p,atK,same,by omega⟩
      · exact ⟨a,r,at_,(mem_singleton.mp last).symm,before⟩

theorem lineage_remains (sound : Sound h m) (remains : Remains m r) (line : Line m.db r up) :
    m.db.lineage r.scope r.id = .ok up := by
  obtain ⟨a,at_⟩ := mem_iff_getElem?.mp remains.1
  have bound := (List.getElem?_eq_some_iff.mp at_).1
  unfold Db.lineage
  rw [climb_line sound line remains at_ (fun _ no => absurd no (by simp)) (by omega),append_nil]

/-! The inputs of a row. -/

def recordOf (db : Db) (id : String) : Option ArtifactRecord := (db.artifacts.find? fun r => r.id = id).map fun r => r.record

def inputRecords (db : Db) (id : String) : List ArtifactRecord :=
  (db.dependencies.filter fun d => d.artifactId = id).filterMap fun d => recordOf db d.inputId

theorem find_id (shape : Shape db) (member : r ∈ db.artifacts) : db.artifacts.find? (fun q => q.id = r.id) = some r := by
  cases found : db.artifacts.find? fun q => q.id = r.id with
  | none =>
    rw [List.find?_eq_none] at found
    exact absurd (by simp) (found r member)
  | some q =>
    have named : q.id = r.id := by simpa using List.find?_some found
    rw [shape.unique (mem_of_find?_eq_some found) member named]

/-- What an open row was made of is open and of its owner. -/
theorem input_remains (sound : Sound h m) (remains : Remains m r) (edge : d ∈ m.db.dependencies)
    (named : d.artifactId = r.id) : ∃ q, Remains m q ∧ q.id = d.inputId ∧ q.ownerId = r.ownerId := by
  obtain ⟨q,mq,r',mr',namedQ,namedR,owner⟩ := sound.shape.ends edge
  have same := sound.shape.unique mr' remains.1 (namedR.trans named)
  subst same
  refine ⟨q,⟨mq,?_⟩,namedQ,owner⟩
  by_contra revoked
  exact sound.settled.closed d edge q mq r' remains.1 namedQ namedR revoked remains.2

theorem dependencies_remain (sound : Sound h m) (remains : Remains m r) :
    m.db.dependenciesOf r.scope r.id = .ok (inputRecords m.db r.id) := by
  unfold Db.dependenciesOf
  rw [row_remains sound remains]
  show (m.db.inputs r.scope.ownerId r.id).mapM (fun input => m.db.row ⟨r.scope.ownerId,input.2⟩ input.1) = _
  unfold Db.inputs inputRecords
  have every : ∀ d ∈ m.db.dependencies.filter fun d => d.artifactId = r.id,
      ∃ q, Remains m q ∧ q.id = d.inputId ∧ q.ownerId = r.ownerId := by
    intro d member
    obtain ⟨edge,named⟩ := mem_filter.mp member
    exact input_remains sound remains edge (by simpa using named)
  generalize (m.db.dependencies.filter fun d => d.artifactId = r.id) = edges at every
  induction edges with
  | nil => rfl
  | cons d rest ih =>
    obtain ⟨q,alive,named,owner⟩ := every d mem_cons_self
    have joined : m.db.artifacts.find? (fun p => p.id = d.inputId ∧ p.ownerId = r.scope.ownerId) = some q := by
      cases found : m.db.artifacts.find? fun p => p.id = d.inputId ∧ p.ownerId = r.scope.ownerId with
      | none =>
        rw [List.find?_eq_none] at found
        exact absurd (by simp [named,owner,ArtifactRow.scope]) (found q alive.1)
      | some p =>
        have at_ := List.find?_some found
        rw [decide_eq_true_eq] at at_
        rw [sound.shape.unique (mem_of_find?_eq_some found) alive.1 (at_.1.trans named.symm)]
    have looked : recordOf m.db d.inputId = some q.record := by
      unfold recordOf
      rw [← named,find_id sound.shape alive.1]
      rfl
    have rowed : m.db.row ⟨r.scope.ownerId,q.taskId⟩ q.id = .ok q.record := by
      have inScope : (⟨r.scope.ownerId,q.taskId⟩ : ArtifactScope) = q.scope := by
        unfold ArtifactRow.scope
        rw [owner]
      rw [inScope]
      exact row_remains sound alive
    rw [filterMap_cons,filterMap_cons,joined,looked]
    show List.mapM _ ((q.id,q.taskId) :: _) = _
    rw [mapM_cons,rowed,ih fun e member => every e (mem_cons_of_mem _ member)]
    rfl

/-! The same as before. -/

theorem Later.before (later : Later m m') (shape : Shape m'.db) (remains : Remains m' r) (known : m.db.has r.id = true) :
    Remains m r := by
  obtain ⟨q,mq,named⟩ := has_iff.mp known
  obtain ⟨q',mq',named',_,same⟩ := later.rows q mq
  have row := shape.unique mq' remains.1 (named'.trans named)
  subst row
  have back := same remains.2
  subst back
  exact ⟨mq,remains.2⟩

theorem Line.before (later : Later m m') (sound : Sound h m) (sound' : Sound h m')
    (line : Line m'.db r up) (remains' : Remains m' r) (remains : Remains m r) : Line m.db r up := by
  induction line with
  | root none => exact .root none
  | @child r q up parent member _ ih =>
    obtain ⟨alive,_⟩ := parent_remains sound' remains' parent member
    obtain ⟨_,p,mp,named,_⟩ := sound.shape.parents r remains.1 q.id parent
    have early := later.before sound'.shape alive (has_iff.mpr ⟨p,mp,named⟩)
    exact .child parent early.1 (ih alive early)

theorem inputRecords_before (later : Later m m') (sound : Sound h m) (sound' : Sound h m') (remains' : Remains m' r)
    (remains : Remains m r) : inputRecords m'.db r.id = inputRecords m.db r.id := by
  obtain ⟨more,appended,apart⟩ := later.edges
  have none : (more.filter fun d => d.artifactId = r.id) = [] := by
    rw [filter_eq_nil_iff]
    intro d member named
    have named : d.artifactId = r.id := by simpa using named
    have gone := apart d member
    rw [named,has_iff.mpr ⟨r,remains.1,rfl⟩] at gone
    contradiction
  unfold inputRecords
  rw [appended,filter_append,none,append_nil]
  apply filterMap_congr
  intro d member
  obtain ⟨edge,named⟩ := mem_filter.mp member
  have edge' : d ∈ m'.db.dependencies := by
    rw [appended]
    exact mem_append_left _ edge
  obtain ⟨q,alive,namedQ,_⟩ := input_remains sound' remains' edge' (by simpa using named)
  obtain ⟨p,mp,_,_,namedP,_⟩ := sound.shape.ends edge
  have early := later.before sound'.shape alive (has_iff.mpr ⟨p,mp,namedP.trans namedQ.symm⟩)
  unfold recordOf
  rw [← namedQ,find_id sound'.shape alive.1,find_id sound.shape early.1]

theorem Original.before (later : Later m m') (sound : Sound h m) {bytes : Bytes} (remains' : Remains m' r) (remains : Remains m r)
    (original : Original h m' r.record bytes) : Original h m r.record bytes := by
  apply original.moved
  rw [(sound.shape.filed r remains.1).id]
  exact (later.blobs r remains.1 remains'.1 remains.2).symm

end Neurobro.Artifacts
