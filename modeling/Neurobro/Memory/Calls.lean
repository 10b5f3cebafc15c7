import Neurobro.Memory.Trail

/-! Every call of the memory store is a trail of its steps, wherever it is broken off. -/
namespace Neurobro.Memory

open Durable List

variable {h : Host} {withdrawing : Bool} {m₀ : Machine} {ls : List Label}

/-- A trail with labels of some kind. -/
def Went (h : Host) (withdrawing : Bool) (m₀ : Machine) (may : List Label → Prop) (m : Machine) : Prop :=
  ∃ ls, may ls ∧ Trail h withdrawing m₀ ls m

theorem Went.of (trail : Trail h withdrawing m₀ ls m) (ok : may ls) : Went h withdrawing m₀ may m:= ⟨ls,ok,trail⟩

theorem Went.imp {may may' : List Label → Prop} {m : Machine} (went : Went h withdrawing m₀ may m)
    (weaker : ∀ ls, may ls → may' ls) : Went h withdrawing m₀ may' m := by
  obtain ⟨ls,ok,trail⟩ := went
  exact ⟨ls,weaker ls ok,trail⟩

/-! Finishing erasures. -/

theorem mem_unfinished {db : Db} :
    (ref,b) ∈ db.unfinished ↔ ∃ r ∈ db.sources, r.state = .erased ∧ r.blob = some b ∧ r.ref = ref := by
  unfold Db.unfinished
  rw [mem_filterMap]
  constructor
  · rintro ⟨r,member,found⟩
    by_cases erased : r.state = .erased
    · rw [if_pos erased] at found
      obtain ⟨b',named,same⟩ := Option.map_eq_some_iff.mp found
      obtain ⟨rfl,rfl⟩ := Prod.mk.inj same
      exact ⟨r,member,erased,named,rfl⟩
    · rw [if_neg erased] at found
      contradiction
  · rintro ⟨r,member,erased,named,rfl⟩
    exact ⟨r,member,by rw [if_pos erased,named]; rfl⟩

/-- The rows still to be finished are among those of the loop, and those of the loop are
erased for good. -/
structure Finishing (h : Host) (withdrawing : Bool) (m₀ : Machine) (ls : List Label) (rest : List (String × String)) (m : Machine) :
    Prop where
  trail : Trail h withdrawing m₀ ls m
  left : ∀ row ∈ m.db.unfinished, row ∈ rest
  erased : ∀ row ∈ rest, row.2 = blobName row.1 ∧ ∀ r ∈ m.db.sources, r.ref = row.1 → r.state = .erased

theorem hasBlob_filter (m : Machine) (name : String) :
    Machine.hasBlob { m with blobs := m.blobs.filter fun b => !decide (b.1 = name) } name = false := by
  unfold Machine.hasBlob
  rw [any_eq_false]
  intro b member
  simpa using (mem_filter.mp member).2

theorem finishErasure_meets (row : String × String) (rest : List (String × String)) :
    Meets (Finishing h withdrawing m₀ ls (row :: rest)) (finishErasure row) (fun _ => Finishing h withdrawing m₀ ls rest)
      (Trail h withdrawing m₀ ls) := by
  obtain ⟨ref,name⟩ := row
  unfold finishErasure
  let Removed (m : Machine) := Finishing h withdrawing m₀ ls ((ref,name) :: rest) m ∧ m.hasBlob name = false
  have clear : Meets Removed (Script.write (Machine.onDb fun db => .ok ((),db.setBlob ref)))
      (fun _ => Finishing h withdrawing m₀ ls rest) (Trail h withdrawing m₀ ls) := by
    refine .write (fun m held => held.1.trail) fun m a m' held done => ?_
    obtain ⟨_,same⟩ := Prod.mk.inj (Except.ok.inj done)
    subst same
    obtain ⟨⟨trail,left,erased⟩,removed⟩ := held
    obtain ⟨named,unneeded⟩ := erased _ mem_cons_self
    dsimp only at named
    subst named
    have rows (r' : SourceRow) (member : r' ∈ (m.db.setBlob ref).sources) :
        ∃ r ∈ m.db.sources, r'.ref = r.ref ∧ r'.state = r.state ∧ (r'.blob = r.blob ∧ r'.ref ≠ ref ∨ r'.blob = none) := by
      rw [setBlob_rows] at member
      obtain ⟨r,there,rfl⟩ := mem_map.mp member
      refine ⟨r,there,?_⟩
      by_cases at_ : r.ref = ref
      · simp [at_]
      · simp [at_]
    refine ⟨trail.quiet (.cleared ref unneeded removed),fun row member => ?_,fun row member => ?_⟩
    · obtain ⟨ref',b⟩ := row
      obtain ⟨r',there',erased',named',rfl⟩ := mem_unfinished.mp member
      obtain ⟨r,there,sameRef,sameState,⟨sameBlob,apart⟩ | none⟩ := rows r' there'
      · have old := left (r'.ref,b) (mem_unfinished.mpr
          ⟨r,there,sameState.symm.trans erased',sameBlob.symm.trans named',sameRef.symm⟩)
        rcases mem_cons.mp old with same | later
        · exact absurd (Prod.mk.inj same).1 apart
        · exact later
      · rw [none] at named'
        contradiction
    · obtain ⟨named,gone⟩ := erased row (mem_cons_of_mem _ member)
      refine ⟨named,fun r' there' at_ => ?_⟩
      obtain ⟨r,there,sameRef,sameState,_⟩ := rows r' there'
      exact sameState.trans (gone r there (sameRef.symm.trans at_))
  refine .bind (M := fun there m => Finishing h withdrawing m₀ ls ((ref,name) :: rest) m ∧ m.hasBlob name = there)
    (.look fun m held => ⟨held,rfl⟩) fun there => ?_
  refine .bind (M := fun _ => Removed) (.when (fun some => ?_) fun none m held => ?_) fun _ => clear
  · subst some
    refine .write (fun m held => held.1.trail) fun m a m' held done => ?_
    obtain ⟨⟨trail,left,erased⟩,present⟩ := held
    obtain ⟨named,unneeded⟩ := erased _ mem_cons_self
    dsimp only at named unneeded
    subst named
    unfold Machine.unlink at done
    rw [if_pos present] at done
    obtain ⟨_,same⟩ := Prod.mk.inj (Except.ok.inj done)
    subst same
    exact ⟨⟨trail.quiet (.unlinked ref unneeded),left,erased⟩,hasBlob_filter m _⟩
  · exact ⟨held.1,held.2.trans (by simpa using none)⟩

theorem finishErasures_meets (sound : Sound h m₀) :
    Meets (Trail h withdrawing m₀ ls) finishErasures (fun _ => Trail h withdrawing m₀ ls) (Trail h withdrawing m₀ ls) := by
  unfold finishErasures
  refine .bind (M := fun rows m => Finishing h withdrawing m₀ ls rows m) (.look fun m trail => ?_) fun rows => ?_
  · refine ⟨trail,fun _ member => member,fun row member => ?_⟩
    obtain ⟨ref,b⟩ := row
    obtain ⟨r,there,erased,named,rfl⟩ := mem_unfinished.mp member
    have now_ := trail.sound sound
    refine ⟨now_.blob r there b named,fun r' there' at_ => ?_⟩
    rw [now_.unique there there' at_]
    exact erased
  · have looped : Meets (Finishing h withdrawing m₀ ls rows) (Script.each finishErasure rows)
        (fun _ => Finishing h withdrawing m₀ ls []) (Trail h withdrawing m₀ ls) :=
      .each rows fun row rest _ => finishErasure_meets row rest
    refine .bind looped fun _ => ?_
    refine .bind (M := fun _ => Finishing h withdrawing m₀ ls []) (.when (fun _ => ?_) fun _ _ held => held) fun _ => ?_
    · refine .write (fun m held => held.trail) fun m a m' held done => ?_
      obtain ⟨_,same⟩ := Prod.mk.inj (Except.ok.inj done)
      subst same
      exact held
    · refine .note fun m held => held.trail.quiet (.finished ?_)
      exact eq_nil_iff_forall_not_mem.mpr fun row member => absurd (held.left row member) (by simp)

/-! Forgetting and retention. -/

/-- A trail that stands where the tables are `db`. -/
def AtDb (h : Host) (withdrawing : Bool) (m₀ : Machine) (ls : List Label) (db : Db) (m : Machine) : Prop :=
  Trail h withdrawing m₀ ls m ∧ m.db = db

/-- A transaction is one step, or none. -/
theorem transaction_meets {α : Type} {label : Label} {f : Db → Except String (α × Db)}
    (does : ∀ m a db', Trail h withdrawing m₀ ls m → m.db = db → f db = .ok (a,db') →
      DbChange h m.drawn withdrawing (some label) db db') :
    Meets (AtDb h withdrawing m₀ ls db) (transaction dropped f) (fun _ => Trail h withdrawing m₀ (ls ++ [label]))
      (Trail h withdrawing m₀ ls) := by
  refine .step (fun m held => held.1) (fun m a m' held done => ?_) fun m a m' held done => ?_
  · obtain ⟨trail,rfl⟩ := held
    obtain ⟨⟨a',db'⟩,ran,same⟩ := map_ok done
    cases same
    exact trail.step (.tables _ (does m a' db' trail rfl ran))
  · obtain ⟨trail,rfl⟩ := held
    obtain ⟨⟨a',db'⟩,ran,same⟩ := map_ok done
    cases same
    exact trail.quiet (.process m.opened _)

/-- What a `forget` may have gone through. -/
def Forgets (access : MemoryAccess) (ref : String) (mode : Mode) (db : Db) (ls ls' : List Label) : Prop :=
  ls' = ls ∨ ∃ row, db.sourceRow ref = some row ∧ access.permits row = true ∧ ls' = ls ++ [forgetLabel mode row db]

theorem forget_meets (sound : Sound h m₀) (now : String) (access : MemoryAccess) (ref : String) (mode : Mode) (db : Db) :
    Meets (AtDb h true m₀ ls db) (forget now access ref mode) (fun _ => Went h true m₀ (Forgets access ref mode db ls))
      (Went h true m₀ (Forgets access ref mode db ls)) := by
  have stays : ∀ m, Trail h true m₀ ls m → Went h true m₀ (Forgets access ref mode db ls) m :=
    fun m trail => .of trail (.inl rfl)
  unfold forget
  refine .bind (M := fun seen m => AtDb h true m₀ ls db m ∧ seen = db) (.look fun m held => ⟨held,held.2⟩) fun seen => ?_
  apply Meets.assume (fun m held => held.2)
  rintro rfl
  cases found : seen.sourceRow ref with
  | none => exact .throw fun m held => stays m held.1.1
  | some row =>
    refine .bind (M := fun _ m => AtDb h true m₀ ls seen m ∧ access.permits row = true)
      (.guard (fun m held allowed => ⟨held.1,by simpa using allowed⟩) fun m held => stays m held.1.1) fun _ => ?_
    apply Meets.assume (fun m held => held.2)
    intro permitted
    have may : Forgets access ref mode seen ls (ls ++ [forgetLabel mode row seen]) := .inr ⟨row,found,permitted,rfl⟩
    refine .bind (M := fun _ => Trail h true m₀ (ls ++ [forgetLabel mode row seen])) ?_ fun event => ?_
    · refine .weaken (transaction_meets fun m a db' trail at_ done => ?_) (fun m held => held.1) (fun _ _ trail => trail) stays
      exact .forgotten now access row mode a (sourceRow_mem found).1 permitted done
    · refine .bind (M := fun _ => Trail h true m₀ (ls ++ [forgetLabel mode row seen])) (.when (fun _ => ?_) fun _ _ held => held)
        fun _ => .pure fun m trail => .of trail may
      exact (finishErasures_meets sound).weaken (fun _ trail => trail) (fun _ _ trail => trail) fun m trail => .of trail may

/-- Sources that were dealt with, each once, none of them revived. -/
structure Dealt (ownerId : String) (seen : List (String × String)) (ls : List Label) : Prop where
  once : seen.Nodup
  keys : (ls.map Label.key).Sublist (seen.map fun key => (ownerId,key))
  calm : ∀ l ∈ ls, l.revives = false

/-- Labels of one call: no source twice, none revived. -/
structure Apart (ls : List Label) : Prop where
  once : (ls.map Label.key).Nodup
  calm : ∀ l ∈ ls, l.revives = false

theorem Dealt.apart (dealt : Dealt ownerId seen ls) : Apart ls :=
  ⟨dealt.keys.nodup (dealt.once.map fun _ _ same => (Prod.mk.inj same).2),dealt.calm⟩

/-- One more source. -/
theorem Dealt.more {ownerId : String} {seen : List (String × String)} {key : String × String} {l : Label}
    (dealt : Dealt ownerId seen ls) (new : key ∉ seen) (at_ : l.key = (ownerId,key)) (calm : l.revives = false) :
    Dealt ownerId (seen ++ [key]) (ls ++ [l]) := by
  constructor
  · exact List.Nodup.append dealt.once (nodup_singleton _) fun x there here => new (by simpa using (mem_singleton.mp here) ▸ there)
  · rw [map_append,map_append,map_singleton,map_singleton,at_]
    exact dealt.keys.append (List.Sublist.refl _)
  · intro l' member
    rcases mem_append.mp member with old | one
    · exact dealt.calm l' old
    · rw [mem_singleton.mp one]; exact calm

/-- One more source, left alone. -/
theorem Dealt.passed {ownerId : String} {seen : List (String × String)} {key : String × String}
    (dealt : Dealt ownerId seen ls) (new : key ∉ seen) : Dealt ownerId (seen ++ [key]) ls := by
  constructor
  · exact List.Nodup.append dealt.once (nodup_singleton _) fun x there here => new (by simpa using (mem_singleton.mp here) ▸ there)
  · rw [map_append]
    exact dealt.keys.trans (sublist_append_left _ _)
  · exact dealt.calm

theorem permits_owner {access : MemoryAccess} {row : SourceRow} (h : access.permits row = true) :
    row.owner = access.ownerId ∧ row.scope ∈ access.scopes ∧
      (access.accountId.getD "" = "" ∨ row.account = access.accountId.getD "") := by
  unfold MemoryAccess.permits at h
  simpa [and_assoc] using h

theorem SourceRow.Same.permits {access : MemoryAccess} (same : r.Same r') : access.permits r' = access.permits r:= by
  unfold MemoryAccess.permits
  rw [same.owner,same.account,same.scope]

theorem expire_meets (sound : Sound h m₀) (now : String) (access : MemoryAccess) (cutoff : String)
    (acc : List (String × String) × List Invalidation) (ref : String)
    (target : ∃ r ∈ m₀.db.sources, r.ref = ref ∧ access.permits r = true) :
    Meets (Went h true m₀ (Dealt access.ownerId acc.1)) (expire now access cutoff acc ref)
      (fun acc' => Went h true m₀ (Dealt access.ownerId acc'.1)) (Went h true m₀ Apart) := by
  have broken : ∀ seen m, Went h true m₀ (Dealt access.ownerId seen) m → Went h true m₀ Apart m :=
    fun seen m went => went.imp fun _ dealt => dealt.apart
  unfold expire
  refine .named fun m went => ?_
  obtain ⟨ls,dealt,trail⟩ := went
  refine .bind (M := fun db m' => AtDb h true m₀ ls db m' ∧ db = m.db) (.look ?_) fun db => ?_
  · rintro _ rfl
    exact ⟨⟨trail,rfl⟩,rfl⟩
  apply Meets.assume (fun _ held => held.2)
  rintro rfl
  refine .pre (P := AtDb h true m₀ ls m.db) ?_ fun _ held => held.1
  cases found : m.db.sourceRow ref with
  | none => exact .throw fun m' held => broken acc.1 m' (.of held.1 dealt)
  | some row =>
    obtain ⟨r,there,rfl,allowed⟩ := target
    have permitted : access.permits row = true := by rw [(trail.found sound there found).permits]; exact allowed
    have owner : row.owner = access.ownerId := (permits_owner permitted).1
    refine .ite (fun _ => .pure fun m' held => .of held.1 dealt) fun new => ?_
    have new : (row.account,row.sourceId) ∉ acc.1 := by simpa using new
    have label (l : Label) (at_ : l.key = (row.owner,row.account,row.sourceId)) (calm : l.revives = false) :
        Dealt access.ownerId (acc.1 ++ [(row.account,row.sourceId)]) (ls ++ [l]) := dealt.more new (by rw [at_,owner]) calm
    refine .ite (fun _ => ?_) fun _ => ?_
    · have forgets : ∀ ls', Forgets access r.ref .erase m.db ls ls' →
          Dealt access.ownerId (acc.1 ++ [(row.account,row.sourceId)]) ls' := by
        rintro ls' (rfl | ⟨row',found',_,rfl⟩)
        · exact dealt.passed new
        · cases found.symm.trans found'
          exact label _ rfl rfl
      refine .bind (M := fun _ => Went h true m₀ (Dealt access.ownerId (acc.1 ++ [(row.account,row.sourceId)]))) ?_
        fun event => .pure fun _ went => went
      exact (forget_meets sound now access r.ref .erase m.db).weaken (fun _ held => held) (fun _ m' went => went.imp forgets)
        fun m' went => broken _ m' (went.imp forgets)
    · let l : Label := ⟨row.owner,row.account,row.sourceId,false⟩
      have after_ : Dealt access.ownerId (acc.1 ++ [(row.account,row.sourceId)]) (ls ++ [l]) := label l rfl rfl
      refine .bind (M := fun _ => Trail h true m₀ (ls ++ [l])) ?_ fun event => ?_
      · refine .weaken (transaction_meets fun m' a db' trail' at_ done => ?_) (fun _ held => held) (fun _ _ trail' => trail')
          fun m' trail' => broken acc.1 m' (.of trail' dealt)
        refine .retained now access row _ _ a (sourceRow_mem found).1 permitted (fun ref' member => ?_) done
        obtain ⟨r',there',rfl⟩ := mem_map.mp member
        exact ⟨r',mem_of_mem_filter (mem_of_mem_filter there'),rfl⟩
      · refine .bind (M := fun _ => Trail h true m₀ (ls ++ [l])) ?_ fun _ => .pure fun m' trail' => .of trail' after_
        exact (finishErasures_meets sound).weaken (fun _ trail' => trail') (fun _ _ trail' => trail')
          fun m' trail' => broken _ m' (.of trail' after_)

theorem expireBefore_meets (sound : Sound h m₀) (now : String) (access : MemoryAccess) (cutoff : String) :
    Meets (fun m => m = m₀) (expireBefore h now access cutoff) (fun _ => Went h true m₀ Apart) (Went h true m₀ Apart) := by
  have nothing : Dealt access.ownerId [] [] := ⟨nodup_nil,List.Sublist.refl _,fun _ no => absurd no (by simp)⟩
  have start : Went h true m₀ (Dealt access.ownerId []) m₀ := .of .start nothing
  have still : ∀ m, m = m₀ → Went h true m₀ Apart m := by
    rintro _ rfl
    exact start.imp fun _ dealt => dealt.apart
  unfold expireBefore
  refine .bind (M := fun _ m => m = m₀) (.guard (fun _ held _ => held) still) fun _ => ?_
  refine .bind (M := fun rows m => m = m₀ ∧ ∀ r ∈ rows, r ∈ m₀.db.sources ∧ access.permits r = true) (.look ?_) fun rows => ?_
  · rintro _ rfl
    refine ⟨rfl,fun r member => ?_⟩
    obtain ⟨there,chosen⟩ := mem_filter.mp member
    exact ⟨there,(Bool.and_eq_true_iff.mp chosen).2⟩
  apply Meets.assume (fun _ held => held.2)
  intro selected
  let Turned (acc : List (String × String) × List Invalidation) := Went h true m₀ (Dealt access.ownerId acc.1)
  refine .bind (M := Turned) ?_ fun acc => .pure fun m went => went.imp fun _ dealt => dealt.apart
  refine .pre (.fold (I := fun _ => Turned) _ _ fun acc ref rest member => ?_) ?_
  · obtain ⟨r,there,rfl⟩ := mem_map.mp member
    exact expire_meets sound now access cutoff acc r.ref ⟨r,(selected r there).1,rfl,(selected r there).2⟩
  · rintro _ ⟨rfl,_⟩
    exact start

/-! Ingestion. -/

theorem admitted_untombed {input : SourceInput} (ok : admitted h input db = .ok none) :
    db.tombstoned input.ownerId input.accountId input.sourceId = false := by
  unfold admitted at ok
  obtain ⟨_,_,ok⟩ := bind_ok ok
  simpa using (guard_eq_ok.mp ok).1

/-- An identifier was drawn that no revision has. -/
structure Fresh (h : Host) (withdrawing : Bool) (m₀ : Machine) (ls : List Label) (db : Db) (ref : String) (m : Machine) : Prop where
  here : AtDb h withdrawing m₀ ls db m
  drawn : ∃ k < m.drawn, ref = h.uuid k
  unused : ∀ r ∈ db.sources, r.ref ≠ ref

theorem randomUUID_meets (sound : Sound h m₀) (db : Db) :
    Meets (AtDb h withdrawing m₀ ls db) (randomUUID h) (Fresh h withdrawing m₀ ls db) (Trail h withdrawing m₀ ls) := by
  unfold randomUUID
  refine .bind (M := fun n m => AtDb h withdrawing m₀ ls db m ∧ n = m.drawn) (.look fun m held => ⟨held,rfl⟩) fun n => ?_
  refine .bind (M := fun _ => Fresh h withdrawing m₀ ls db (h.uuid n)) (.note fun m held => ?_) fun _ => .pure fun m held => held
  obtain ⟨⟨trail,rfl⟩,rfl⟩ := held
  refine ⟨⟨trail.quiet .drew,rfl⟩,⟨m.drawn,Nat.lt_succ_self _,rfl⟩,fun r member same => ?_⟩
  obtain ⟨k,young,at_⟩ := (trail.sound sound).drawn r member
  have := h.distinct (at_.symm.trans same)
  omega

theorem ingestSource_meets (sound : Sound h m₀) (now : String) (input : SourceInput) :
    Meets (fun m => m = m₀) (ingestSource h now input) (fun _ => Went h true m₀ Apart) (Went h true m₀ Apart) := by
  have nothing : Apart [] := ⟨nodup_nil,fun _ no => absurd no (by simp)⟩
  have still : ∀ m, Trail h true m₀ [] m → Went h true m₀ Apart m := fun m trail => .of trail nothing
  unfold ingestSource
  refine .bind (M := fun db m => AtDb h true m₀ [] db m ∧ db = m₀.db) (.look ?_) fun db => ?_
  · rintro _ rfl
    exact ⟨⟨.start,rfl⟩,rfl⟩
  let Accepted (r : Option SourceRevision) (m : Machine) := AtDb h true m₀ [] db m ∧ (r = none → admitted h input db = .ok none)
  refine .bind (M := Accepted) (.lift (fun m a held ran => ⟨held.1,fun none => none ▸ ran⟩) fun m held => still m held.1.1) fun r => ?_
  cases r with
  | some old => exact .pure fun m held => still m held.1.1
  | none =>
    apply Meets.assume (fun _ held => held.2 rfl)
    intro ok
    refine .bind (M := Fresh h true m₀ [] db) ((randomUUID_meets sound db).weaken (fun _ held => held.1) (fun _ _ f => f) still)
      fun ref => ?_
    refine .bind (M := fun _ => Fresh h true m₀ [] db ref) ?_ fun _ => ?_
    · refine .write (fun m held => still m held.here.1) fun m a m' held done => ?_
      unfold Machine.createBlob at done
      obtain ⟨_,same⟩ := guard_eq_ok.mp done
      cases same
      obtain ⟨⟨trail,rfl⟩,⟨k,young,rfl⟩,unused⟩ := held
      exact ⟨⟨trail.quiet (.created k young unused),rfl⟩,⟨k,young,rfl⟩,unused⟩
    refine .bind (M := fun _ => Fresh h true m₀ [] db ref) ?_ fun _ => ?_
    · refine .write (fun m held => still m held.here.1) fun m a m' held done => ?_
      cases done
      obtain ⟨⟨trail,rfl⟩,⟨k,young,rfl⟩,unused⟩ := held
      exact ⟨⟨trail.quiet (.filled _ _),rfl⟩,⟨k,young,rfl⟩,unused⟩
    let l : Label := ⟨input.ownerId,input.accountId,input.sourceId,false⟩
    let Tried (r : Except String Unit) (m : Machine) := (r = .ok () → Trail h true m₀ [l] m) ∧
      ((∃ e, r = .error e) → Fresh h true m₀ [] db ref m)
    refine .bind (M := Tried) ?_ fun r => ?_
    · refine .attempt (fun m held => still m held.here.1) (fun m a m' held done => ?_) (fun m a m' e held done => ?_)
        fun m e held => ⟨fun no => by contradiction,fun _ => held⟩
      · refine ⟨fun _ => ?_,fun ⟨e,no⟩ => by contradiction⟩
        obtain ⟨⟨trail,rfl⟩,⟨k,young,rfl⟩,unused⟩ := held
        obtain ⟨⟨_,db'⟩,ran,same⟩ := map_ok done
        cases same
        exact trail.step (.tables _ (.ingested now (input.revision h (h.uuid k) now) k young rfl (admitted_untombed ok) ran))
      · refine ⟨fun no => by contradiction,fun _ => ?_⟩
        obtain ⟨⟨trail,rfl⟩,⟨k,young,rfl⟩,unused⟩ := held
        obtain ⟨⟨_,db'⟩,ran,same⟩ := map_ok done
        cases same
        exact ⟨⟨trail.quiet (.process m.opened _),rfl⟩,⟨k,young,rfl⟩,unused⟩
    cases r with
    | error e =>
      refine .bind (M := fun _ => Trail h true m₀ []) ?_ fun _ => .throw still
      refine .write (fun m held => still m (held.2 ⟨e,rfl⟩).here.1) fun m a m' held done => ?_
      obtain ⟨⟨trail,rfl⟩,_,unused⟩ := held.2 ⟨e,rfl⟩
      unfold Machine.unlink at done
      split at done
      · cases done
        exact trail.quiet (.unlinked ref fun r member same => absurd same (unused r member))
      · contradiction
    | ok _ =>
      refine .bind (M := fun _ => Trail h true m₀ [l]) (.note fun m held => (held.1 rfl).quiet (.process m.opened _)) fun _ =>
        .pure fun m trail => .of trail ⟨nodup_singleton _,fun l' member => by rw [mem_singleton.mp member]⟩

/-! Records that touch no source. -/

/-- What a call leaves that records something and takes nothing out of use. -/
def Records (h : Host) (m₀ m : Machine) : Prop := Trail h false m₀ [] m

theorem recorded_transaction {α : Type} {f : Db → Except String (α × Db)}
    (does : ∀ a db', f db = .ok (a,db') → Recorded db db') :
    Meets (AtDb h false m₀ [] db) (transaction (fun _ => []) f) (fun _ => Records h m₀) (Records h m₀) := by
  refine .step (fun m held => held.1) (fun m a m' held done => ?_) fun m a m' held done => ?_
  · obtain ⟨trail,rfl⟩ := held
    obtain ⟨⟨a',db'⟩,ran,same⟩ := map_ok done
    cases same
    exact trail.quiet (.tables _ (.recorded (does a' db' ran)))
  · obtain ⟨trail,rfl⟩ := held
    obtain ⟨⟨a',db'⟩,ran,same⟩ := map_ok done
    cases same
    exact trail.quiet (.process m.opened _)

theorem putPreference_meets (sound : Sound h m₀) (now : String) (input : PreferenceInput) :
    Meets (fun m => m = m₀) (putPreference h now input) (fun _ => Records h m₀) (Records h m₀) := by
  unfold putPreference
  refine .bind (M := fun db => AtDb h false m₀ [] db) (.look ?_) fun db => ?_
  · rintro _ rfl
    exact ⟨.start,rfl⟩
  refine .bind (M := fun _ m => AtDb h false m₀ [] db m ∧ preferable input db = .ok ())
    (.lift (fun m a held ran => ⟨held,ran⟩) fun m held => held.1) fun _ => ?_
  apply Meets.assume (fun _ held => held.2)
  intro checked
  refine .bind (M := fun _ => AtDb h false m₀ [] db)
    ((randomUUID_meets sound db).weaken (fun _ held => held.1) (fun _ _ fresh => fresh.here) fun _ trail => trail) fun drawn => ?_
  exact recorded_transaction fun a db' ran => preferred_recorded checked ran

theorem mirrorProcedureCandidate_meets (sound : Sound h m₀) (now : String) (input : ProcedureInput) :
    Meets (fun m => m = m₀) (mirrorProcedureCandidate h now input) (fun _ => Records h m₀) (Records h m₀) := by
  unfold mirrorProcedureCandidate
  refine .bind (M := fun db => AtDb h false m₀ [] db) (.look ?_) fun db => ?_
  · rintro _ rfl
    exact ⟨.start,rfl⟩
  refine .bind (M := fun _ => AtDb h false m₀ [] db) (.lift (fun m a held _ => held) fun m held => held.1) fun _ => ?_
  refine .bind (M := fun _ => AtDb h false m₀ [] db)
    ((randomUUID_meets sound db).weaken (fun _ held => held) (fun _ _ fresh => fresh.here) fun _ trail => trail) fun drawn => ?_
  exact recorded_transaction fun a db' ran => mirrored_recorded ran

theorem insertDerivation_recorded (grounded : d.Grounded db.sources) : Recorded db (db.insertDerivation d):= by
  obtain ⟨ds,frame,grown⟩ := insertDerivation_spec d db
  rw [frame]
  refine ⟨rfl,rfl,fun e member => ?_,fun p member => .inl ⟨p,member,.inl rfl⟩,.inl rfl⟩
  rcases grown e member with old | rfl
  · exact .inl old
  · exact .inr grounded

theorem registerDerived_meets (ownerId id : String) (kind : DerivedKind) (refs : List String) :
    Meets (Records h m₀) (registerDerived ownerId id kind refs) (fun _ => Records h m₀) (Records h m₀) := by
  unfold registerDerived
  refine .bind (M := fun _ => Records h m₀) (.lift (fun m a held _ => held) fun m held => held) fun _ => ?_
  refine .bind (M := fun db => AtDb h false m₀ [] db) (.look fun m held => ⟨held,rfl⟩) fun db => ?_
  refine .bind (M := fun _ m => AtDb h false m₀ [] db m ∧ refs.forM (derivable ownerId db) = .ok ())
    (.lift (fun m a held ran => ⟨held,ran⟩) fun m held => held.1) fun _ => ?_
  apply Meets.assume (fun _ held => held.2)
  intro checked
  let Going (m : Machine) := Records h m₀ m ∧ m.db.sources = db.sources
  have looped : Meets Going (Script.each (fun ref => Script.write (Machine.onDb fun db =>
      .ok ((),db.insertDerivation ⟨id,kind,ownerId,ref⟩))) refs) (fun _ => Going) (Records h m₀) := by
    refine .each (I := fun _ => Going) refs fun ref rest member => .write (fun m held => held.1) fun m a m' held done => ?_
    cases done
    obtain ⟨trail,rows⟩ := held
    have grounded : Derivation.Grounded ⟨id,kind,ownerId,ref⟩ m.db.sources := by
      rw [rows]
      exact derivable_grounded (forM_ok checked ref member)
    have recorded := insertDerivation_recorded grounded
    exact ⟨trail.quiet (.tables m.index (.recorded recorded)),recorded.sources.trans rows⟩
  exact looped.weaken (fun m held => ⟨held.1.1,congrArg Db.sources held.1.2⟩) (fun _ _ held => held.1) fun _ held => held

theorem recordCoverage_meets (sound : Sound h m₀) (now : String) (input : CoverageInput) :
    Meets (fun m => m = m₀) (recordCoverage h now input) (fun _ => Records h m₀) (Records h m₀) := by
  unfold recordCoverage
  have start : ∀ m, m = m₀ → AtDb h false m₀ [] m₀.db m := by
    rintro _ rfl
    exact ⟨.start,rfl⟩
  refine .bind (M := fun _ => AtDb h false m₀ [] m₀.db) (.guard (fun m held _ => start m held) fun m held => (start m held).1) fun _ => ?_
  refine .bind (M := fun _ => AtDb h false m₀ [] m₀.db) (.guard (fun m held _ => held) fun m held => held.1) fun _ => ?_
  refine .bind (M := fun _ => AtDb h false m₀ [] m₀.db)
    ((randomUUID_meets sound m₀.db).weaken (fun _ held => held) (fun _ _ fresh => fresh.here) fun _ trail => trail) fun id => ?_
  refine .bind (M := fun _ => Records h m₀) (.write (fun m held => held.1) fun m a m' held done => ?_) fun _ => .pure fun _ held => held
  cases done
  refine held.1.quiet (.tables m.index (.recorded ?_))
  exact ⟨rfl,rfl,fun d member => .inl member,fun p member => .inl ⟨p,member,.inl rfl⟩,.inl rfl⟩

theorem buildContext_meets (sound : Sound h m₀) (now : String) (request : ContextRequest) :
    Meets (fun m => m = m₀) (buildContext h now request) (fun _ => Records h m₀) (Records h m₀) := by
  unfold buildContext
  have start : ∀ m, m = m₀ → AtDb h false m₀ [] m₀.db m := by
    rintro _ rfl
    exact ⟨.start,rfl⟩
  refine .bind (M := fun _ => AtDb h false m₀ [] m₀.db) (.look start) fun built => ?_
  refine .bind (M := fun _ => AtDb h false m₀ [] m₀.db) (.lift (fun m a held _ => held) fun m held => held.1) fun shown => ?_
  obtain ⟨text,manifest⟩ := shown
  refine .bind (M := fun _ => AtDb h false m₀ [] m₀.db)
    ((randomUUID_meets sound m₀.db).weaken (fun _ held => held) (fun _ _ fresh => fresh.here) fun _ trail => trail) fun drawn => ?_
  refine .bind (M := fun _ => Records h m₀) ((registerDerived_meets _ _ _ _).pre fun m held => held.1) fun _ => .pure fun _ held => held

theorem reopen_meets (sound : Sound h m₀) :
    Meets (fun m => m = m₀) reopen (fun _ => Records h m₀) (Records h m₀) := by
  unfold reopen
  refine .bind (M := fun _ => Records h m₀) (.note ?_) fun _ => ?_
  · rintro _ rfl
    exact Trail.start.quiet (.process false [])
  refine .bind (M := fun _ => Records h m₀) (.write (fun _ held => held) fun m a m' held done => ?_) fun _ => ?_
  · cases done
    exact held
  refine .bind (finishErasures_meets sound) fun _ => ?_
  refine .bind (M := fun _ => Records h m₀) (.look fun _ held => held) fun rows => ?_
  refine .bind (M := fun _ => Records h m₀) (.lift (fun _ _ held _ => held) fun _ held => held) fun entries => ?_
  exact .note fun m trail => trail.quiet (.process true entries)

/-! Every call. -/

/-- No `forget` that keeps content is carried out on a source with an erased revision. -/
def Spares (db : Db) : Call → Prop
  | .forget access ref mode => mode = .erase ∨ ∀ row, db.sourceRow ref = some row → access.permits row = true →
      ∀ r ∈ db.related row.owner row.account row.sourceId, r.state ≠ .erased
  | _ => True

/-- The labels of one call: each source once, and none revived by a call that spares the
erased. -/
structure Labelled (db : Db) (call : Call) (ls : List Label) : Prop where
  once : (ls.map Label.key).Nodup
  calm : Spares db call → ∀ l ∈ ls, l.revives = false

def Called (h : Host) (call : Call) (m₀ m : Machine) : Prop := ∃ withdrawing, Went h withdrawing m₀ (Labelled m₀.db call) m

theorem Records.called {call : Call} {m : Machine} (recorded : Records h m₀ m) : Called h call m₀ m :=
  ⟨false,.of recorded ⟨nodup_nil,fun _ _ no => absurd no (by simp)⟩⟩

theorem Went.called {call : Call} {m : Machine} (went : Went h true m₀ Apart m) : Called h call m₀ m :=
  ⟨true,went.imp fun _ apart => ⟨apart.once,fun _ => apart.calm⟩⟩

theorem forgets_labelled {access : MemoryAccess} {ref : String} {mode : Mode} {db : Db} {ls : List Label}
    (forgets : Forgets access ref mode db [] ls) : Labelled db (.forget access ref mode) ls := by
  rcases forgets with rfl | ⟨row,found,permitted,rfl⟩
  · exact ⟨nodup_nil,fun _ _ no => absurd no (by simp)⟩
  · refine ⟨nodup_singleton _,fun spares l member => ?_⟩
    cases mem_singleton.mp member
    unfold forgetLabel
    rcases spares with rfl | kept
    · rfl
    · have none : ((db.related row.owner row.account row.sourceId).any fun r => r.state = .erased) = false := by
        rw [any_eq_false]
        intro r there
        simpa using kept row found permitted r there
      simp [none]

theorem ready_meets {α : Type} {call : Call} {m : Script Machine α} {Q : α → Machine → Prop}
    (body : Meets (fun m => m = m₀) m Q (Called h call m₀)) : Meets (fun m => m = m₀) (ready m) Q (Called h call m₀) := by
  have still : ∀ m, m = m₀ → Called h call m₀ m := by
    rintro _ rfl
    exact Records.called .start
  unfold ready
  refine .bind (M := fun _ m => m = m₀) (.look fun _ held => held) fun opened => ?_
  exact .bind (M := fun _ m => m = m₀) (.guard (fun _ held _ => held) still) fun _ => body

theorem perform_meets (sound : Sound h m₀) (event : Call × String) :
    Meets (fun m => m = m₀) (perform h event) (fun _ => Called h event.1 m₀) (Called h event.1 m₀) := by
  obtain ⟨call,now⟩ := event
  have recorded {α : Type} {m : Script Machine α} {k : α → Answer}
      (spec : Meets (fun m => m = m₀) m (fun _ => Records h m₀) (Records h m₀)) :
      Meets (fun m => m = m₀) (m >>= fun a => pure (k a)) (fun _ => Called h call m₀) (Called h call m₀) :=
    .bind (M := fun _ => Called h call m₀) (spec.weaken (fun _ held => held) (fun _ _ r => r.called) fun _ r => r.called)
      fun _ => .pure fun _ held => held
  have withdrew {α : Type} {m : Script Machine α} {k : α → Answer}
      (spec : Meets (fun m => m = m₀) m (fun _ => Went h true m₀ Apart) (Went h true m₀ Apart)) :
      Meets (fun m => m = m₀) (m >>= fun a => pure (k a)) (fun _ => Called h call m₀) (Called h call m₀) :=
    .bind (M := fun _ => Called h call m₀) (spec.weaken (fun _ held => held) (fun _ _ went => went.called) fun _ went => went.called)
      fun _ => .pure fun _ held => held
  have start : ∀ m, m = m₀ → AtDb h true m₀ [] m₀.db m := by
    rintro _ rfl
    exact ⟨.start,rfl⟩
  have begun : ∀ m, m = m₀ → Records h m₀ m := by
    rintro _ rfl
    exact .start
  cases call with
  | reopen => exact recorded (reopen_meets sound)
  | ingestSource input => exact ready_meets (withdrew (ingestSource_meets sound now input))
  | forget access ref mode =>
    apply ready_meets
    refine .bind (M := fun _ => Called h (.forget access ref mode) m₀) ?_ fun _ => .pure fun _ held => held
    exact (forget_meets sound now access ref mode m₀.db).weaken start
      (fun _ _ went => ⟨true,went.imp fun _ => forgets_labelled⟩) fun _ went => ⟨true,went.imp fun _ => forgets_labelled⟩
  | expireBefore access cutoff => exact ready_meets (withdrew (expireBefore_meets sound now access cutoff))
  | putPreference input => exact ready_meets (recorded (putPreference_meets sound now input))
  | mirrorProcedureCandidate input => exact ready_meets (recorded (mirrorProcedureCandidate_meets sound now input))
  | registerDerived ownerId id kind refs => exact ready_meets (recorded ((registerDerived_meets ownerId id kind refs).pre begun))
  | recordCoverage input => exact ready_meets (recorded (recordCoverage_meets sound now input))
  | buildContext request => exact ready_meets (recorded (buildContext_meets sound now request))

end Neurobro.Memory
