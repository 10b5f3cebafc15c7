import Neurobro.Memory.Order

/-! Each revision a call takes out of use is named, with its derivations, by exactly one
new invalidation; and what is read now stands on current sources of the owner. -/
namespace Neurobro.Memory

open Durable List

variable {h : Host}

/-- The entry names the revision and every derivation registered on it. -/
def Invalidation.Names (e : Invalidation) (db : Db) (r : SourceRow) : Prop :=
  e.ownerId = r.owner ∧ r.ref ∈ e.sourceRefs ∧ ∀ d ∈ db.derivations, d.sourceRef = r.ref → d.name ∈ e.derivedRefs

/-- A revision is no longer current. -/
def Retired (db : Db) (r : SourceRow) : Prop := ∀ r' ∈ db.sources, r'.ref = r.ref → r'.state ≠ .active

/-- Every revision taken out of use between two states has exactly one new entry. -/
def Accounted (db db' : Db) : Prop :=
  ∃ new, db'.invalidations = db.invalidations ++ new ∧
    ∀ r ∈ db.sources, r.state = .active → Retired db' r →
      ∃ e ∈ new, e.Names db r ∧ ∀ e' ∈ new, r.ref ∈ e'.sourceRefs → e' = e

def SourceRow.key (r : SourceRow) : String × String × String := (r.owner,r.account,r.sourceId)

theorem SourceRow.Same.key {r r' : SourceRow} (same : r.Same r') : r'.key = r.key := by
  unfold SourceRow.key
  rw [same.owner,same.account,same.sourceId]

/-- The entries of a trail, each with the source it is about. -/
structure Accounts (db db' : Db) (keys : List (String × String × String))
    (new : List ((String × String × String) × Invalidation)) : Prop where
  grown : db'.invalidations = db.invalidations ++ new.map Prod.snd
  order : (new.map Prod.fst).Sublist keys
  group : ∀ n ∈ new, ∀ ref ∈ n.2.sourceRefs, ∃ r ∈ db'.sources, r.ref = ref ∧ r.key = n.1
  derivations : db'.derivations = db.derivations
  taken : ∀ r ∈ db.sources, r.state = .active → Retired db' r → ∃ n ∈ new, n.2.Names db r

/-- A step that takes nothing out of use. -/
theorem Accounts.calm (keys : List (String × String × String)) (invalidations : db'.invalidations = db.invalidations)
    (derivations : db'.derivations = db.derivations)
    (stays : ∀ r ∈ db.sources, r.state = .active → ∃ r' ∈ db'.sources, r'.ref = r.ref ∧ r'.state = .active) :
    Accounts db db' keys [] := by
  refine ⟨by simpa using invalidations,nil_sublist _,fun _ no => absurd no (by simp),derivations,fun r member active retired => ?_⟩
  obtain ⟨r',there,same,active'⟩ := stays r member active
  exact absurd active' (retired r' there same)

theorem TakenOut.accounts {ownerId : String} {state : SourceState} {event : Invalidation}
 (taken : TakenOut ownerId rs state m.db event db') (good : Good h m) {key : String × String × String}
    (group : ∀ ref ∈ rs, ∃ r ∈ m.db.sources, r.ref = ref ∧ r.key = key) (owner : ownerId = key.1) :
    Accounts m.db db' [key] [(key,event)] := by
  refine ⟨taken.invalidations,List.Sublist.refl _,fun n member ref there => ?_,taken.derivations,fun r member active retired => ?_⟩
  · cases mem_singleton.mp member
    rw [taken.refs] at there
    obtain ⟨r,row,at_,same⟩ := group ref there
    obtain ⟨r',row',copy,_⟩ := taken.row row
    exact ⟨r',row',copy.ref.trans at_,copy.key.trans same⟩
  · refine ⟨_,mem_singleton_self _,?_⟩
    obtain ⟨r',row',copy,after_⟩ := taken.row member
    have out : r.ref ∈ rs := by
      by_contra kept
      rw [if_neg kept] at after_
      exact retired r' row' copy.ref (after_.trans active)
    obtain ⟨r₁,row₁,at_,same⟩ := group r.ref out
    rw [good.sound.unique member row₁ at_] at same
    have own : r.owner = ownerId := by rw [owner,← same]; rfl
    refine ⟨taken.owner.trans own.symm,by rw [taken.refs]; exact out,fun d there at_ => ?_⟩
    refine taken.named d there ?_ (by rw [at_]; exact out)
    obtain ⟨r₂,row₂,at₂,owner₂⟩ := good.orderly.derivations d there
    rw [good.sound.unique member row₂ (at₂.trans at_)] at owner₂
    exact owner₂.symm.trans own

/-- A row that is added changes no account. -/
theorem Accounts.extended {keys : List (String × String × String)}
    {new : List ((String × String × String) × Invalidation)} (accounts : Accounts db mid keys new) (row : SourceRow) :
    Accounts db { mid with sources := mid.sources ++ [row] } keys new := by
  refine ⟨accounts.grown,accounts.order,fun n member ref there => ?_,accounts.derivations,fun r member active retired => ?_⟩
  · obtain ⟨r,inside,rest⟩ := accounts.group n member ref there
    exact ⟨r,mem_append_left _ inside,rest⟩
  · exact accounts.taken r member active fun r' there => retired r' (mem_append_left _ there)

theorem Change.accounts {label : Option Label} (change : Change h true label m m') (good : Good h m) :
    ∃ new, Accounts m.db m'.db (label.toList.map Label.key) new := by
  cases change with
  | process | drew | created | filled | unlinked | finished =>
    exact ⟨[],.calm _ rfl rfl fun r member active => ⟨r,member,rfl,active⟩⟩
  | cleared ref =>
    refine ⟨[],.calm _ rfl rfl fun r member active => ⟨_,mem_map_of_mem member,?_⟩⟩
    split
    · exact ⟨rfl,active⟩
    · exact ⟨rfl,active⟩
  | tables index change =>
    cases change with
    | forgotten now access row mode event member permitted done =>
      refine ⟨_,(forgotten_takes done).1.accounts good (fun ref there => ?_) (permits_owner permitted).1.symm⟩
      obtain ⟨r,inside,rfl⟩ := mem_map.mp there
      obtain ⟨inside,of⟩ := mem_filter.mp inside
      obtain ⟨owner,account,sourceId⟩ := of_decide_eq_true of
      exact ⟨r,inside,rfl,by unfold SourceRow.key; rw [owner,account,sourceId]; rfl⟩
    | retained now access row related expired event member permitted ofSource done =>
      refine ⟨_,(retained_takes done).1.accounts good (fun ref there => ?_) (permits_owner permitted).1.symm⟩
      obtain ⟨r,inside,rfl⟩ := ofSource ref there
      obtain ⟨inside,of⟩ := mem_filter.mp inside
      obtain ⟨owner,account,sourceId⟩ := of_decide_eq_true of
      exact ⟨r,inside,rfl,by unfold SourceRow.key; rw [owner,account,sourceId]; rfl⟩
    | ingested now source k young fresh untombed done =>
      obtain ⟨mid,⟨_,_,replaced⟩,rfl⟩ := ingested_spec done
      rcases replaced with ⟨_,rfl⟩ | ⟨event,spec⟩
      · refine ⟨[],Accounts.extended (.calm _ rfl rfl fun r member active => ⟨r,member,rfl,active⟩) _⟩
      · refine ⟨_,(spec.taken.accounts good (fun ref there => ?_) rfl).extended _⟩
        obtain ⟨r,inside,rfl⟩ := mem_map.mp there
        obtain ⟨inside,of⟩ := mem_filter.mp inside
        obtain ⟨owner,account,sourceId⟩ := of_decide_eq_true (Bool.and_eq_true_iff.mp of).1
        exact ⟨r,inside,rfl,by unfold SourceRow.key; rw [owner,account,sourceId]; rfl⟩

theorem Trail.accounts {labels : List Label} (trail : Trail h true m labels m') (good : Good h m) :
    ∃ new, Accounts m.db m'.db (labels.map Label.key) new := by
  induction trail with
  | start => exact ⟨[],.calm _ rfl rfl fun r member active => ⟨r,member,rfl,active⟩⟩
  | @step labels label m₁ m₂ before change ih =>
    obtain ⟨new,accounts⟩ := ih
    have good₁ : Good h m₁ := ⟨before.sound good.sound,before.orderly good.orderly⟩
    obtain ⟨one,accounts₁⟩ := change.accounts good₁
    refine ⟨new ++ one,?_,?_,fun n member ref there => ?_,accounts₁.derivations.trans accounts.derivations,
      fun r member active retired => ?_⟩
    · rw [accounts₁.grown,accounts.grown,map_append,append_assoc]
    · rw [map_append,map_append]
      exact accounts.order.append accounts₁.order
    · rcases mem_append.mp member with old | late
      · obtain ⟨r,row,at_,same⟩ := accounts.group n old ref there
        obtain ⟨r',row',copy⟩ := change.row row
        exact ⟨r',row',copy.ref.trans at_,copy.key.trans same⟩
      · exact accounts₁.group n late ref there
    · by_cases earlier : Retired m₁.db r
      · obtain ⟨n,inside,names⟩ := accounts.taken r member active earlier
        exact ⟨n,mem_append_left _ inside,names⟩
      · unfold Retired at earlier
        push Not at earlier
        obtain ⟨r₁,row₁,same₁,active₁⟩ := earlier
        have retired₁ : Retired m₂.db r₁ := fun r' there at_ => retired r' there (at_.trans same₁)
        obtain ⟨n,inside,owner,named,derived⟩ := accounts₁.taken r₁ row₁ active₁ retired₁
        refine ⟨n,mem_append_right _ inside,?_,same₁ ▸ named,fun d there at_ => ?_⟩
        · obtain ⟨r₂,row₂,copy⟩ := before.row member
          rw [good₁.sound.unique row₁ row₂ (copy.ref.trans same₁.symm)] at copy
          exact owner.trans copy.owner
        · exact derived d (by rw [accounts.derivations]; exact there) (at_.trans same₁.symm)

/-- Where no source is dealt with twice, one entry names a revision. -/
theorem Accounts.once {keys : List (String × String × String)}
    {new : List ((String × String × String) × Invalidation)} (accounts : Accounts db db' keys new) (once : keys.Nodup)
    (unique : ∀ r ∈ db'.sources, ∀ r' ∈ db'.sources, r'.ref = r.ref → r' = r) : Accounted db db' := by
  refine ⟨new.map Prod.snd,accounts.grown,fun r member active retired => ?_⟩
  obtain ⟨n,inside,names⟩ := accounts.taken r member active retired
  refine ⟨n.2,mem_map_of_mem inside,names,fun e there named => ?_⟩
  obtain ⟨n',inside',rfl⟩ := mem_map.mp there
  obtain ⟨r₁,row₁,at₁,key₁⟩ := accounts.group n inside r.ref names.2.1
  obtain ⟨r₂,row₂,at₂,key₂⟩ := accounts.group n' inside' r.ref named
  have same : n'.1 = n.1 := by
    rw [← key₁,← key₂,unique r₁ row₁ r₂ row₂ (at₂.trans at₁.symm)]
  exact congrArg Prod.snd (inj_on_of_nodup_map (accounts.order.nodup once) inside' inside same)

/-- A step of a call that only records leaves every revision as current as it was. -/
theorem Trail.recorded {labels : List Label} {m m' : Machine} (trail : Trail h false m labels m') :
    (∃ new, m'.db.invalidations = m.db.invalidations ++ new) ∧
      ∀ r ∈ m.db.sources, ∃ r' ∈ m'.db.sources, r'.ref = r.ref ∧ r'.state = r.state := by
  induction trail with
  | start => exact ⟨⟨[],(append_nil _).symm⟩,fun r member => ⟨r,member,rfl,rfl⟩⟩
  | @step labels label m₁ m₂ before change ih =>
    obtain ⟨⟨new,grown⟩,stays⟩ := ih
    have one : (∃ new, m₂.db.invalidations = m₁.db.invalidations ++ new) ∧
        ∀ r ∈ m₁.db.sources, ∃ r' ∈ m₂.db.sources, r'.ref = r.ref ∧ r'.state = r.state := by
      cases change with
      | process | drew | created | filled | unlinked | finished =>
        exact ⟨⟨[],(append_nil _).symm⟩,fun r member => ⟨r,member,rfl,rfl⟩⟩
      | cleared ref =>
        refine ⟨⟨[],(append_nil _).symm⟩,fun r member => ⟨_,mem_map_of_mem member,?_⟩⟩
        split <;> exact ⟨rfl,rfl⟩
      | tables index change =>
        cases change with
        | recorded done =>
          refine ⟨?_,fun r member => ⟨r,by rw [done.sources]; exact member,rfl,rfl⟩⟩
          rcases done.invalidations with same | ⟨event,grown,_⟩
          · exact ⟨[],same.trans (append_nil _).symm⟩
          · exact ⟨[event],grown⟩
    obtain ⟨⟨new',grown'⟩,stays'⟩ := one
    refine ⟨⟨new ++ new',by rw [grown',grown,append_assoc]⟩,fun r member => ?_⟩
    obtain ⟨r₁,row₁,ref₁,state₁⟩ := stays r member
    obtain ⟨r₂,row₂,ref₂,state₂⟩ := stays' r₁ row₁
    exact ⟨r₂,row₂,ref₂.trans ref₁,state₂.trans state₁⟩

theorem Called.accounted {call : Call} (called : Called h call m m') (good : Good h m) : Accounted m.db m'.db:= by
  have good' := called.good good
  obtain ⟨withdrawing,ls,labelled,trail⟩ := called
  cases withdrawing with
  | true =>
    obtain ⟨new,accounts⟩ := trail.accounts good
    exact accounts.once labelled.once fun r member r' member' same => good'.sound.unique member member' same
  | false =>
    obtain ⟨⟨new,grown⟩,stays⟩ := trail.recorded
    refine ⟨new,grown,fun r member active retired => ?_⟩
    obtain ⟨r',there,same,state⟩ := stays r member
    exact absurd (state.trans active) (retired r' there same)

end Neurobro.Memory
