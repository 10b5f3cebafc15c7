import Neurobro.Data.Unwinding
import Neurobro.Learning.Queries

/-! What an actor is told depends on the others' private notes only where room runs out, where the store
breaks and where a reference is used for two notes. -/
namespace Neurobro.Learning

/-- The request, the message and the call a mutation came with. -/
def Mutation.call (m : Mutation) : String × String × Int × String := (m.actorId,m.requestRef,m.messageId,m.callRef)

def resultOf (mark : Mark) (idempotent : Bool) : MutationResult :=
  { state := if mark.body.isSome then .active else .retired, key := mark.key, scope := mark.scope, revision := mark.revision
    idempotent, note := if mark.body.isSome then some mark.note else none }

/-- References that may belong to notes the actor does not see. -/
def Veiled (actorId : String) (hidden : String → Prop) (s : State) : Prop :=
  ∀ mark ∈ s.marks, visibleTo actorId mark.toRetiredHead = false → hidden mark.mutationRef

section Plans
variable {h : Host} {site : Site} {limits : Limits} {s t next : State} {m : Mutation} {actorId : String} {f : Int → Int}
  {hidden : String → Prop}

theorem mutationResult_mark {entry : Entry} (fits : textFits entry.retired entry.text = true) (idempotent : Bool) :
    mutationResult entry idempotent = .ok (resultOf entry.mark idempotent) := by
  cases retired : entry.retired with
  | true => simp [mutationResult,resultOf,Entry.mark,retired,bind,Except.bind]
  | false =>
    rw [mutationResult,retired,noteView_mark fits retired]
    simp [resultOf,Entry.mark,retired,bind,Except.bind,Except.map]

theorem veiled_shown (veiled : Veiled actorId hidden s) (open_ : ¬hidden ref) :
    ∀ mark ∈ s.marks, mark.mutationRef = ref → visibleTo actorId mark.toRetiredHead = true := by
  intro mark member same
  by_contra unseen
  exact open_ (same ▸ veiled mark member (Bool.eq_false_iff.mpr unseen))

theorem veiled_change (fine : s.Fine) (veiled : Veiled actorId hidden s)
    (own : m.shownTo actorId = true ∨ hidden (mutationRef h site m))
    (placed : place h limits s (newEntry h site s m) = .ok next) : Veiled actorId hidden next := by
  intro mark member unseen
  rcases List.mem_cons.mp ((place_marks fine placed).mem_iff.mp member) with rfl | there
  · rcases own with shown | veiled_
    · have seen : visibleTo actorId (newEntry h site s m).mark.toRetiredHead = true := newEntry_shown.trans shown
      rw [seen] at unseen
      contradiction
    · exact veiled_
  · exact veiled mark (Keyed.mem_delete.mp there).1 unseen

/-- Past the checks there is only room to run out. -/
theorem plan_rest (absent : s.prior (mutationRef h site m) = none) (expected : unexpected m.expectedRevision (s.current m.slot) = false) :
    plan h site limits s m = .error .limit ∨ ∃ next, plan h site limits s m = .ok (.change (newEntry h site s m) next) := by
  cases planned : plan h site limits s m with
  | error code =>
    refine .inl ?_
    unfold plan at planned
    rw [absent] at planned
    have expected : unexpected m.expectedRevision (s.current (slotFor m.scope m.actorId m.key)) = false := expected
    simp only [expected,Bool.false_eq_true,if_false] at planned
    split at planned
    · exact planned.symm
    · split at planned
      · exact planned.symm
      · rw [place_error (map_error planned)]
  | ok p =>
    rcases plan_ok planned with ⟨prior,_,known,_⟩ | ⟨next,rfl,_⟩
    · rw [absent] at known
      contradiction
    · exact .inr ⟨next,rfl⟩

/-- Two alike stores make the same of a mutation the actor sees, unless room runs out. -/
theorem plan_alike (limits : Limits) (views : Views actorId s t f) (fine : s.Fine) (fine' : t.Fine) (actor : Telegram.userId m.actorId = true)
    (shown : m.shownTo actorId = true) (veiled : Veiled actorId hidden s) (veiled' : Veiled actorId hidden t)
    (open_ : ¬hidden (mutationRef h site m)) :
    (plan h site limits s m = .error .conflict ∧ plan h site limits t m = .error .conflict) ∨
    (∃ p p', plan h site limits s m = .ok (.repeated p) ∧ plan h site limits t m = .ok (.repeated p') ∧
      resultOf p'.mark true = resultOf p.mark true) ∨
    ((plan h site limits s m = .error .limit ∨ ∃ next, plan h site limits s m = .ok (.change (newEntry h site s m) next)) ∧
      (plan h site limits t m = .error .limit ∨ ∃ next, plan h site limits t m = .ok (.change (newEntry h site t m) next))) := by
  have priors := views.markOf fine fine' (veiled_shown veiled open_) (veiled_shown veiled' open_)
  rw [← prior_mark,← prior_mark] at priors
  cases known : s.prior (mutationRef h site m) with
  | some p =>
    rw [known] at priors
    obtain ⟨p',known',same⟩ := Option.map_eq_some_iff.mp priors
    have sameHash : p'.mutationHash = p.mutationHash := congrArg (·.mutationHash) same
    have sameSlot : p'.slot = p.slot := congrArg (·.slot) same
    by_cases differs : p.mutationHash ≠ mutationHash h m ∨ p.slot ≠ slotFor m.scope m.actorId m.key
    · refine .inl ⟨?_,?_⟩
      · simp only [plan,known,if_pos differs]
      · simp only [plan,known',sameHash,sameSlot,if_pos differs]
    · refine .inr (.inl ⟨p,p',?_,?_,?_⟩)
      · simp only [plan,known,if_neg differs]
      · simp only [plan,known',sameHash,sameSlot,if_neg differs]
      · rw [same]
        rfl
  | none =>
    rw [known] at priors
    have known' : t.prior (mutationRef h site m) = none := Option.map_eq_none_iff.mp priors
    have currents : (t.current m.slot).map Entry.mark = ((s.current m.slot).map Entry.mark).map (Mark.renumber f) := by
      rw [current_mark,current_mark]
      exact views.markAt fine fine' actor shown
    have same : unexpected m.expectedRevision (t.current m.slot) = unexpected m.expectedRevision (s.current m.slot) := by
      cases there : s.current m.slot with
      | none =>
        rw [there] at currents
        rw [Option.map_eq_none_iff.mp currents]
      | some e =>
        rw [there] at currents
        obtain ⟨e',there',is_⟩ := Option.map_eq_some_iff.mp currents
        have revision : e'.revision = e.revision := congrArg (·.revision) is_
        rw [there']
        cases m.expectedRevision <;> simp [unexpected,revision]
    cases expected : unexpected m.expectedRevision (s.current m.slot) with
    | true =>
      rw [expected] at same
      have first : unexpected m.expectedRevision (s.current (slotFor m.scope m.actorId m.key)) = true := expected
      have second : unexpected m.expectedRevision (t.current (slotFor m.scope m.actorId m.key)) = true := same
      refine .inl ⟨?_,?_⟩
      · simp only [plan,known,first,if_true]
      · simp only [plan,known',second,if_true]
    | false => exact .inr (.inr ⟨plan_rest known expected,plan_rest known' (same.trans expected)⟩)

end Plans

/-! The two runs. -/

def Op.mutation : Op → Option Mutation
  | .call (.mutate input _) => input
  | _ => none

/-- What an actor is shown: what the actor asks, what is done to notes of the team or the actor's own, and
openings and closings. -/
def Op.shownTo (actorId : String) : Op → Bool
  | .open_ _ _ => true
  | .call (.read asking _ _) => decide (asking = actorId)
  | .call (.list asking _ _) => decide (asking = actorId)
  | .call (.duplicates asking _ _ _ _) => decide (asking = actorId)
  | .call (.usage asking) => decide (asking = actorId)
  | .call (.mutate none _) => true
  | .call (.mutate (some m) _) => m.shownTo actorId
  | .call .close => true

/-- Nothing is promised once a store is broken, or once one of them alone has no room. -/
def stops (a b : Reply) : Prop := a = .error .storage ∨ b = .error .storage ∨ a ≠ b ∧ (a = .error .limit ∨ b = .error .limit)

/-- What the two runs may do: references of hidden notes are hidden ones, and no other note has one. -/
def Discreet (h : Host) (site : Site) (actorId : String) (hidden : String → Prop) (op : Op) : Prop :=
  ∀ m, op.mutation = some m → (m.shownTo actorId = false → hidden (mutationRef h site m)) ∧
    (m.shownTo actorId = true → ¬hidden (mutationRef h site m))

def SameHandles (one two : Option Handle) : Prop :=
  one = none ∧ two = none ∨ ∃ hd hd', one = some hd ∧ two = some hd' ∧ hd.limits = hd'.limits ∧ hd.closed = hd'.closed

structure Related (site : Site) (actorId : String) (hidden : String → Prop) (one two : System) : Prop where
  soundOne : Sound site one
  soundTwo : Sound site two
  stores : ∃ s t f, Stored site {} one.disk s ∧ Stored site {} two.disk t ∧ Views actorId s t f ∧
    Veiled actorId hidden s ∧ Veiled actorId hidden t
  handles : SameHandles one.handle two.handle

section Runs
variable {h : Host} {site : Site} {sys : System} {hd : Handle} {s : State} {m : Mutation} {actorId : String}
  {hidden : String → Prop}

/-- A live store has what is stored. -/
theorem live_state (sound : Sound site sys) (live : sys.Live hd) (stored : Stored site {} sys.disk s) : hd.state = s := by
  obtain ⟨clean,stored'⟩ := sound.live hd live
  have one := open_stored stored clean
  have two := open_stored (stored'.higher (limits_le _)) clean
  rw [one] at two
  exact (Except.ok.inj two).symm

/-- What a step an actor does not see leaves behind. -/
structure Unseen (site : Site) (actorId : String) (hidden : String → Prop) (sys sys' : System) (s : State) : Prop where
  stores : ∃ s', Stored site {} sys'.disk s' ∧ (seenBy actorId s').Perm (seenBy actorId s) ∧ Veiled actorId hidden s'
  handle : sys'.handle = sys.handle ∨
    ∃ hd hd', sys.handle = some hd ∧ sys'.handle = some hd' ∧ hd'.limits = hd.limits ∧ hd'.closed = hd.closed

theorem unseen_same (stored : Stored site {} sys.disk s) (veiled : Veiled actorId hidden s) : Unseen site actorId hidden sys sys s where
  stores := ⟨s,stored,List.Perm.refl _,veiled⟩
  handle := .inl rfl

theorem unseen_mutation (lawful : ∀ text, hex64 (h.sha256 text) = true) (sound : Sound site sys) (live : sys.Live hd)
    (stored : Stored site {} sys.disk s) (veiled : Veiled actorId hidden s) (away : m.shownTo actorId = false)
    (ref : hidden (mutationRef h site m)) (fate : Fate) :
    Unseen site actorId hidden sys (mutate h site hd sys.disk (some m) fate).2 s := by
  have is_ := live_state sound live stored
  have same : (⟨sys.disk,some hd⟩ : System) = sys := by rw [← live.1]
  rcases mutate_cases h site hd sys.disk (some m) fate with ⟨_,done,_⟩ | ⟨_,_,_,_,_,done⟩ | ⟨m',next,input,checked,planned,ended⟩
  · rw [done,same]
    exact unseen_same stored veiled
  · rw [done,same]
    exact unseen_same stored veiled
  · cases Option.some.inj input
    have stored' := (sound.live hd live).2
    have placed : place h hd.limits hd.state (newEntry h site hd.state m) = .ok next := by
      rcases plan_ok planned with ⟨_,no,_⟩ | ⟨_,other,_,_,_,_,placed⟩
      · contradiction
      · cases other
        exact placed
    have actor : Telegram.userId m.actorId = true := by
      simp only [Mutation.valid,Bool.and_eq_true] at checked
      exact checked.1.1.1.1.1.1
    have perm := seen_hidden stored'.fine actor away placed
    have veiled' := veiled_change stored'.fine (is_ ▸ veiled) (.inr ref) placed
    rw [is_] at perm
    have handle : ∀ hd' : Handle, hd'.limits = hd.limits → hd'.closed = hd.closed → ∀ disk,
        (∃ s', Stored site {} disk s' ∧ (seenBy actorId s').Perm (seenBy actorId s) ∧ Veiled actorId hidden s') →
        Unseen site actorId hidden sys ⟨disk,some hd'⟩ s :=
      fun hd' limits closed disk stores => ⟨stores,.inr ⟨hd,hd',live.1,rfl,limits,closed⟩⟩
    have kept : ∃ s', Stored site {} sys.disk s' ∧ (seenBy actorId s').Perm (seenBy actorId s) ∧ Veiled actorId hidden s' :=
      ⟨s,stored,List.Perm.refl _,veiled⟩
    rcases ended with done | done | ⟨small,done | done⟩
    · rw [done]
      exact handle { hd with broken := true } rfl rfl _ kept
    · rw [done]
      obtain ⟨file,fine,recorded,room,bytes⟩ := stored
      exact handle { hd with broken := true } rfl rfl _ ⟨s,⟨file,fine,recorded,room,bytes⟩,List.Perm.refl _,veiled⟩
    · rw [done]
      exact handle { hd with broken := true } rfl rfl _
        ⟨next,(stored_change lawful stored' checked planned small).higher (limits_le _),perm,veiled'⟩
    · rw [done]
      exact handle { hd with state := next } rfl rfl _
        ⟨next,(stored_change lawful stored' checked planned small).higher (limits_le _),perm,veiled'⟩

theorem unseen_step (lawful : ∀ text, hex64 (h.sha256 text) = true) (sound : Sound site sys) (stored : Stored site {} sys.disk s)
    (veiled : Veiled actorId hidden s) (discreet : Discreet h site actorId hidden op) (away : op.shownTo actorId = false) :
    Unseen site actorId hidden sys (step h site sys op).2 s := by
  cases op with
  | open_ _ _ => contradiction
  | call call =>
    rw [step]
    split
    · exact unseen_same stored veiled
    · rename_i hd is_
      have same : (⟨sys.disk,some hd⟩ : System) = sys := by rw [← is_]
      rcases call_cases h site hd sys.disk call with ⟨input,fate,rfl,open_,well,done⟩ | done | ⟨rfl,_⟩
      · rw [done]
        cases input with
        | none => contradiction
        | some m => exact unseen_mutation lawful sound ⟨is_,open_,well⟩ stored veiled away ((discreet m rfl).1 away) fate
      · rw [done,same]
        exact unseen_same stored veiled
      · contradiction

theorem sameHandles_left {one one' two : Option Handle} (same : SameHandles one two)
    (kept : one' = one ∨ ∃ hd hd', one = some hd ∧ one' = some hd' ∧ hd'.limits = hd.limits ∧ hd'.closed = hd.closed) :
    SameHandles one' two := by
  rcases kept with rfl | ⟨hd,hd',rfl,rfl,limits,closed⟩
  · exact same
  · rcases same with ⟨no,_⟩ | ⟨hd₁,hd₂,is_,there,limits',closed'⟩
    · contradiction
    · cases Option.some.inj is_
      exact .inr ⟨hd',hd₂,rfl,there,limits.trans limits',closed.trans closed'⟩

theorem SameHandles.symm {one two : Option Handle} (same : SameHandles one two) : SameHandles two one := by
  rcases same with ⟨first,second⟩ | ⟨hd,hd',first,second,limits,closed⟩
  · exact .inl ⟨second,first⟩
  · exact .inr ⟨hd',hd,second,first,limits.symm,closed.symm⟩

theorem related_left (lawful : ∀ text, hex64 (h.sha256 text) = true) {one two : System}
    (related : Related site actorId hidden one two) (discreet : Discreet h site actorId hidden op)
    (away : op.shownTo actorId = false) : Related site actorId hidden (step h site one op).2 two := by
  obtain ⟨s,t,f,stored,stored',views,veiled,veiled'⟩ := related.stores
  obtain ⟨⟨s',now,perm,veiledNow⟩,handle⟩ := unseen_step lawful related.soundOne stored veiled discreet away
  exact ⟨sound_step lawful related.soundOne op,related.soundTwo,⟨s',t,f,now,stored',views.left perm,veiledNow,veiled'⟩,
    sameHandles_left related.handles handle⟩

theorem related_right (lawful : ∀ text, hex64 (h.sha256 text) = true) {one two : System}
    (related : Related site actorId hidden one two) (discreet : Discreet h site actorId hidden op)
    (away : op.shownTo actorId = false) : Related site actorId hidden one (step h site two op).2 := by
  obtain ⟨s,t,f,stored,stored',views,veiled,veiled'⟩ := related.stores
  obtain ⟨⟨t',now,perm,veiledNow⟩,handle⟩ := unseen_step lawful related.soundTwo stored' veiled' discreet away
  exact ⟨related.soundOne,sound_step lawful related.soundTwo op,⟨s,t',f,stored,now,views.right perm,veiled,veiledNow⟩,
    (sameHandles_left related.handles.symm handle).symm⟩

/-- What a mutation comes to, by its reply. -/
theorem mutate_summary (lawful : ∀ text, hex64 (h.sha256 text) = true) (sound : Sound site sys) (live : sys.Live hd)
    (checked : m.valid = true) (fate : Fate) :
    (mutate h site hd sys.disk (some m) fate).1 = .error .storage ∨
    (mutate h site hd sys.disk (some m) fate = (.error .limit,sys) ∧ (plan h site hd.limits hd.state m = .error .limit ∨
      ∃ next, plan h site hd.limits hd.state m = .ok (.change (newEntry h site hd.state m) next))) ∨
    (mutate h site hd sys.disk (some m) fate = (.error .conflict,sys) ∧ plan h site hd.limits hd.state m = .error .conflict) ∨
    (∃ p, plan h site hd.limits hd.state m = .ok (.repeated p) ∧
      mutate h site hd sys.disk (some m) fate = (.ok (.mutated (resultOf p.mark true)),sys)) ∨
    (∃ next, place h hd.limits hd.state (newEntry h site hd.state m) = .ok next ∧
      plan h site hd.limits hd.state m = .ok (.change (newEntry h site hd.state m) next) ∧
      mutate h site hd sys.disk (some m) fate = (.ok (.mutated (resultOf (newEntry h site hd.state m).mark false)),
        ⟨sys.disk.put (next.envelopeValue site) m,some { hd with state := next }⟩) ∧
      Stored site hd.limits (sys.disk.put (next.envelopeValue site) m) next) := by
  have same : (⟨sys.disk,some hd⟩ : System) = sys := by rw [← live.1]
  have stored := (sound.live hd live).2
  rcases mutate_cases h site hd sys.disk (some m) fate with ⟨code,done,why⟩ | ⟨m',p,input,_,planned,done⟩ | ⟨m',next,input,_,planned,ended⟩
  · rw [same] at done
    rcases why with refused | ⟨m',input,_,refused | ⟨rfl,next,planned⟩⟩
    · rw [mutationCopy,if_pos checked] at refused
      contradiction
    · cases Option.some.inj input
      rcases plan_error refused with rfl | rfl
      · exact .inr (.inr (.inl ⟨done,refused⟩))
      · exact .inr (.inl ⟨done,.inl refused⟩)
    · cases Option.some.inj input
      exact .inr (.inl ⟨done,.inr ⟨next,planned⟩⟩)
  · cases Option.some.inj input
    rcases plan_ok planned with ⟨_,other,known,_⟩ | ⟨_,no,_⟩
    · cases other
      rw [same,mutationResult_mark (prior_fits stored.fine known)] at done
      exact .inr (.inr (.inr (.inl ⟨p,planned,done⟩)))
    · contradiction
  · cases Option.some.inj input
    rcases ended with done | done | ⟨small,done | done⟩
    · exact .inl (by rw [done])
    · exact .inl (by rw [done])
    · exact .inl (by rw [done])
    · rcases plan_ok planned with ⟨_,no,_⟩ | ⟨_,other,_,_,numbers,revisions,placed⟩
      · contradiction
      · cases other
        have valid := newEntry_valid lawful stored.fine checked numbers revisions
        simp only [Entry.valid,Bool.and_eq_true] at valid
        rw [mutationResult_mark valid.1.1] at done
        exact .inr (.inr (.inr (.inr ⟨next,placed,planned,done,stored_change lawful stored checked planned small⟩)))

/-- The same mutation in both runs. -/
theorem related_mutation (lawful : ∀ text, hex64 (h.sha256 text) = true) {one two : System}
    (related : Related site actorId hidden one two) (live : one.Live hd) (live' : two.Live hd')
    (limits : hd.limits = hd'.limits) (checked : m.valid = true) (shown : m.shownTo actorId = true)
    (open_ : ¬hidden (mutationRef h site m)) (fate : Fate) :
    (mutate h site hd one.disk (some m) fate).1 = (mutate h site hd' two.disk (some m) fate).1 ∧
        Related site actorId hidden (mutate h site hd one.disk (some m) fate).2 (mutate h site hd' two.disk (some m) fate).2 ∨
      stops (mutate h site hd one.disk (some m) fate).1 (mutate h site hd' two.disk (some m) fate).1 := by
  obtain ⟨s,t,f,stored,stored',views,veiled,veiled'⟩ := related.stores
  have is_ := live_state related.soundOne live stored
  have is_' := live_state related.soundTwo live' stored'
  have actor : Telegram.userId m.actorId = true := by
    simp only [Mutation.valid,Bool.and_eq_true] at checked
    exact checked.1.1.1.1.1.1
  have alike := plan_alike hd.limits views stored.fine stored'.fine actor shown veiled veiled' open_
  have one' := mutate_summary lawful related.soundOne live checked fate
  have two' := mutate_summary lawful related.soundTwo live' checked fate
  rw [is_] at one'
  rw [is_',← limits] at two'
  have away : ∀ {a b : Reply}, a ≠ b → a = .error .limit ∨ b = .error .limit → stops a b := fun differ room => .inr (.inr ⟨differ,room⟩)
  rcases one' with broke | ⟨done,_⟩ | ⟨done,planned⟩ | ⟨p,planned,done⟩ | ⟨next,placed,planned,done,now⟩
  · exact .inr (.inl broke)
  · rcases two' with broke | ⟨done',_⟩ | ⟨done',_⟩ | ⟨p',_,done'⟩ | ⟨next',_,_,done',_⟩
    · exact .inr (.inr (.inl broke))
    · rw [done,done']
      exact .inl ⟨rfl,related⟩
    · rw [done,done']
      exact .inr (away (by simp) (.inl rfl))
    · rw [done,done']
      exact .inr (away (by simp) (.inl rfl))
    · rw [done,done']
      exact .inr (away (by simp) (.inl rfl))
  · rcases two' with broke | ⟨done',_⟩ | ⟨done',_⟩ | ⟨p',planned',_⟩ | ⟨next',_,planned',_⟩
    · exact .inr (.inr (.inl broke))
    · rw [done,done']
      exact .inr (away (by simp) (.inr rfl))
    · rw [done,done']
      exact .inl ⟨rfl,related⟩
    · simp [planned,planned'] at alike
    · simp [planned,planned'] at alike
  · rcases two' with broke | ⟨done',_⟩ | ⟨_,planned'⟩ | ⟨p',planned',done'⟩ | ⟨next',_,planned',_⟩
    · exact .inr (.inr (.inl broke))
    · rw [done,done']
      exact .inr (away (by simp) (.inr rfl))
    · simp [planned,planned'] at alike
    · have same : resultOf p'.mark true = resultOf p.mark true := by simpa [planned,planned'] using alike
      rw [done,done',same]
      exact .inl ⟨rfl,related⟩
    · simp [planned,planned'] at alike
  · rcases two' with broke | ⟨done',_⟩ | ⟨_,planned'⟩ | ⟨p',planned',_⟩ | ⟨next',placed',_,done',now'⟩
    · exact .inr (.inr (.inl broke))
    · rw [done,done']
      exact .inr (away (by simp) (.inr rfl))
    · simp [planned,planned'] at alike
    · simp [planned,planned'] at alike
    · have same : resultOf (newEntry h site t m).mark false = resultOf (newEntry h site s m).mark false := by
        rw [newEntry_renumber views stored.fine stored'.fine actor shown]
        rfl
      have soundOne := sound_step lawful related.soundOne (.call (.mutate (some m) fate))
      have soundTwo := sound_step lawful related.soundTwo (.call (.mutate (some m) fate))
      have called : (step h site one (.call (.mutate (some m) fate))) = mutate h site hd one.disk (some m) fate := live_call live m fate
      have called' : (step h site two (.call (.mutate (some m) fate))) = mutate h site hd' two.disk (some m) fate := live_call live' m fate
      rw [called] at soundOne
      rw [called'] at soundTwo
      refine .inl ⟨by rw [done,done',same],soundOne,soundTwo,?_,?_⟩
      · rw [done,done']
        exact ⟨next,next',nextNumber s t f,now.higher (limits_le _),now'.higher (limits_le _),
          views.change stored.fine stored'.fine actor shown placed placed',
          veiled_change stored.fine veiled (.inl shown) placed,veiled_change stored'.fine veiled' (.inl shown) placed'⟩
      · rw [done,done']
        refine .inr ⟨_,_,rfl,rfl,rfl,?_⟩
        exact live.2.1.trans live'.2.1.symm

theorem open_error {limits : Limits} (stored : Stored site {} sys.disk s)
    (refused : openStandingLearningStore site limits faulty sys.disk = .error code) : code = .storage := by
  unfold openStandingLearningStore at refused
  split at refused
  · exact (Except.error.inj refused).symm
  · rcases stored.file with there | ⟨absent,_⟩
    · rw [there] at refused
      rcases restore_envelope stored.fine site limits with ⟨same,_⟩ | ⟨same,_⟩
      · simp only [same] at refused
        contradiction
      · simp only [same] at refused
        exact (Except.error.inj refused).symm
    · rw [absent] at refused
      contradiction

/-- A question changes nothing. -/
theorem related_query {one two : System} (related : Related site actorId hidden one two) (is_ : one.handle = some hd)
    (is_' : two.handle = some hd') {call : Call} {reply reply' : Reply}
    (done : hd.call h site one.disk call = (reply,⟨one.disk,some hd⟩))
    (done' : hd'.call h site two.disk call = (reply',⟨two.disk,some hd'⟩)) (same : reply = reply' ∨ stops reply reply') :
    (step h site one (.call call)).1 = (step h site two (.call call)).1 ∧
        Related site actorId hidden (step h site one (.call call)).2 (step h site two (.call call)).2 ∨
      stops (step h site one (.call call)).1 (step h site two (.call call)).1 := by
  have called : step h site one (.call call) = hd.call h site one.disk call := by simp only [step,is_]
  have called' : step h site two (.call call) = hd'.call h site two.disk call := by simp only [step,is_']
  have unchanged : (⟨one.disk,some hd⟩ : System) = one := by rw [← is_]
  have unchanged' : (⟨two.disk,some hd'⟩ : System) = two := by rw [← is_']
  rw [called,called',done,done',unchanged,unchanged']
  exact same.imp_left fun same => ⟨same,related⟩

/-- The same call the actor sees in both runs. -/
theorem related_call (lawful : ∀ text, hex64 (h.sha256 text) = true) {one two : System}
    (related : Related site actorId hidden one two) {call : Call} (discreet : Discreet h site actorId hidden (.call call))
    (shown : (Op.call call).shownTo actorId = true) :
    (step h site one (.call call)).1 = (step h site two (.call call)).1 ∧
        Related site actorId hidden (step h site one (.call call)).2 (step h site two (.call call)).2 ∨
      stops (step h site one (.call call)).1 (step h site two (.call call)).1 := by
  rcases related.handles with ⟨none_,none_'⟩ | ⟨hd,hd',is_,is_',limits,closedSame⟩
  · simp only [step,none_,none_']
    exact .inl ⟨trivial,related⟩
  have unchanged : (⟨one.disk,some hd⟩ : System) = one := by rw [← is_]
  have unchanged' : (⟨two.disk,some hd'⟩ : System) = two := by rw [← is_']
  by_cases closed : hd.closed = true
  · have closed' : hd'.closed = true := closedSame ▸ closed
    have done : hd.call h site one.disk call = (closedReply call,⟨one.disk,some hd⟩) := by simp only [Handle.call,closed,if_true]
    have done' : hd'.call h site two.disk call = (closedReply call,⟨two.disk,some hd'⟩) := by simp only [Handle.call,closed',if_true]
    exact related_query related is_ is_' done done' (.inl rfl)
  have open_ : hd.closed = false := Bool.eq_false_iff.mpr closed
  have open_' : hd'.closed = false := closedSame ▸ open_
  by_cases isClose : call = .close
  · cases isClose
    have soundOne := sound_step lawful related.soundOne (.call .close)
    have soundTwo := sound_step lawful related.soundTwo (.call .close)
    have done : step h site one (.call .close) = (.ok .closed,⟨one.disk,some { hd with closed := true, state := {} }⟩) := by
      simp only [step,is_,Handle.call,open_,Bool.false_eq_true,if_false]
    have done' : step h site two (.call .close) = (.ok .closed,⟨two.disk,some { hd' with closed := true, state := {} }⟩) := by
      simp only [step,is_',Handle.call,open_',Bool.false_eq_true,if_false]
    rw [done] at soundOne
    rw [done'] at soundTwo
    rw [done,done']
    exact .inl ⟨rfl,soundOne,soundTwo,related.stores,.inr ⟨_,_,rfl,rfl,limits,rfl⟩⟩
  have refusal : ∀ {hd : Handle} {disk : Disk}, hd.closed = false → hd.broken = true → (hd.call h site disk call).1 = .error .storage := by
    intro hd disk open_ broken
    cases call <;> first | exact absurd rfl isClose | simp [Handle.call,open_,broken]
  have called : step h site one (.call call) = hd.call h site one.disk call := by simp only [step,is_]
  have called' : step h site two (.call call) = hd'.call h site two.disk call := by simp only [step,is_']
  by_cases broken : hd.broken = true
  · rw [called,refusal open_ broken]
    exact .inr (.inl rfl)
  by_cases broken' : hd'.broken = true
  · rw [called',refusal open_' broken']
    exact .inr (.inr (.inl rfl))
  have live : one.Live hd := ⟨is_,open_,Bool.eq_false_iff.mpr broken⟩
  have live' : two.Live hd' := ⟨is_',open_',Bool.eq_false_iff.mpr broken'⟩
  obtain ⟨s,t,f,stored,stored',views,_,_⟩ := related.stores
  have state := live_state related.soundOne live stored
  have state' := live_state related.soundTwo live' stored'
  cases call with
  | close => exact absurd rfl isClose
  | read asking scope key =>
    cases of_decide_eq_true shown
    refine related_query related is_ is_' (by simp [Handle.call,open_,broken]; rfl) (by simp [Handle.call,open_',broken']; rfl) (.inl ?_)
    rw [state,state',views.read stored.fine stored'.fine]
  | list asking query limit =>
    cases of_decide_eq_true shown
    refine related_query related is_ is_' (by simp [Handle.call,open_,broken]; rfl) (by simp [Handle.call,open_',broken']; rfl) (.inl ?_)
    rw [state,state',views.list stored.fine stored'.fine]
  | duplicates asking scope kind text limit =>
    cases of_decide_eq_true shown
    refine related_query related is_ is_' (by simp [Handle.call,open_,broken]; rfl) (by simp [Handle.call,open_',broken']; rfl) (.inl ?_)
    rw [state,state',views.duplicates stored.fine stored'.fine]
  | usage asking =>
    cases of_decide_eq_true shown
    refine related_query related is_ is_' (by simp [Handle.call,open_,broken]; rfl) (by simp [Handle.call,open_',broken']; rfl) (.inl ?_)
    rw [state,state',limits,views.usage stored.fine stored'.fine]
  | mutate input fate =>
    have same : step h site one (.call (.mutate input fate)) = mutate h site hd one.disk input fate := by
      simp [step,is_,Handle.call,open_,broken]
    have same' : step h site two (.call (.mutate input fate)) = mutate h site hd' two.disk input fate := by
      simp [step,is_',Handle.call,open_',broken']
    cases copied : mutationCopy input with
    | error code =>
      have done : mutate h site hd one.disk input fate = (.error code,one) := by simp only [mutate,copied,unchanged]
      have done' : mutate h site hd' two.disk input fate = (.error code,two) := by simp only [mutate,copied,unchanged']
      rw [same,same',done,done']
      exact .inl ⟨rfl,related⟩
    | ok m =>
      obtain ⟨rfl,checked⟩ := mutationCopy_ok copied
      rw [same,same']
      exact related_mutation lawful related live live' limits checked shown ((discreet m rfl).2 shown) fate

/-- The same operation the actor sees in both runs. -/
theorem related_both (lawful : ∀ text, hex64 (h.sha256 text) = true) {one two : System}
    (related : Related site actorId hidden one two) (discreet : Discreet h site actorId hidden op)
    (shown : op.shownTo actorId = true) : (step h site one op).1 = (step h site two op).1 ∧
        Related site actorId hidden (step h site one op).2 (step h site two op).2 ∨ stops (step h site one op).1 (step h site two op).1 := by
  cases op with
  | call call => exact related_call lawful related discreet shown
  | open_ limits faulty =>
    have soundOne := sound_step lawful related.soundOne (.open_ limits faulty)
    have soundTwo := sound_step lawful related.soundTwo (.open_ limits faulty)
    obtain ⟨s,t,f,stored,stored',views,veiled,veiled'⟩ := related.stores
    cases opened : openStandingLearningStore site limits faulty one.disk with
    | error code =>
      cases open_error stored opened
      exact .inr (.inl (by simp only [step,opened]))
    | ok found =>
      cases opened' : openStandingLearningStore site limits faulty two.disk with
      | error code =>
        cases open_error stored' opened'
        exact .inr (.inr (.inl (by simp only [step,opened'])))
      | ok found' =>
        simp only [step,opened,opened'] at soundOne soundTwo ⊢
        exact .inl ⟨trivial,soundOne,soundTwo,⟨s,t,f,stored,stored',views,veiled,veiled'⟩,.inr ⟨_,_,rfl,rfl,rfl,rfl⟩⟩

end Runs

/-- Private notes do not leak: what an actor is told, and what is done to the notes of the team, is the same in any two
runs that differ in the others' private notes, until a store breaks or one of them alone refuses for want of room.
No two calls have one digest, and a call that was used for a private note is not used for one of the team. -/
theorem private_notes_unseen (h : Host) (lawful : ∀ text, hex64 (h.sha256 text) = true) (site : Site) (actorId : String)
    (one two : List Op) (same : one.filter (Op.shownTo actorId) = two.filter (Op.shownTo actorId))
    (apart : ∀ m ∈ (one ++ two).filterMap Op.mutation, ∀ n ∈ (one ++ two).filterMap Op.mutation,
      mutationRef h site m = mutationRef h site n → m.call = n.call)
    (once : ∀ m ∈ (one ++ two).filterMap Op.mutation, ∀ n ∈ (one ++ two).filterMap Op.mutation,
      m.scope = .team → n.shownTo actorId = false → m.call ≠ n.call) :
    Alike stops (told (step h site) (Op.shownTo actorId) {} one) (told (step h site) (Op.shownTo actorId) {} two) := by
  let hidden : String → Prop := fun ref =>
    ∃ n ∈ (one ++ two).filterMap Op.mutation, n.shownTo actorId = false ∧ mutationRef h site n = ref
  have discreet : ∀ op ∈ one ++ two, Discreet h site actorId hidden op := by
    intro op member m is_
    have there : m ∈ (one ++ two).filterMap Op.mutation := List.mem_filterMap.mpr ⟨op,member,is_⟩
    refine ⟨fun away => ⟨m,there,away,rfl⟩,?_⟩
    rintro shown ⟨n,there',away,ref⟩
    have call := apart n there' m there ref
    cases scope : m.scope with
    | team => exact once m there n there' scope away call.symm
    | self =>
      have mine : m.actorId = actorId := by simpa [Mutation.shownTo,slotShown,scope] using shown
      have theirs : n.actorId = m.actorId := congrArg Prod.fst call
      simp [Mutation.shownTo,slotShown,theirs,mine] at away
  have start : Related site actorId hidden {} {} := by
    have sound : Sound site {} := sound_after lawful site []
    refine ⟨sound,sound,?_,.inl ⟨rfl,rfl⟩⟩
    have stored : Stored site {} {} {} := ⟨.inr ⟨rfl,rfl⟩,fine_empty,⟨fun _ => rfl,fun _ no => (by cases no),fun _ no => (by cases no)⟩,
      Nat.zero_le _,fun _ no => by cases no⟩
    exact ⟨{},{},id,stored,stored,⟨fun _ no => (by cases no),List.Perm.refl _⟩,fun _ no => (by cases no),fun _ no => (by cases no)⟩
  have unwinds : Unwinds (step h site) (Op.shownTo actorId) (Discreet h site actorId hidden) stops (Related site actorId hidden) :=
    ⟨fun related good away => related_left lawful related good away,fun related good away => related_right lawful related good away,
      fun related good shown => related_both lawful related good shown⟩
  exact unwinds.alike start same (fun op member => discreet op (List.mem_append_left _ member))
    fun op member => discreet op (List.mem_append_right _ member)

/-! A second actor's notes. -/

def othersNote : Mutation := { plainNote with actorId := "43", text := some "Be loud." }

/-- The same call once more, for a note of the team. -/
def teamNote : Mutation := { othersNote with scope := .team, text := some "Be kind." }

/-- The digests of the texts of these notes. -/
def pairHost : Host :=
  { plainHost with sha256 := fun text =>
      if text = "[\"DecadansNeurobro/standing-learning-store/v1\",\"team\",\x7b\"accountId\":\"1000\",\"peerId\":\"-100200\"\x7d,\"43\",\"req-1\",7,\"call-1\"]"
      then "70a435f252803a1b3d634243ae6392678c44622f63050140e7084c9d5ebc7252"
      else if text = "[\"save\",\"self\",\"tone\",null,\"preference\",\"Be loud.\"]"
      then "5ad3365b6f1899ff328e98d94df8e66fd2c5fcc4fdbfb3109f313e434b5ca0db"
      else if text = "[\"save\",\"team\",\"tone\",null,\"preference\",\"Be kind.\"]"
      then "42a59727da3621df81fe95e566bff0495f23abd2ae5e1471b46ac95dd0835a68"
      else plainHost.sha256 text }

theorem pairHost_digests : ∀ text, hex64 (pairHost.sha256 text) = true := by
  intro text
  simp only [pairHost]
  split
  · exact (Telegram.hexRef_ofList _ _ _).trans (by decide +kernel)
  · split
    · exact (Telegram.hexRef_ofList _ _ _).trans (by decide +kernel)
    · split
      · exact (Telegram.hexRef_ofList _ _ _).trans (by decide +kernel)
      · exact plainHost_digests text

def save (m : Mutation) (fate : Fate) : Op := .call (.mutate (some m) fate)

def asked : Op := .call (.usage "42")

theorem private_notes_unseen_plain :
    Alike stops (told (step pairHost plainSite) (Op.shownTo "42") {} [.open_ {} false,save othersNote .fine,save plainNote .fine,asked])
      (told (step pairHost plainSite) (Op.shownTo "42") {} [.open_ {} false,save plainNote .fine,asked]) :=
  private_notes_unseen pairHost pairHost_digests plainSite "42" _ _ rfl (by decide +kernel) (by decide +kernel)

/-- The last reply of a run, to the first actor. -/
def lastTold (ops : List Op) : Option Reply := (told (step pairHost plainSite) (Op.shownTo "42") {} ops).getLast?

theorem narrow_entries : 1 ≤ 1 ∧ 1 ≤ defaultMaxEntries := by decide

theorem narrow_bytes : 1024 ≤ defaultMaxPlain ∧ defaultMaxPlain ≤ defaultMaxPlain := by decide

def narrow : Limits := ⟨1,defaultMaxPlain,narrow_entries,narrow_bytes⟩

def readBack (scope : Scope) : Op := .call (.read "42" scope "tone")

/-- Two runs that differ in another's private note only, and a read of the first actor that differs: after a call was
used twice, after one of them alone had no room, and after one of them broke. -/
theorem private_notes_seen :
    ([.open_ {} false,save othersNote .fine,save teamNote .fine,readBack .team].filter (Op.shownTo "42") =
        [.open_ {} false,save teamNote .fine,readBack .team] ∧
      lastTold [.open_ {} false,save othersNote .fine,save teamNote .fine,readBack .team] ≠
        lastTold [.open_ {} false,save teamNote .fine,readBack .team]) ∧
    ([.open_ narrow false,save othersNote .fine,save plainNote .fine,readBack .self].filter (Op.shownTo "42") =
        [.open_ narrow false,save plainNote .fine,readBack .self] ∧
      lastTold [.open_ narrow false,save othersNote .fine,save plainNote .fine,readBack .self] ≠
        lastTold [.open_ narrow false,save plainNote .fine,readBack .self]) ∧
    ([.open_ {} false,save othersNote .guarded,readBack .self].filter (Op.shownTo "42") = [.open_ {} false,readBack .self] ∧
      lastTold [.open_ {} false,save othersNote .guarded,readBack .self] ≠ lastTold [.open_ {} false,readBack .self]) :=
  ⟨⟨rfl,by decide +kernel⟩,⟨rfl,by decide +kernel⟩,⟨rfl,by decide +kernel⟩⟩

end Neurobro.Learning
