import Neurobro.Coop.Logic

/-! From safe bodies to runs. A world is governed when every live fiber is safe
against the others; steps keep it governed, so each commit and each call of any run
obeys the rules, and facts about runs follow from facts about single moves. -/
namespace Neurobro.Coop

open List

variable {S : Signature} {Op : Type}

/-- The process is safe whenever the others let it go on. -/
def Later (R : Rules S) (i : Nat) (p : Proc S) (c : Core S) : Prop :=
  ∀ c', Others R i c c' → Safe R i p c'

def Waiting (R : Rules S) (i : Nat) : Blocked S → Core S → Prop
  | .call q next, c => ∀ c', Others R i c c' → ∀ r, Safe R i (next r) (c'.reply i q r)
  | .pause next, c => ∀ c', Others R i c c' → Safe R i next c'
  | .join _ next, c => ∀ c', Others R i c c' → ∀ r, Safe R i (next r) c'

theorem Later.others (h : Later R i p c) (others : Others R i c c') : Later R i p c':= fun c'' more => h c'' (others.trans more)

theorem Waiting.others {R : Rules S} {i : Nat} {b : Blocked S} {c c' : Core S}
    (h : Waiting R i b c) (others : Others R i c c') : Waiting R i b c' := by
  cases b with
  | call q next => exact fun c'' more => h c'' (others.trans more)
  | pause next => exact fun c'' more => h c'' (others.trans more)
  | join p next => exact fun c'' more => h c'' (others.trans more)

theorem Waiting.tighten (tight : R.Tightens R') (free : ¬R'.taken i) (h : Waiting R i b c) : Waiting R' i b c:= by
  cases b with
  | call q next => exact fun c' others r => (h c' (tight.others others) r).tighten tight free
  | pause next => exact fun c' others => (h c' (tight.others others)).tighten tight free
  | join p next => exact fun c' others r => (h c' (tight.others others) r).tighten tight free

def Segment (R : Rules S) (c : Core S) : List (Nat × Proc S) → Prop
  | [] => True
  | (i,p) :: rest => Safe R i p c ∧ ∀ q ∈ rest, Later R q.1 q.2 c

/-- One change of the core in a run, with the condition its commands meet. -/
inductive Change (R : Rules S) (ok : S.Cmd → Core S → Prop) : Core S → Core S → Prop where
  | act {c : Core S} (i : Nat) (cmd : S.Cmd) :
      R.inv c → R.mayAct i cmd c → ok cmd c → Change R ok c (c.act i cmd)
  | call {c : Core S} (i : Nat) (q : S.Call) :
      R.inv c → R.mayCall i q c → Change R ok c (c.call i q)
  | reply {c : Core S} (i : Nat) (q : S.Call) (r : S.Reply q) :
      R.inv c → Change R ok c (c.reply i q r)
  | shock {c : Core S} (x : S.Shock) : R.inv c → Change R ok c (c.shock x)
  | crash {c : Core S} : R.inv c → Change R ok c c.crash

def Changes (R : Rules S) (ok : S.Cmd → Core S → Prop) : Core S → Core S → Prop :=
  Relation.ReflTransGen (Change R ok)

namespace World

def fibers (w : World S) : List Nat := w.stack.map Prod.fst ++ w.parked.map Prod.fst

/-- Every live fiber is safe, and no two share a number. -/
structure Governed (R : Rules S) (w : World S) : Prop where
  inv : R.inv w.core
  distinct : w.fibers.Nodup
  bound : ∀ i ∈ w.fibers, i < w.next
  taken : ∀ i, R.taken i → i < w.next
  segment : Segment R w.core w.stack
  waiting : ∀ p ∈ w.parked, Waiting R p.1 p.2 w.core

theorem mem_of_find (h : find fiber l = some a) : (fiber,a) ∈ l:= by
  induction l with
  | nil => contradiction
  | cons p rest ih =>
    obtain ⟨i,b⟩ := p
    unfold find at h
    split at h
    · rename_i same
      cases Option.some.inj h
      exact mem_cons.mpr (.inl (by rw [same]))
    · exact mem_cons_of_mem _ (ih h)

theorem fibers_remove {w : World S} (distinct : w.fibers.Nodup) (stack : w.stack = []) :
    (i :: (remove i w.parked).map Prod.fst).Nodup := by
  have parked : (w.parked.map Prod.fst).Nodup := by simpa [fibers,stack] using distinct
  refine nodup_cons.mpr ⟨?_,?_⟩
  · simp [remove]
  · exact parked.sublist (filter_sublist.map _)

theorem mem_remove (h : p ∈ remove i l) : p ∈ l ∧ p.1 ≠ i:= by simpa [remove] using h

theorem initial_governed {state : S.State} (inv : R.inv ⟨state,[]⟩)
    (untaken : ∀ i, ¬R.taken i) : (World.initial state).Governed R :=
  ⟨inv,by simp [World.initial,fibers],by simp [World.initial,fibers],
    fun i taken => (untaken i taken).elim,trivial,by simp [World.initial]⟩

section steps

variable {R : Rules S} {w w' : World S}

theorem Governed.mayAct (g : w.Governed R) {next : S.Result cmd → Proc S}
    {rest : List (Nat × Proc S)} (top : w.stack = (i,.act cmd next) :: rest) :
    R.mayAct i cmd w.core := by
  have h := g.segment
  rw [top] at h
  exact h.1.1

theorem Governed.mayCall (g : w.Governed R) {next : S.Reply q → Proc S}
    {rest : List (Nat × Proc S)} (top : w.stack = (i,.wait q next) :: rest) :
    R.mayCall i q w.core := by
  have h := g.segment
  rw [top] at h
  exact h.1.1

theorem Governed.about (g : w.Governed R) (about : w.about = some (i,cmd)) : R.mayAct i cmd w.core:= by
  unfold World.about at about
  split at about
  · rename_i top
    cases Option.some.inj about
    exact g.mayAct top
  · contradiction

theorem Governed.calling (g : w.Governed R) (calling : w.calling = some (i,q)) : R.mayCall i q w.core:= by
  unfold World.calling at calling
  split at calling
  · rename_i top
    cases Option.some.inj calling
    exact g.mayCall top
  · contradiction

theorem other_move (move : Move R (some i) c c') (apart : j ≠ i) : Others R j c c':= .single ⟨some i,by simpa using apart.symm,move⟩

/-- What every step of the running segment keeps for the fibers not running. -/
theorem Governed.rest (g : w.Governed R) {i : Nat} {p : Proc S} {rest : List (Nat × Proc S)}
    (top : w.stack = (i,p) :: rest) :
    (∀ q ∈ rest, q.1 ≠ i ∧ Later R q.1 q.2 w.core) ∧
    (∀ b ∈ w.parked, b.1 ≠ i ∧ Waiting R b.1 b.2 w.core) := by
  have distinct := g.distinct
  simp only [fibers,top,map_cons,cons_append,nodup_cons,mem_append,not_or] at distinct
  have h := g.segment
  rw [top] at h
  refine ⟨fun q member => ⟨?_,h.2 q member⟩,fun b member => ⟨?_,g.waiting b member⟩⟩
  · rintro rfl; exact distinct.1.1 (mem_map_of_mem member)
  · rintro rfl; exact distinct.1.2 (mem_map_of_mem member)

theorem segment_pop {rest : List (Nat × Proc S)} (h : ∀ q ∈ rest, Later R q.1 q.2 c) : Segment R c rest:= by
  cases rest with
  | nil => trivial
  | cons head tail =>
    exact ⟨h head (by simp) c .refl,fun q member => h q (by simp [member])⟩

/-- The running fiber suspends; whatever it committed on the way is interference. -/
theorem Governed.park (g : w.Governed R) {rest : List (Nat × Proc S)}
    (top : w.stack = (i,p) :: rest) (inv : R.inv c)
    (others : ∀ j, j ≠ i → Others R j w.core c) (waiting : Waiting R i b c) :
    Governed R { w with core := c, stack := rest, parked := w.parked ++ [(i,b)] } := by
  have kept := g.rest top
  have moved : (rest.map Prod.fst ++ (w.parked ++ [(i,b)]).map Prod.fst).Perm w.fibers := by
    simp only [fibers,top,map_append,map_cons,map_nil,cons_append,
      ← append_assoc]
    exact perm_append_comm
  refine ⟨inv,moved.nodup_iff.mpr g.distinct,fun j member => g.bound j (moved.mem_iff.mp member),
    g.taken,segment_pop fun q m => ?_,fun a m => ?_⟩
  · exact (kept.1 q m).2.others (others q.1 (kept.1 q m).1)
  · rcases mem_append.mp m with old | new
    · exact (kept.2 a old).2.others (others a.1 (kept.2 a old).1)
    · cases mem_singleton.mp new
      exact waiting

theorem Governed.advance (sound : R.Sound) (g : w.Governed R) (stepped : w.advance = some w') :
    w'.Governed R := by
  obtain ⟨c,stack,parked,finished,next⟩ := w
  cases stack with
  | nil => simp [World.advance] at stepped
  | cons head rest =>
    obtain ⟨i,p⟩ := head
    have others := @Governed.rest _ _ _ g i p rest rfl
    have safe := g.segment.1
    cases p with
    | done r =>
      cases Option.some.inj stepped
      exact ⟨g.inv,g.distinct.of_cons,fun j member => g.bound j (mem_cons_of_mem _ member),
        g.taken,segment_pop fun q m => (others.1 q m).2,g.waiting⟩
    | look more =>
      cases Option.some.inj stepped
      exact ⟨g.inv,g.distinct,g.bound,g.taken,⟨safe,fun q m => (others.1 q m).2⟩,g.waiting⟩
    | act cmd more =>
      cases Option.some.inj stepped
      have move : Move R (some i) c (c.act i cmd) := .act g.inv safe.1
      refine ⟨sound.move move,g.distinct,g.bound,g.taken,⟨safe.2,fun q m => ?_⟩,fun b m => ?_⟩
      · exact (others.1 q m).2.others (other_move move (others.1 q m).1)
      · exact (others.2 b m).2.others (other_move move (others.2 b m).1)
    | wait q more =>
      cases Option.some.inj stepped
      have move : Move R (some i) c (c.call i q) := .call g.inv safe.1
      exact g.park rfl (sound.move move) (fun j apart => other_move move apart) safe.2
    | pause more =>
      cases Option.some.inj stepped
      exact g.park (b := .pause more) rfl g.inv (fun _ _ => .refl) safe
    | fork child more =>
      cases Option.some.inj stepped
      have fresh : ¬R.taken next := fun taken => Nat.lt_irrefl _ (g.taken next taken)
      refine ⟨g.inv,?_,fun j member => ?_,fun j taken => Nat.lt_succ_of_lt (g.taken j taken),
        ⟨safe.1 _ fresh,fun p m => ?_⟩,g.waiting⟩
      · exact nodup_cons.mpr ⟨fun member => Nat.lt_irrefl _ (g.bound next member),g.distinct⟩
      · rcases mem_cons.mp member with rfl | old
        · exact Nat.lt_succ_self _
        · exact Nat.lt_succ_of_lt (g.bound j old)
      · rcases mem_cons.mp m with rfl | old
        · exact fun c' more => safe.2 c' more _
        · exact (others.1 p old).2
    | join target more =>
      cases Option.some.inj stepped
      exact g.park (b := .join target more) rfl g.inv (fun _ _ => .refl) safe

/-- A parked fiber starts a segment of its own. -/
theorem Governed.unpark (g : w.Governed R) (idle : w.stack = []) {i : Nat}
    (member : (i,b) ∈ w.parked) (inv : R.inv c)
    (others : ∀ j, j ≠ i → Others R j w.core c) (safe : Safe R i p c) :
    Governed R { w with core := c, stack := [(i,p)], parked := remove i w.parked } := by
  refine ⟨inv,fibers_remove g.distinct idle,fun j known => ?_,g.taken,⟨safe,by simp⟩,fun a m => ?_⟩
  · have old : ∀ q ∈ w.parked, q.1 < w.next := fun q m =>
      g.bound q.1 (mem_append_right _ (mem_map_of_mem m))
    rcases mem_cons.mp known with rfl | rest
    · exact old _ member
    · obtain ⟨q,m,rfl⟩ := mem_map.mp rest
      exact old q (mem_remove m).1
  · obtain ⟨m,apart⟩ := mem_remove m
    exact (g.waiting a m).others (others a.1 apart)

theorem Governed.start (g : w.Governed R) (idle : w.stack = [])
    (safe : Safe R w.next p w.core) : Governed R (w.begin p) := by
  have parked : ∀ j ∈ w.parked.map Prod.fst, j < w.next := fun j m =>
    g.bound j (mem_append_right _ m)
  refine ⟨g.inv,nodup_cons.mpr ⟨fun m => Nat.lt_irrefl _ (parked _ m),?_⟩,fun j m => ?_,
    fun j taken => Nat.lt_succ_of_lt (g.taken j taken),⟨safe,by simp⟩,g.waiting⟩
  · simpa [fibers,idle,begin] using g.distinct
  · rcases mem_cons.mp m with rfl | old
    · exact Nat.lt_succ_self _
    · exact Nat.lt_succ_of_lt (parked j old)

/-- One fiber comes under rules that leave all others free. -/
theorem Governed.solo (g : w.Governed R) (idle : w.stack = [])
    (taken : ∀ j, R'.taken j ↔ j = w.next) (acts : ∀ j cmd c, ¬R'.taken j → R'.mayAct j cmd c)
    (calls : ∀ j q c, ¬R'.taken j → R'.mayCall j q c) (inv : R'.inv w.core) (safe : Safe R' w.next p w.core) :
    Governed R' (w.begin p) := by
  have old : ∀ j ∈ w.parked.map Prod.fst, j < w.next := fun j m => g.bound j (mem_append_right _ m)
  refine ⟨inv,nodup_cons.mpr ⟨fun m => Nat.lt_irrefl _ (old _ m),?_⟩,fun j m => ?_,fun j mine => ?_,
    ⟨safe,by simp⟩,fun b m => ?_⟩
  · simpa [fibers,idle,begin] using g.distinct
  · rcases mem_cons.mp m with rfl | before
    · exact Nat.lt_succ_self _
    · exact Nat.lt_succ_of_lt (old j before)
  · exact Nat.lt_succ_of_le (Nat.le_of_eq ((taken j).mp mine))
  · have free : ¬R'.taken b.1 := fun mine =>
      Nat.ne_of_lt (old b.1 (mem_map_of_mem m)) ((taken b.1).mp mine)
    have safe := fun (q : Proc S) c => Safe.unruled acts calls q b.1 c free
    obtain ⟨i,_ | _ | _⟩ := b
    · exact fun _ _ _ => safe _ _
    · exact fun _ _ => safe _ _
    · exact fun _ _ _ => safe _ _

/-- A fiber of its own comes under tighter rules; the others stay under theirs. -/
theorem Governed.tighten (g : w.Governed R) (idle : w.stack = []) (tight : R.Tightens R')
    (only : ∀ j, R'.taken j → j = w.next) (safe : Safe R' w.next p w.core) :
    Governed R' (w.begin p) := by
  have old : ∀ j ∈ w.parked.map Prod.fst, j < w.next := fun j m => g.bound j (mem_append_right _ m)
  refine ⟨(tight.inv _).mpr g.inv,nodup_cons.mpr ⟨fun m => Nat.lt_irrefl _ (old _ m),?_⟩,fun j m => ?_,
    fun j mine => ?_,⟨safe,by simp⟩,fun b m => ?_⟩
  · simpa [fibers,idle,begin] using g.distinct
  · rcases mem_cons.mp m with rfl | before
    · exact Nat.lt_succ_self _
    · exact Nat.lt_succ_of_lt (old j before)
  · exact Nat.lt_succ_of_le (Nat.le_of_eq (only j mine))
  · have free : ¬R'.taken b.1 := fun mine => Nat.ne_of_lt (old b.1 (mem_map_of_mem m)) (only b.1 mine)
    exact (g.waiting b m).tighten tight free

variable {body : Op → Proc S}

/-- Every step of a governed world leaves it governed. -/
theorem Governed.step (sound : R.Sound) (bodies : ∀ op i c, ¬R.taken i → R.inv c → Safe R i (body op) c)
    (g : w.Governed R) {choice : Choice S Op} (stepped : step body choice w = some w') :
    w'.Governed R := by
  cases choice with
  | run => exact g.advance sound stepped
  | crash =>
    cases Option.some.inj stepped
    exact ⟨sound.crash g.inv,by simp [fibers],by simp [fibers],g.taken,trivial,by simp⟩
  | invoke op =>
    simp only [World.step,List.isEmpty_iff] at stepped
    split at stepped
    · rename_i idle
      cases Option.some.inj stepped
      exact g.start idle (bodies op _ _ (fun taken => Nat.lt_irrefl _ (g.taken _ taken)) g.inv)
    · contradiction
  | shock change =>
    simp only [World.step,List.isEmpty_iff] at stepped
    split at stepped
    · rename_i idle
      cases Option.some.inj stepped
      have move : Move R none w.core (w.core.shock change) := .shock change g.inv
      refine ⟨sound.move move,g.distinct,g.bound,g.taken,?_,fun b m => ?_⟩
      · simp [Segment,idle]
      · exact (g.waiting b m).others (.single ⟨none,by simp,move⟩)
    · contradiction
  | resume i answer =>
    simp only [World.step,List.isEmpty_iff] at stepped
    split at stepped
    · rename_i idle
      split at stepped
      · rename_i q next found
        obtain ⟨r,_,rfl⟩ := Option.map_eq_some_iff.mp stepped
        have member := mem_of_find found
        have move : Move R (some i) w.core (w.core.reply i q r) := .reply q r g.inv
        exact g.unpark idle member (sound.move move) (fun j apart => other_move move apart)
          (g.waiting _ member _ .refl r)
      · contradiction
    · contradiction
  | wake i =>
    simp only [World.step,List.isEmpty_iff] at stepped
    split at stepped
    · rename_i idle
      split at stepped
      · rename_i next found
        cases Option.some.inj stepped
        have member := mem_of_find found
        exact g.unpark idle member g.inv (fun _ _ => .refl) (g.waiting _ member _ .refl)
      · rename_i p next found
        obtain ⟨r,_,rfl⟩ := Option.map_eq_some_iff.mp stepped
        have member := mem_of_find found
        exact g.unpark idle member g.inv (fun _ _ => .refl) (g.waiting _ member _ .refl r)
      · contradiction
    · contradiction

/-- What a step does to the core: nothing, or one change by the rules. -/
theorem Governed.change (g : w.Governed R)
    (stepped : World.step body choice w = some w')
    (meets : choice = .run → ∀ i cmd, w.about = some (i,cmd) → ok cmd w.core) :
    w'.core = w.core ∨ Change R ok w.core w'.core := by
  cases choice with
  | run =>
    obtain ⟨c,stack,parked,finished,next⟩ := w
    cases stack with
    | nil => simp [World.step,World.advance] at stepped
    | cons head rest =>
      obtain ⟨i,p⟩ := head
      have safe := g.segment.1
      cases p with
      | act cmd more =>
        cases Option.some.inj stepped
        exact .inr (.act i cmd g.inv safe.1 (meets rfl i cmd rfl))
      | wait q more =>
        cases Option.some.inj stepped
        exact .inr (.call i q g.inv safe.1)
      | done r => cases Option.some.inj stepped; exact .inl rfl
      | look more => cases Option.some.inj stepped; exact .inl rfl
      | pause more => cases Option.some.inj stepped; exact .inl rfl
      | fork child more => cases Option.some.inj stepped; exact .inl rfl
      | join target more => cases Option.some.inj stepped; exact .inl rfl
  | crash =>
    cases Option.some.inj stepped
    exact .inr (.crash g.inv)
  | invoke op =>
    simp only [World.step] at stepped
    split at stepped
    · cases Option.some.inj stepped; exact .inl rfl
    · contradiction
  | shock change =>
    simp only [World.step] at stepped
    split at stepped
    · cases Option.some.inj stepped; exact .inr (.shock change g.inv)
    · contradiction
  | resume i answer =>
    simp only [World.step] at stepped
    split at stepped
    · split at stepped
      · rename_i q next found
        obtain ⟨r,_,rfl⟩ := Option.map_eq_some_iff.mp stepped
        exact .inr (.reply i q r g.inv)
      · contradiction
    · contradiction
  | wake i =>
    simp only [World.step] at stepped
    split at stepped
    · split at stepped
      · cases Option.some.inj stepped; exact .inl rfl
      · obtain ⟨r,_,rfl⟩ := Option.map_eq_some_iff.mp stepped; exact .inl rfl
      · contradiction
    · contradiction

theorem Governed.changed (g : w.Governed R) {choice : Choice S Op}
    (stepped : World.step body choice w = some w') :
    w'.core = w.core ∨ Change R (fun _ _ => True) w.core w'.core := g.change stepped fun _ _ _ _ => trivial

/-- A run of the world is a run of its core, one permitted change at a time. -/
theorem Governed.leadsIf (sound : R.Sound) (bodies : ∀ op i c, ¬R.taken i → R.inv c → Safe R i (body op) c)
    (g : w.Governed R) (run : LeadsIf body ok w w') :
    w'.Governed R ∧ Changes R ok w.core w'.core := by
  induction run with
  | refl => exact ⟨g,.refl⟩
  | tail _ last ih =>
    obtain ⟨choice,stepped,meets⟩ := last
    refine ⟨ih.1.step sound bodies stepped,?_⟩
    rcases ih.1.change stepped meets with same | changed
    · rw [same]; exact ih.2
    · exact ih.2.tail changed

end steps

theorem Leads.always {body : Op → Proc S} (run : Leads body w w') : LeadsIf body (fun _ _ => True) w w':=
  run.lift id fun _ _ ⟨choice,stepped⟩ => ⟨choice,stepped,fun _ _ _ _ => trivial⟩

theorem advance_about {w w' : World S} (about : w.about = some (i,cmd))
    (stepped : w.advance = some w') : w'.core = w.core.act i cmd := by
  obtain ⟨c,stack,parked,finished,next⟩ := w
  unfold World.about at about
  split at about
  · rename_i top
    cases Option.some.inj about
    cases (show stack = _ from top)
    cases Option.some.inj stepped
    rfl
  · contradiction

theorem advance_calling {w w' : World S} (calling : w.calling = some (i,q))
    (stepped : w.advance = some w') : w'.core = w.core.call i q := by
  obtain ⟨c,stack,parked,finished,next⟩ := w
  unfold World.calling at calling
  split at calling
  · rename_i top
    cases Option.some.inj calling
    cases (show stack = _ from top)
    cases Option.some.inj stepped
    rfl
  · contradiction

/-- Histories only grow. -/
theorem step_trace {body : Op → Proc S} (stepped : step body choice w = some w') : w.core.trace <:+ w'.core.trace:= by
  have grown : w'.core = w.core ∨ ∃ e, w'.core.trace = e :: w.core.trace := by
    cases choice with
    | run =>
      obtain ⟨c,stack,parked,finished,next⟩ := w
      cases stack with
      | nil => simp [World.step,World.advance] at stepped
      | cons head rest =>
        obtain ⟨i,p⟩ := head
        cases p <;> cases Option.some.inj stepped <;> first | exact .inl rfl | exact .inr ⟨_,rfl⟩
    | crash => cases Option.some.inj stepped; exact .inr ⟨_,rfl⟩
    | invoke op | shock change =>
      simp only [World.step] at stepped
      split at stepped
      · cases Option.some.inj stepped
        first | exact .inl rfl | exact .inr ⟨_,rfl⟩
      · contradiction
    | resume i answer | wake i =>
      simp only [World.step] at stepped
      split at stepped
      · split at stepped
        all_goals first
          | contradiction
          | (cases Option.some.inj stepped; exact .inl rfl)
          | (obtain ⟨r,_,rfl⟩ := Option.map_eq_some_iff.mp stepped; first | exact .inl rfl | exact .inr ⟨_,rfl⟩)
      · contradiction
  rcases grown with same | ⟨e,longer⟩
  · exact same ▸ suffix_rfl
  · exact longer ▸ suffix_cons e _

theorem Leads.trace {body : Op → Proc S} (run : Leads body w w') : w.core.trace <:+ w'.core.trace:= by
  induction run with
  | refl => exact suffix_rfl
  | tail _ step ih =>
    obtain ⟨choice,stepped⟩ := step
    exact ih.trans (step_trace stepped)

/-- A run meets a condition that no command it adds to the history could break. -/
theorem Leads.harmless_since {body : Op → Proc S} {ok : S.Cmd → Core S → Prop} {harmless : Event S → Bool}
 (free : ∀ i cmd r c, harmless (.act i cmd r) → ok cmd c) (run : Leads body w w')
    {later : List (Event S)} (grown : later ++ w.core.trace = w'.core.trace) (clear : later.all harmless) :
    LeadsIf body ok w w' := by
  induction run generalizing later with
  | refl => exact .refl
  | @tail middle last before step ih =>
    obtain ⟨choice,stepped⟩ := step
    obtain ⟨first,start⟩ := Leads.trace before
    obtain ⟨new,ends⟩ := step_trace stepped
    obtain rfl : later = new ++ first := append_cancel_right (by rw [grown,← ends,← start,append_assoc])
    rw [all_append,Bool.and_eq_true] at clear
    refine (ih start clear.2).tail ⟨choice,stepped,fun ran i cmd about => ?_⟩
    subst ran
    have committed := congrArg Core.trace (advance_about about stepped)
    have one : new = [.act i cmd (S.exec cmd middle.core.state).1] :=
      append_cancel_right (ends.trans committed)
    rw [one] at clear
    exact free i cmd _ _ (all_eq_true.mp clear.1 _ mem_cons_self)

/-- A run meets a condition that no command in its history could break. -/
theorem Leads.harmless {body : Op → Proc S} {harmless : Event S → Bool}
 (free : ∀ i cmd r c, harmless (.act i cmd r) → ok cmd c) (run : Leads body w w')
    (clear : w'.core.trace.all harmless) : LeadsIf body ok w w' := by
  obtain ⟨later,grown⟩ := run.trace
  rw [← grown,all_append,Bool.and_eq_true] at clear
  exact run.harmless_since free grown clear.1

/-- A run meets a condition that holds after every history of harmless events. -/
theorem Leads.tame {body : Op → Proc S} {harmless : Event S → Bool}
 (free : ∀ cmd (c : Core S), c.trace.all harmless → ok cmd c) (run : Leads body w w')
    (clear : w'.core.trace.all harmless) : LeadsIf body ok w w' := by
  induction run with
  | refl => exact .refl
  | @tail middle last _ step ih =>
    obtain ⟨choice,stepped⟩ := step
    obtain ⟨later,grown⟩ := step_trace stepped
    rw [← grown,all_append,Bool.and_eq_true] at clear
    exact (ih clear.2).tail ⟨choice,stepped,fun _ _ cmd _ => free cmd _ clear.2⟩

theorem Governed.leads {body : Op → Proc S} (sound : R.Sound)
    (bodies : ∀ op i c, ¬R.taken i → R.inv c → Safe R i (body op) c) (g : w.Governed R)
    (run : Leads body w w') : w'.Governed R := (g.leadsIf sound bodies run.always).1

/-- A process begun under tighter rules keeps to them for as long as it runs. -/
theorem Governed.begun {w w' : World S} {body : Op → Proc S} (sound : R.Sound)
    (bodies : ∀ op i c, ¬R.taken i → R.inv c → Safe R i (body op) c) (g : w.Governed R) (idle : w.stack = [])
    (tight : R.Tightens R') (only : ∀ j, R'.taken j → j = w.next) (safe : Safe R' w.next p w.core)
    (run : Leads body (w.begin p) w') : w'.Governed R' :=
  (g.tighten idle tight only safe).leads (tight.sound sound)
    (fun op i c free inv => (bodies op i c (fun mine => free (tight.taken i mine)) ((tight.inv c).mp inv)).tighten
      tight free) run

end World

/-- Facts about the core that single changes keep hold along whole runs. -/
theorem Changes.keeps
    (run : Changes R ok c c') {A : Core S → Prop}
    (step : ∀ c c', Change R ok c c' → A c → A c') (a : A c) : A c' := by
  induction run with
  | refl => exact a
  | tail _ last ih => exact step _ _ last ih

end Neurobro.Coop
