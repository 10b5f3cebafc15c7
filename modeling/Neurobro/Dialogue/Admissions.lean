import Neurobro.Dialogue.Journal
import Mathlib.Tactic.Common

/-! What a journal of dialogues keeps, whatever is called and whenever the process dies: each question is
admitted once, and has one outcome at most, from the handle that took it up. -/
namespace Neurobro.Dialogue

open Telegram List

/-- The keys that were answered as newly admitted. -/
def admits : Event × Answer → List Int
  | (.recordModelAdmission _ _ _,.admission key true) => [key]
  | _ => []

/-- For which keys which handle made the question or its admission. -/
def grants : Event × Answer → List (Nat × Int)
  | (.recordQuestion n _ _ _,.question key true) => [(n,key)]
  | (.recordModelAdmission n _ _,.admission key true) => [(n,key)]
  | _ => []

/-- What the files of a journal say, whoever wrote them. -/
structure Files (h : Host) (b : Binding) (w : World) : Prop where
  questions : (w.questions.map Stored.key).Nodup
  asked : ∀ s ∈ w.questions, validateQuestion h b s.question = true ∧ s.question.primary.messageId = s.key
  admissions : (w.admissions.map Prod.fst).Nodup
  admitted : ∀ p ∈ w.admissions, admissionReads p.1 p.2 = true ∧ (w.question? p.1).isSome
  outcomes : (w.outcomes.map Prod.fst).Nodup
  concluded : ∀ p ∈ w.outcomes, outcomeReads h p.1 p.2 = true ∧ (w.question? p.1).isSome

/-- What holds after every call, with what was granted and what was admitted before. -/
structure World.Inv (h : Host) (b : Binding) (granted : List (Nat × Int)) (admitted : List Int) (w : World) : Prop where
  files : Files h b w
  claims : ∀ n handle, w.handles[n]? = some handle → ∀ p ∈ handle.claims, (n,p.1) ∈ granted
  once : admitted.Nodup
  kept : ∀ key ∈ admitted, key ∈ w.admissions.map Prod.fst

variable {h : Host} {b : Binding}

theorem World.Inv.refused {w : World} {granted : List (Nat × Int)} {admitted : List Int} (inv : w.Inv h b granted admitted) :
    w.Inv h b (granted ++ []) (admitted ++ []) := by
  rw [append_nil,append_nil]
  exact inv

theorem handle_found {w : World} {n : Nat} {handle : Handle} (found : w.handle? n = some handle) :
    w.handles[n]? = some handle ∧ handle.closed = false := by
  rw [World.handle?,Option.filter_eq_some_iff] at found
  exact ⟨found.1,by simpa using found.2⟩

/-! The files. -/

theorem Files.same (files : Files h b w) (questions : w'.questions = w.questions) (admissions : w'.admissions = w.admissions)
    (outcomes : w'.outcomes = w.outcomes) : Files h b w' := by
  have question (key : Int) : w'.question? key = w.question? key := by rw [World.question?,questions]; rfl
  refine ⟨by rw [questions]; exact files.questions,by rw [questions]; exact files.asked,by rw [admissions]; exact files.admissions,?_,
    by rw [outcomes]; exact files.outcomes,?_⟩
  · intro p in_
    rw [admissions] at in_
    rw [question]
    exact files.admitted p in_
  · intro p in_
    rw [outcomes] at in_
    rw [question]
    exact files.concluded p in_

theorem question_none {w : World} {key : Int} (absent : w.question? key = none) : key ∉ w.questions.map Stored.key := by
  intro in_
  obtain ⟨s,s_in,is_⟩ := mem_map.mp in_
  exact Keyed.get_none.mp absent s s_in is_

theorem admission_none {w : World} {key : Int} (absent : w.admission? key = none) : key ∉ w.admissions.map Prod.fst := by
  intro in_
  obtain ⟨p,p_in,is_⟩ := mem_map.mp in_
  exact Keyed.get_none.mp (Option.map_eq_none_iff.mp absent) p p_in is_

theorem outcome_none {w : World} {key : Int} (absent : w.outcome? key = none) : key ∉ w.outcomes.map Prod.fst := by
  intro in_
  obtain ⟨p,p_in,is_⟩ := mem_map.mp in_
  exact Keyed.get_none.mp (Option.map_eq_none_iff.mp absent) p p_in is_

theorem nodup_next {α : Type} {l : List α} {a : α} (once : l.Nodup) (absent : a ∉ l) : (l ++ [a]).Nodup := by
  rw [nodup_append]
  refine ⟨once,by simp,?_⟩
  intro x in_ y is_ same
  rw [mem_singleton.mp is_] at same
  exact absent (same ▸ in_)

/-- A question that is there stays the first of its key. -/
theorem question_kept {w : World} {question : Question} {now : Int} {key : Int} (there : (w.question? key).isSome) :
    ((w.ask question now).question? key).isSome := by
  rw [World.question?,Keyed.get,List.find?_isSome] at there ⊢
  obtain ⟨s,in_,is_⟩ := there
  exact ⟨s,mem_append_left _ in_,is_⟩

theorem Files.ask {w : World} (files : Files h b w) {question : Question} (valid : validateQuestion h b question = true)
    (absent : w.question? question.primary.messageId = none) (now : Int) : Files h b (w.ask question now) := by
  refine ⟨?_,?_,files.admissions,?_,files.outcomes,?_⟩
  · show ((w.questions ++ [_]).map Stored.key).Nodup
    rw [map_append]
    exact nodup_next files.questions (question_none absent)
  · intro s in_
    rcases mem_append.mp in_ with old | new
    · exact files.asked s old
    · rw [mem_singleton.mp new]
      exact ⟨valid,rfl⟩
  · intro p in_
    exact ⟨(files.admitted p in_).1,question_kept (files.admitted p in_).2⟩
  · intro p in_
    exact ⟨(files.concluded p in_).1,question_kept (files.concluded p in_).2⟩

theorem Files.admitIn {w : World} (files : Files h b w) {key : Int} {a : Admission} (reads : admissionReads key a = true)
    (there : (w.question? key).isSome) (absent : w.admission? key = none) : Files h b (w.admitIn key a) := by
  refine ⟨files.questions,files.asked,?_,?_,files.outcomes,files.concluded⟩
  · show ((w.admissions ++ [_]).map Prod.fst).Nodup
    rw [map_append]
    exact nodup_next files.admissions (admission_none absent)
  · intro p in_
    rcases mem_append.mp in_ with old | new
    · exact files.admitted p old
    · rw [mem_singleton.mp new]
      exact ⟨reads,there⟩

theorem Files.conclude {w : World} (files : Files h b w) {key : Int} {o : Outcome} (reads : outcomeReads h key o = true)
    (there : (w.question? key).isSome) (absent : w.outcome? key = none) : Files h b (w.conclude key o) := by
  refine ⟨files.questions,files.asked,files.admissions,files.admitted,?_,?_⟩
  · show ((w.outcomes ++ [_]).map Prod.fst).Nodup
    rw [map_append]
    exact nodup_next files.outcomes (outcome_none absent)
  · intro p in_
    rcases mem_append.mp in_ with old | new
    · exact files.concluded p old
    · rw [mem_singleton.mp new]
      exact ⟨reads,there⟩

/-! The claims of the handles. -/

theorem claims_set {handles : List Handle} {granted : List (Nat × Int)} {handle : Handle}
    (old : ∀ m other, handles[m]? = some other → ∀ p ∈ other.claims, (m,p.1) ∈ granted)
    (new : ∀ p ∈ handle.claims, (n,p.1) ∈ granted) :
    ∀ m other, (handles.set n handle)[m]? = some other → ∀ p ∈ other.claims, (m,p.1) ∈ granted := by
  intro m other found p in_
  rw [List.getElem?_set] at found
  split at found
  · rename_i same
    subst same
    split at found
    · cases found
      exact new p in_
    · contradiction
  · exact old m other found p in_

theorem claims_grow {handles : List Handle} {granted : List (Nat × Int)} (more : List (Nat × Int))
    (old : ∀ m other, handles[m]? = some other → ∀ p ∈ other.claims, (m,p.1) ∈ granted) :
    ∀ m other, handles[m]? = some other → ∀ p ∈ other.claims, (m,p.1) ∈ granted ++ more := by
  intro m other found p in_
  exact mem_append_left _ (old m other found p in_)

/-- A handle may lose claims. -/
theorem World.Inv.unclaim {w : World} {granted : List (Nat × Int)} {admitted : List Int} (inv : w.Inv h b granted admitted) {n : Nat}
    {handle : Handle} (found : w.handles[n]? = some handle) (key : Int) : (w.unclaim n handle key).Inv h b granted admitted := by
  refine ⟨inv.files.same rfl rfl rfl,?_,inv.once,inv.kept⟩
  refine claims_set inv.claims ?_
  intro p in_
  exact inv.claims n handle found p (Keyed.mem_delete.mp in_).1

/-- A handle gains the claim that it was granted. -/
theorem World.Inv.claim {w : World} {granted : List (Nat × Int)} {admitted : List Int} (inv : w.Inv h b granted admitted) {n : Nat}
    {handle : Handle} (found : w.handles[n]? = some handle) (key : Int) (digest : String) :
    (w.claim n handle key digest).Inv h b (granted ++ [(n,key)]) admitted := by
  refine ⟨inv.files.same rfl rfl rfl,?_,inv.once,inv.kept⟩
  refine claims_set (claims_grow [(n,key)] inv.claims) ?_
  intro p in_
  rcases mem_cons.mp in_ with rfl | old
  · exact mem_append_right _ (mem_singleton.mpr rfl)
  · exact mem_append_left _ (inv.claims n handle found p (Keyed.mem_delete.mp old).1)

/-! One call. -/

theorem openJournal_inv {w : World} {granted : List (Nat × Int)} {admitted : List Int} (inv : w.Inv h b granted admitted)
    (readOnly : Bool) (fate : Fate) : (w.openJournal readOnly fate).1.Inv h b granted admitted := by
  rw [World.openJournal]
  split
  · exact inv
  · split
    · exact ⟨inv.files.same rfl rfl rfl,inv.claims,inv.once,inv.kept⟩
    · refine ⟨inv.files.same rfl rfl rfl,?_,inv.once,inv.kept⟩
      intro n handle found
      have found' : (w.handles ++ [({ readOnly := readOnly } : Handle)])[n]? = some handle := found
      rcases Nat.lt_or_ge n w.handles.length with old | new
      · rw [List.getElem?_append_left old] at found'
        exact inv.claims n handle found'
      · rw [List.getElem?_append_right new] at found'
        cases at_ : n - w.handles.length with
        | zero =>
          rw [at_] at found'
          cases found'
          intro p no
          contradiction
        | succ m =>
          rw [at_] at found'
          contradiction

/-- Every handle is let go of. -/
theorem crash_inv {w : World} {granted : List (Nat × Int)} {admitted : List Int} (inv : w.Inv h b granted admitted) :
    World.Inv h b granted admitted { w with handles := w.handles.map fun handle : Handle => { handle with closed := true, claims := [] } } := by
  refine ⟨inv.files.same rfl rfl rfl,?_,inv.once,inv.kept⟩
  intro n handle found
  rw [List.getElem?_map] at found
  obtain ⟨old,_,rfl⟩ := Option.map_eq_some_iff.mp found
  intro p no
  contradiction

theorem close_inv {w : World} {granted : List (Nat × Int)} {admitted : List Int} (inv : w.Inv h b granted admitted) (n : Nat)
    (handle : Handle) : World.Inv h b granted admitted { w with handles := w.handles.set n { handle with closed := true, claims := [] } } := by
  refine ⟨inv.files.same rfl rfl rfl,?_,inv.once,inv.kept⟩
  refine claims_set inv.claims ?_
  intro p no
  contradiction

theorem recordQuestion_inv {w : World} {granted : List (Nat × Int)} {admitted : List Int} (inv : w.Inv h b granted admitted) (n : Nat)
    (question : Question) (now : Int) (fate : Fate) :
    (w.recordQuestion h b n question now fate).1.Inv h b
      (granted ++ grants (.recordQuestion n question now fate,(w.recordQuestion h b n question now fate).2))
      (admitted ++ admits (.recordQuestion n question now fate,(w.recordQuestion h b n question now fate).2)) := by
  rw [World.recordQuestion]
  split
  · exact inv.refused
  · rename_i handle found
    split
    · exact inv.refused
    · rename_i fits
      simp only [not_or,Bool.not_eq_false] at fits
      split
      · rename_i absent
        have files := inv.files.ask fits.2.2.1 absent now
        have asked : (w.ask question now).Inv h b granted admitted := ⟨files,inv.claims,inv.once,inv.kept⟩
        split
        · exact asked.refused
        · have claimed := asked.claim (handle_found found).1 question.primary.messageId (h.hash question)
          simp only [admits,append_nil]
          exact claimed
      · split
        · exact inv.refused
        · split
          · exact inv.refused
          · exact inv.refused

/-- What was read back is the question that is stored. -/
theorem readQuestion_some {w : World} {key : Int} {s : Stored} (read : w.readQuestion h b key = some s) : w.question? key = some s := by
  rw [World.readQuestion,Option.filter_eq_some_iff] at read
  exact read.1

theorem recordModelAdmission_inv {w : World} {granted : List (Nat × Int)} {admitted : List Int} (inv : w.Inv h b granted admitted)
    (n : Nat) (a : Admission) (fate : Fate) :
    (w.recordModelAdmission h b n a fate).1.Inv h b
      (granted ++ grants (.recordModelAdmission n a fate,(w.recordModelAdmission h b n a fate).2))
      (admitted ++ admits (.recordModelAdmission n a fate,(w.recordModelAdmission h b n a fate).2)) := by
  rw [World.recordModelAdmission]
  split
  · exact inv.refused
  · rename_i handle found
    have at_ := (handle_found found).1
    split
    · exact inv.refused
    · rename_i fits
      simp only [not_or,Bool.not_eq_false] at fits
      split
      · exact inv.refused
      · rename_i key named
        split
        · exact inv.refused
        · rename_i stored read
          have there : (w.question? key).isSome := by rw [readQuestion_some read]; rfl
          split
          · split
            · exact (inv.unclaim at_ key).refused
            · exact inv.refused
          · rw [World.admitting]
            split
            · exact inv.refused
            · split
              · split
                · exact (inv.unclaim at_ key).refused
                · exact inv.refused
              · rename_i absent
                have reads : admissionReads key a = true := by simp [admissionReads,fits.2.2,named]
                have new := admission_none absent
                have files := inv.files.admitIn reads there absent
                have kept (k : Int) (in_ : k ∈ admitted) : k ∈ (w.admitIn key a).admissions.map Prod.fst := by
                  show k ∈ (w.admissions ++ [(key,a)]).map Prod.fst
                  rw [map_append]
                  exact mem_append_left _ (inv.kept k in_)
                have written : (w.admitIn key a).Inv h b granted admitted := ⟨files,inv.claims,inv.once,kept⟩
                split
                · exact written.refused
                · have claimed := written.claim at_ key (h.hash stored.question)
                  refine ⟨claimed.files,claimed.claims,nodup_next inv.once (fun in_ => new (inv.kept key in_)),?_⟩
                  intro k in_
                  rcases mem_append.mp in_ with old | is_
                  · exact kept k old
                  · rw [mem_singleton.mp is_]
                    show key ∈ (w.admissions ++ [(key,a)]).map Prod.fst
                    simp

theorem recordOutcome_inv {w : World} {granted : List (Nat × Int)} {admitted : List Int} (inv : w.Inv h b granted admitted) (n : Nat)
    (o : Outcome) (fate : Fate) : (w.recordOutcome h b n o fate).1.Inv h b granted admitted := by
  rw [World.recordOutcome]
  split
  · exact inv
  · rename_i handle found
    have at_ := (handle_found found).1
    split
    · exact inv
    · rename_i fits
      simp only [not_or,Bool.not_eq_false] at fits
      split
      · exact inv
      · rename_i key named
        split
        · rename_i proof stored claim read
          have there : (w.question? key).isSome := by rw [readQuestion_some read]; rfl
          have dropped := inv.unclaim at_ key
          split
          · exact inv
          · split
            · exact dropped
            · rename_i free
              simp only [not_or,Bool.not_eq_true,Option.isSome_eq_false_iff,Option.isNone_iff_eq_none] at free
              have reads : outcomeReads h key o = true := by simp [outcomeReads,fits.2.2,named]
              have files : Files h b ((w.unclaim n handle key).conclude key o) :=
                Files.conclude (w := w.unclaim n handle key) dropped.files reads there free.2
              split <;> exact ⟨files,dropped.claims,inv.once,inv.kept⟩
        · exact inv

theorem read_same (w : World) (n : Nat) (o : ReadOptions) (fate : Fate) : (w.read h b n o fate).1 = w := by
  rw [World.read]
  split
  · rfl
  · split
    · rfl
    · split <;> rfl

theorem step_inv {w : World} {granted : List (Nat × Int)} {admitted : List Int} (inv : w.Inv h b granted admitted) (event : Event) :
    (w.step h b event).1.Inv h b (granted ++ grants (event,(w.step h b event).2)) (admitted ++ admits (event,(w.step h b event).2)) := by
  cases event with
  | open_ readOnly fate => exact (openJournal_inv inv readOnly fate).refused
  | recordQuestion n question now fate => exact recordQuestion_inv inv n question now fate
  | recordModelAdmission n a fate => exact recordModelAdmission_inv inv n a fate
  | recordOutcome n o fate => exact (recordOutcome_inv inv n o fate).refused
  | read n options fate =>
    show World.Inv h b (granted ++ []) (admitted ++ []) (w.read h b n options fate).1
    rw [read_same]
    exact inv.refused
  | close n =>
    rw [World.step]
    split
    · exact inv.refused
    · exact (close_inv inv n _).refused
  | crash => exact (crash_inv inv).refused

theorem run_inv {w : World} {granted : List (Nat × Int)} {admitted : List Int} (inv : w.Inv h b granted admitted) (events : List Event) :
    (World.run h b w events).1.Inv h b (granted ++ (World.run h b w events).2.flatMap grants)
      (admitted ++ (World.run h b w events).2.flatMap admits) := by
  induction events generalizing w granted admitted with
  | nil => exact inv.refused
  | cons event events ih =>
    have later := ih (step_inv inv event)
    rw [append_assoc,append_assoc] at later
    exact later

theorem inv_start : World.Inv h b [] [] {} := by
  refine ⟨⟨nodup_nil,?_,nodup_nil,?_,nodup_nil,?_⟩,?_,nodup_nil,?_⟩
  · intro s no
    contradiction
  · intro p no
    contradiction
  · intro p no
    contradiction
  · intro n handle no
    contradiction
  · intro key no
    contradiction

/-! What one more call may do. -/

/-- A question is admitted only while nobody was told so before and it has no outcome. -/
theorem admission_new {w : World} {granted : List (Nat × Int)} {admitted : List Int} (inv : w.Inv h b granted admitted)
 {key : Int} (answer : (w.recordModelAdmission h b n a fate).2 = .admission key true) :
    key ∉ admitted ∧ w.outcome? key = none := by
  rw [World.recordModelAdmission] at answer
  split at answer
  · contradiction
  · split at answer
    · contradiction
    · split at answer
      · contradiction
      · split at answer
        · contradiction
        · split at answer
          · split at answer <;> cases answer
          · rename_i free
            rw [World.admitting] at answer
            split at answer
            · contradiction
            · split at answer
              · split at answer <;> cases answer
              · rename_i absent
                split at answer
                · contradiction
                · cases answer
                  exact ⟨fun in_ => admission_none absent (inv.kept _ in_),free⟩

/-- An outcome is recorded for a question that had none, and through a handle that was granted it. -/
theorem recordOutcome_outcomes {w : World} {granted : List (Nat × Int)} {admitted : List Int} (inv : w.Inv h b granted admitted) (n : Nat)
    (o : Outcome) (fate : Fate) : (w.recordOutcome h b n o fate).1.outcomes = w.outcomes ∨
      ∃ key, keyNumber o.key = some key ∧ (n,key) ∈ granted ∧ w.outcome? key = none ∧
        (w.recordOutcome h b n o fate).1.outcomes = w.outcomes ++ [(key,o)] := by
  rw [World.recordOutcome]
  split
  · exact .inl rfl
  · rename_i handle found
    split
    · exact .inl rfl
    · split
      · exact .inl rfl
      · rename_i key named
        split
        · rename_i proof stored claim read
          obtain ⟨in_,is_⟩ := Keyed.get_some claim
          have mine := inv.claims n handle (handle_found found).1 proof in_
          rw [is_] at mine
          split
          · exact .inl rfl
          · split
            · exact .inl rfl
            · rename_i free
              simp only [not_or,Bool.not_eq_true,Option.isSome_eq_false_iff,Option.isNone_iff_eq_none] at free
              refine .inr ⟨key,named,mine,free.2,?_⟩
              split <;> rfl
        · exact .inl rfl

/-- Only that call writes outcomes. -/
theorem step_outcomes (w : World) (event : Event) :
    (w.step h b event).1.outcomes = w.outcomes ∨ ∃ n o fate, event = .recordOutcome n o fate := by
  cases event with
  | open_ readOnly fate =>
    refine .inl ?_
    rw [World.step,World.openJournal]
    split
    · rfl
    · split <;> rfl
  | recordQuestion n question now fate =>
    refine .inl ?_
    rw [World.step,World.recordQuestion]
    split
    · rfl
    · split
      · rfl
      · split
        · split <;> rfl
        · split
          · rfl
          · split <;> rfl
  | recordModelAdmission n a fate =>
    refine .inl ?_
    rw [World.step,World.recordModelAdmission]
    split
    · rfl
    · split
      · rfl
      · split
        · rfl
        · split
          · rfl
          · split
            · split <;> rfl
            · rw [World.admitting]
              split
              · rfl
              · split
                · split <;> rfl
                · split <;> rfl
  | recordOutcome n o fate => exact .inr ⟨n,o,fate,rfl⟩
  | read n options fate => exact .inl (congrArg World.outcomes (read_same w n options fate))
  | close n =>
    refine .inl ?_
    rw [World.step]
    split <;> rfl
  | crash => exact .inl rfl

/-! Reading. -/

/-- A stored question as a reader sees it. -/
def World.shown (w : World) (s : Stored) : JournalDialogue :=
  ⟨s.key,s.question,s.recordedAt,w.admission? s.key,w.outcome? s.key,(w.outcome? s.key).map Outcome.delivery⟩

/-- The dialogues of some keys, without those that the dates leave out. -/
def World.shownOf (w : World) (o : ReadOptions) (keys : List Int) : List JournalDialogue :=
  keys.filterMap fun key => ((w.question? key).filter fun s => within o s.question).map w.shown

theorem readQuestion_stored (files : Files h b w) (times : ∀ s ∈ w.questions, dated s.recordedAt = true) {key : Int}
    (there : w.question? key = some s) : w.readQuestion h b key = some s := by
  obtain ⟨in_,is_⟩ := Keyed.get_some there
  obtain ⟨valid,named⟩ := files.asked s in_
  rw [World.readQuestion,there,Option.filter_eq_some_iff]
  exact ⟨rfl,by simp [times s in_,valid,named,is_]⟩

theorem dialogue_stored (files : Files h b w) (s : Stored) : w.dialogue h s = some (w.shown s) := by
  have admission : ((w.admission? s.key).map (admissionReads s.key)).getD true = true := by
    cases found : w.admission? s.key with
    | none => rfl
    | some a =>
      obtain ⟨p,got,rfl⟩ := Option.map_eq_some_iff.mp found
      obtain ⟨in_,is_⟩ := Keyed.get_some got
      have reads := (files.admitted p in_).1
      rw [is_] at reads
      exact reads
  have outcome : ((w.outcome? s.key).map (outcomeReads h s.key)).getD true = true := by
    cases found : w.outcome? s.key with
    | none => rfl
    | some o =>
      obtain ⟨p,got,rfl⟩ := Option.map_eq_some_iff.mp found
      obtain ⟨in_,is_⟩ := Keyed.get_some got
      have reads := (files.concluded p in_).1
      rw [is_] at reads
      exact reads
  simp only [World.dialogue,admission,outcome]
  rfl

/-- A scan takes dialogues until it has enough or comes to the end. -/
theorem scan_stored (files : Files h b w) (times : ∀ s ∈ w.questions, dated s.recordedAt = true) (o : ReadOptions)
    (keys : List Int) (known : ∀ key ∈ keys, (w.question? key).isSome) (room : Nat) :
    ∃ n, n ≤ keys.length ∧ w.scan h b o room keys = some (w.shownOf o (keys.take n),n) ∧
      ((w.shownOf o (keys.take n)).length = room ∨ n = keys.length ∧ (w.shownOf o (keys.take n)).length ≤ room) := by
  induction keys generalizing room with
  | nil => cases room <;> exact ⟨0,Nat.le_refl _,rfl,.inr ⟨rfl,Nat.zero_le _⟩⟩
  | cons key keys ih =>
    cases room with
    | zero => exact ⟨0,Nat.zero_le _,rfl,.inl rfl⟩
    | succ room =>
      obtain ⟨s,there⟩ := Option.isSome_iff_exists.mp (known key mem_cons_self)
      have later := fun k in_ => known k (mem_cons_of_mem _ in_)
      have read := readQuestion_stored files times there
      by_cases fits : within o s.question = true
      · obtain ⟨n,less,scanned,enough⟩ := ih later room
        have first (l : List Int) : w.shownOf o (key :: l) = w.shown s :: w.shownOf o l := by
          simp [World.shownOf,there,fits]
        refine ⟨n + 1,Nat.succ_le_succ less,?_,?_⟩
        · simp [World.scan,read,fits,dialogue_stored files s,scanned,first]
        · rw [take_succ_cons,first,length_cons,length_cons]
          omega
      · obtain ⟨n,less,scanned,enough⟩ := ih later (room + 1)
        have first (l : List Int) : w.shownOf o (key :: l) = w.shownOf o l := by
          simp [World.shownOf,there,fits]
        refine ⟨n + 1,Nat.succ_le_succ less,?_,?_⟩
        · simp [World.scan,read,fits,scanned,first]
        · rw [take_succ_cons,first,length_cons]
          omega

/-- A journal that is not too large, and whose questions came after the first second of the clock, can be read:
every call gives the newest dialogues that it asks for, each with what is stored of it. -/
theorem read_stored (files : Files h b w) (times : ∀ s ∈ w.questions, dated s.recordedAt = true) (room : w.entries ≤ directoryBound)
 {handle : Handle} (found : w.handle? n = some handle) (o : ReadOptions) (valid : optionsValid o = true) :
    ∃ page, w.read h b n o .fine_ = (w,.page page) ∧
      page.dialogues.reverse = w.shownOf o (w.ordered.take page.scanned) ∧
      page.scanned ≤ w.ordered.length ∧ page.scanned ≤ (scanLimitOf o).toNat ∧
      page.dialogues.length ≤ o.limit.toNat ∧
      (page.dialogues.length = o.limit.toNat ∨ page.scanned = min (scanLimitOf o).toNat w.ordered.length) ∧
      page.hasOlder = decide (page.scanned < w.ordered.length) := by
  have known : ∀ key ∈ w.ordered.take (scanLimitOf o).toNat, (w.question? key).isSome := by
    intro key in_
    have in' := mem_of_mem_take in_
    rw [World.ordered,mem_insertionSort] at in'
    obtain ⟨s,s_in,is_⟩ := mem_map.mp in'
    rw [World.question?,Keyed.get,List.find?_isSome]
    exact ⟨s,s_in,decide_eq_true is_⟩
  have matched : w.matched = true := by
    rw [World.matched,all_eq_true]
    intro key in_
    rcases mem_append.mp in_ with in_ | in_
    · obtain ⟨p,p_in,rfl⟩ := mem_map.mp in_
      exact (files.admitted p p_in).2
    · obtain ⟨p,p_in,rfl⟩ := mem_map.mp in_
      exact (files.concluded p p_in).2
  obtain ⟨k,less,scanned,enough⟩ := scan_stored files times o (w.ordered.take (scanLimitOf o).toNat) known o.limit.toNat
  rw [length_take] at less enough
  rw [take_take,Nat.min_eq_left (by omega)] at scanned enough
  refine ⟨⟨(w.shownOf o (w.ordered.take k)).reverse,k,decide (k < w.ordered.length)⟩,?_,reverse_reverse _,by simp only; omega,
    by simp only; omega,?_,?_,rfl⟩
  · rw [World.read]
    simp only [found]
    rw [if_neg (by simp [valid,matched]; omega),scanned]
  · simp only [length_reverse]
    omega
  · simp only [length_reverse]
    omega

/-! The whole journal. -/

/-- Every handle reads whatever may be asked for. -/
def Readable (h : Host) (b : Binding) (w : World) : Prop :=
  ∀ n handle o, w.handle? n = some handle → optionsValid o = true → ∃ page, (w.read h b n o .fine_).2 = .page page

/-- What calls with these answers leave behind. -/
structure Kept (h : Host) (b : Binding) (w : World) (past : List (Event × Answer)) : Prop where
  once : (past.flatMap admits).Nodup
  /-- The next call admits no question that was admitted or has an outcome. -/
  before : ∀ n a fate key, (w.step h b (.recordModelAdmission n a fate)).2 = .admission key true →
    key ∉ past.flatMap admits ∧ w.outcome? key = none
  single : (w.outcomes.map Prod.fst).Nodup
  /-- The next call adds no outcome, or the first one of a question that its own handle made or admitted. -/
  through : ∀ event, (w.step h b event).1.outcomes = w.outcomes ∨ ∃ n o fate key, event = .recordOutcome n o fate ∧
    keyNumber o.key = some key ∧ (n,key) ∈ past.flatMap grants ∧ w.outcome? key = none ∧
    (w.step h b event).1.outcomes = w.outcomes ++ [(key,o)]
  /-- As long as there are not too many files, and the clock was set. -/
  readable : w.entries ≤ directoryBound → (∀ s ∈ w.questions, dated s.recordedAt = true) → ∀ n handle o, w.handle? n = some handle →
    optionsValid o = true → ∃ page, w.read h b n o .fine_ = (w,.page page) ∧
      page.dialogues.reverse = w.shownOf o (w.ordered.take page.scanned) ∧
      page.scanned ≤ w.ordered.length ∧ page.scanned ≤ (scanLimitOf o).toNat ∧
      page.dialogues.length ≤ o.limit.toNat ∧
      (page.dialogues.length = o.limit.toNat ∨ page.scanned = min (scanLimitOf o).toNat w.ordered.length) ∧
      page.hasOlder = decide (page.scanned < w.ordered.length)

theorem journal_keeps (h : Host) (b : Binding) (events : List Event) :
    Kept h b (World.run h b {} events).1 (World.run h b {} events).2 := by
  have inv := run_inv (h := h) (b := b) inv_start events
  rw [nil_append,nil_append] at inv
  refine ⟨inv.once,?_,inv.files.outcomes,?_,?_⟩
  · intro n a fate key answer
    exact admission_new inv answer
  · intro event
    rcases step_outcomes (h := h) (b := b) (World.run h b {} events).1 event with same | ⟨n,o,fate,rfl⟩
    · exact .inl same
    · rcases recordOutcome_outcomes inv n o fate with same | ⟨key,named,mine,free,more⟩
      · exact .inl same
      · exact .inr ⟨n,o,fate,key,rfl,named,mine,free,more⟩
  · intro room times n handle o found valid
    exact read_stored inv.files times room found o valid

/-! Journals that cannot be read. -/

def demo : Binding := ⟨"100","-200"⟩

def asking (n : Nat) : Question := ⟨⟨"-200","300",n,"?"⟩,none,none⟩

def plainOptions : ReadOptions := { limit := 1 }

/-- One handle, and so many questions. -/
def many (n : Nat) : List Event :=
  .open_ false .fine_ :: (List.range n).map fun i => .recordQuestion 0 (asking (i + 1)) 1700000000 .fine_

/-- A question while the clock stands at its start. -/
def early : List Event := [.open_ false .fine_,.recordQuestion 0 (asking 1) 0 .fine_]

theorem run_append (w : World) (first rest : List Event) :
    (World.run h b w (first ++ rest)).1 = (World.run h b (World.run h b w first).1 rest).1 := by
  induction first generalizing w with
  | nil => rfl
  | cons event first ih => exact ih _

theorem asking_valid (h : Host) (n : Nat) (less : n < 2147483647) : validateQuestion h demo (asking (n + 1)) = true := by
  have id : messageIdValid ((n : Int) + 1) = true := messageIdValid_iff.mpr (by omega)
  have owner : userId "300" = true := by decide
  have text : textFits "?" incomingTextBytes = true := by decide
  simp [validateQuestion,primaryFits,asking,demo,id,owner,text]

theorem asked_many (h : Host) (n : Nat) (less : n ≤ 2147483647) :
    (World.run h demo {} (many n)).1.questions.length = n ∧
      (∀ s ∈ (World.run h demo {} (many n)).1.questions, s.key ≤ n) ∧
      ∃ claims, (World.run h demo {} (many n)).1.handles = [⟨false,false,claims⟩] := by
  induction n with
  | zero => exact ⟨rfl,by intro s no; contradiction,[],rfl⟩
  | succ n ih =>
    obtain ⟨length,keys,claims,handles⟩ := ih (by omega)
    have split_ : many (n + 1) = many n ++ [.recordQuestion 0 (asking (n + 1)) 1700000000 .fine_] := by
      simp [many,range_succ]
    have found : (World.run h demo {} (many n)).1.handle? 0 = some ⟨false,false,claims⟩ := by
      simp [World.handle?,handles]
    have absent : (World.run h demo {} (many n)).1.question? (asking (n + 1)).primary.messageId = none := by
      rw [World.question?,Keyed.get_none]
      intro s in_ same
      have := keys s in_
      rw [same] at this
      simp only [asking] at this
      omega
    have next : (World.run h demo {} (many (n + 1))).1 =
        (((World.run h demo {} (many n)).1.ask (asking (n + 1)) 1700000000).claim 0 ⟨false,false,claims⟩ (asking (n + 1)).primary.messageId
          (h.hash (asking (n + 1)))) := by
      rw [split_,run_append]
      show (World.recordQuestion h demo (World.run h demo {} (many n)).1 0 (asking (n + 1)) 1700000000 .fine_).1 = _
      simp only [World.recordQuestion,found,absent,asking_valid h n (by omega)]
      rfl
    rw [next]
    refine ⟨?_,?_,?_⟩
    · show ((World.run h demo {} (many n)).1.questions ++ [_]).length = n + 1
      rw [length_append,length]
      rfl
    · intro s in_
      rcases mem_append.mp in_ with old | new
      · have := keys s old
        push_cast
        omega
      · rw [mem_singleton.mp new]
        exact Int.le_refl _
    · refine ⟨(((asking (n + 1)).primary.messageId,h.hash (asking (n + 1))) :: Keyed.delete Prod.fst (asking (n + 1)).primary.messageId claims),?_⟩
      show (World.run h demo {} (many n)).1.handles.set 0 _ = _
      rw [handles]
      rfl

theorem many_unread (h : Host) (n : Nat) (less : n ≤ 2147483647) (large : directoryBound ≤ n) :
    ¬ Readable h demo (World.run h demo {} (many n)).1 := by
  intro readable
  obtain ⟨length,_,claims,handles⟩ := asked_many h n less
  have found : (World.run h demo {} (many n)).1.handle? 0 = some ⟨false,false,claims⟩ := by
    simp [World.handle?,handles]
  obtain ⟨page,answer⟩ := readable 0 _ plainOptions found (by decide)
  have over_ : directoryBound < (World.run h demo {} (many n)).1.entries := by
    rw [World.entries]
    omega
  simp only [World.read,found] at answer
  rw [if_pos (.inr (.inr (.inl over_)))] at answer
  contradiction

/-- What one question that was asked too early leaves. -/
def earlyWorld (h : Host) : World where
  marked := true
  questions := [⟨1,asking 1,0⟩]
  handles := [{ readOnly := false, claims := [(1,h.hash (asking 1))] }]

theorem run_early (h : Host) : (World.run h demo {} early).1 = earlyWorld h := by
  have valid := asking_valid h 0 (by omega)
  have found : World.handle? { marked := true, handles := [{ readOnly := false }] } 0 = some { readOnly := false } := rfl
  have absent : World.question? { marked := true, handles := [{ readOnly := false }] } (asking 1).primary.messageId = none := rfl
  show (World.recordQuestion h demo { marked := true, handles := [{ readOnly := false }] } 0 (asking 1) 0 .fine_).1 = _
  simp only [World.recordQuestion,found,absent,valid]
  rfl

theorem early_unread (h : Host) : ¬ Readable h demo (earlyWorld h) := by
  intro readable
  obtain ⟨page,answer⟩ := readable 0 _ plainOptions rfl (by decide)
  have none_ : World.readQuestion h demo (earlyWorld h) 1 = none := by
    simp [World.readQuestion,World.question?,Keyed.get,earlyWorld,dated]
  have scanned : World.scan h demo (earlyWorld h) plainOptions 1 [1] = none := by
    rw [World.scan,none_]
    rfl
  have all : (earlyWorld h).ordered.take (scanLimitOf plainOptions).toNat = [1] := by
    simp [World.ordered,earlyWorld,scanLimitOf,plainOptions]
  have result : (World.read h demo (earlyWorld h) 0 plainOptions .fine_).2 = .refused := by
    simp only [World.read]
    split
    · rfl
    · split
      · rfl
      · rw [all]
        rw [show plainOptions.limit.toNat = 1 from rfl,scanned]
  rw [result] at answer
  contradiction

/-- Neither a directory of more than thirty thousand files is read, nor a question from before the clock was set. -/
theorem not_all_readable : (¬ ∃ h, Readable h demo (World.run h demo {} (many directoryBound)).1) ∧
    ¬ ∃ h, Readable h demo (World.run h demo {} early).1 := by
  constructor
  · rintro ⟨h,readable⟩
    exact many_unread h directoryBound (by rw [directoryBound]; omega) (Nat.le_refl _) readable
  · rintro ⟨h,readable⟩
    rw [run_early] at readable
    exact early_unread h readable

end Neurobro.Dialogue
