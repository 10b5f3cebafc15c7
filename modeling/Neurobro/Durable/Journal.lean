import Neurobro.Data.Table
import Neurobro.Durable.Script

/-! A journal: numbered files in one directory, each created once, and a reader that takes
them in order. Whatever befalls a write, the files are those of a run that the reader
accepts, with at most one broken file after them. -/
namespace Neurobro.Durable.Journal

open Script List

variable {R S : Type}

/-- A file that is there, with part of its bytes or with its record. -/
inductive File (R : Type) where
  | torn
  | whole (record : R)

abbrev Dir (R : Type) := Table Nat (File R)

/-- An exclusive creation. -/
def openNew (n : Nat) (d : Dir R) : Except String (Unit × Dir R) :=
  match d.get n with
  | some _ => .error "EEXIST"
  | none => .ok ((),d.put n .torn)

def writeFile (n : Nat) (r : R) (d : Dir R) : Except String (Unit × Dir R) := .ok ((),d.put n (.whole r))

/-- A new file is opened, written, synced and read back. -/
def writeNew (n : Nat) (r : R) : Script (Dir R) Unit := do
  fallible
  lasting (openNew n)
  lasting (writeFile n r)
  fallible

/-- Reading files from number `n + 1` on until one is missing, broken or refused. The last
part tells that the directory is not just what was read. -/
def scan (accept : S → R → Option S) (d : Dir R) : Nat → S → Nat → S × Nat × Bool
  | 0,s,n => (s,n,false)
  | fuel + 1,s,n =>
    match d.get (n + 1) with
    | none => (s,n,decide (d.size ≠ n))
    | some .torn => (s,n,true)
    | some (.whole r) =>
      match accept s r with
      | none => (s,n,true)
      | some s' => scan accept d fuel s' (n + 1)

def readFile (r : R) (d : Dir R) : Except String (R × Dir R) := .ok (r,d)

/-- The same with readings that may fail. -/
def scanning (accept : S → R → Option S) : Nat → S → Nat → Script (Dir R) (S × Nat × Bool)
  | 0,s,n => return (s,n,false)
  | fuel + 1,s,n => do
    let d ← look id
    match d.get (n + 1) with
    | none => return (s,n,decide (d.size ≠ n))
    | some .torn => return (s,n,true)
    | some (.whole r) => do
      let got ← attempt (fun s _ => s) (readFile r)
      match got.toOption.bind (accept s) with
      | none => return (s,n,true)
      | some s' => scanning accept fuel s' (n + 1)

/-- The run of the records a reader has taken. -/
def replay (accept : S → R → Option S) (s : S) (records : List R) : Option S := records.foldlM accept s

/-- The directory holds these records and no other file, but for a broken one after them. -/
structure Holds (d : Dir R) (records : List R) (torn : Bool) : Prop where
  first : d.get 0 = none
  record : ∀ k r, records[k]? = some r → d.get (k + 1) = some (.whole r)
  next : d.get (records.length + 1) = if torn then some .torn else none
  beyond : ∀ k, records.length < k → d.get (k + 1) = none
  size : d.size = records.length + if torn then 1 else 0

/-- A sound directory: a run of the reader, of no more than `most` records. -/
structure Sound (accept : S → R → Option S) (start : S) (most : Nat) (d : Dir R) (records : List R) (torn : Bool) : Prop extends
    Holds d records torn where
  replays : ∃ s, replay accept start records = some s
  room : records.length + (if torn then 1 else 0) ≤ most

variable {accept : S → R → Option S} {start s s' : S} {most n : Nat} {d : Dir R} {records : List R} {torn : Bool} {r : R}

theorem replay_append (more : List R) :
    replay accept start (records ++ more) = (replay accept start records).bind fun s => replay accept s more :=
  foldlM_append

theorem replay_snoc (taken : replay accept start records = some s) (next : accept s r = some s') :
    replay accept start (records ++ [r]) = some s' := by
  rw [replay_append,taken]
  simp [replay,next]

theorem replay_cons (more : List R) (next : accept s r = some s') : replay accept s (r :: more) = replay accept s' more := by
  unfold replay
  rw [foldlM_cons,next]
  rfl

theorem empty_sound : Sound accept start most (∅ : Dir R) [] false :=
  ⟨⟨Table.get_empty 0,fun k r no => by simp at no,Table.get_empty 1,fun k _ => Table.get_empty _,rfl⟩,⟨start,rfl⟩,Nat.zero_le most⟩

/-- What a scan finds from the middle of a sound directory on. -/
theorem scan_from (holds : Holds d records torn) (done rest : List R) (split : records = done ++ rest)
    (taken : replay accept s rest = some s') (enough : rest.length + (if torn then 1 else 0) ≤ fuel) :
    scan accept d fuel s done.length = (s',records.length,torn) := by
  induction rest generalizing done s fuel with
  | nil =>
    rw [append_nil] at split
    subst split
    cases Option.some.inj taken
    cases fuel with
    | zero =>
      have whole : torn = false := by
        cases torn with
        | false => rfl
        | true => simp at enough
      subst whole
      rfl
    | succ fuel =>
      unfold scan
      rw [holds.next]
      cases torn with
      | true => rfl
      | false =>
        have same : decide (d.size ≠ records.length) = false := by simp [holds.size]
        simp only [same]
        rfl
  | cons r rest ih =>
    have there := holds.record done.length r (by rw [split]; simp)
    cases fuel with
    | zero => simp at enough
    | succ fuel =>
      cases goes : accept s r with
      | none =>
        unfold replay at taken
        rw [foldlM_cons,goes] at taken
        cases taken
      | some s₁ =>
        rw [replay_cons rest goes] at taken
        have less : rest.length + (if torn then 1 else 0) ≤ fuel := by simp only [length_cons] at enough; omega
        have step := ih (done ++ [r]) (by rw [split]; simp) taken less
        unfold scan
        rw [there]
        simp only [goes]
        rw [length_append] at step
        exact step

theorem scan_sound (sound : Sound accept start most d records torn) (taken : replay accept start records = some s) :
    scan accept d most start 0 = (s,records.length,torn) :=
  scan_from sound.toHolds [] records rfl taken sound.room

/-- Reading without a fault is the plain scan. -/
theorem scanning_clean (fuel : Nat) (s : S) (n : Nat) (d : Dir R) :
    scanning accept fuel s n [] d = (.value (scan accept d fuel s n),[],d) := by
  induction fuel generalizing s n with
  | zero => rfl
  | succ fuel ih =>
    unfold scanning scan
    simp only [Bind.bind,Script.bind,look,id]
    cases d.get (n + 1) with
    | none => rfl
    | some file =>
      cases file with
      | torn => rfl
      | whole r =>
        simp only [Bind.bind,Script.bind,attempt,readFile,headD_nil,tail_nil,Except.toOption,Option.bind_some]
        cases accept s r with
        | none => rfl
        | some s' => exact ih s' (n + 1)

/-- A reader got through the first of the records, and through all of them unless it says
otherwise. -/
def ReadPart (accept : S → R → Option S) (start : S) (records : List R) (torn : Bool) (found : S × Nat × Bool) : Prop :=
  ∃ done more, records = done ++ more ∧ replay accept start done = some found.1 ∧ found.2.1 = done.length ∧
    (found.2.2 = false → more = [] ∧ torn = false)

theorem scanning_from (holds : Holds d records torn) (done rest : List R) (split : records = done ++ rest)
    (replays : ∃ s', replay accept s rest = some s') (taken : replay accept start done = some s)
    (enough : rest.length + (if torn then 1 else 0) ≤ fuel) :
    Meets (fun d' => d' = d) (scanning accept fuel s done.length)
      (fun found d' => d' = d ∧ ReadPart accept start records torn found) (fun d' => d' = d) := by
  have part : ∀ d', d' = d → d' = d ∧ ReadPart accept start records torn (s,done.length,true) := fun d' is_ =>
    ⟨is_,done,rest,split,taken,rfl,fun no => by cases no⟩
  induction rest generalizing done s fuel with
  | nil =>
    rw [append_nil] at split
    subst split
    cases fuel with
    | zero =>
      refine .pure fun d' is_ => ⟨is_,records,[],(append_nil _).symm,taken,rfl,fun _ => ⟨rfl,?_⟩⟩
      cases torn with
      | false => rfl
      | true => simp at enough
    | succ fuel =>
      unfold scanning
      apply Meets.bind (M := fun d₁ d' => d₁ = d ∧ d' = d)
      · exact .look fun d' is_ => ⟨is_,is_⟩
      intro d₁
      refine .assume (fun _ held => held.1) fun same => ?_
      subst same
      rw [holds.next]
      cases torn with
      | true => exact .pure fun d' held => part d' held.2
      | false =>
        refine .pure fun d' held => ⟨held.2,records,[],(append_nil _).symm,taken,rfl,fun _ => ⟨rfl,rfl⟩⟩
  | cons r rest ih =>
    have there := holds.record done.length r (by rw [split]; simp)
    cases fuel with
    | zero => simp at enough
    | succ fuel =>
      unfold scanning
      apply Meets.bind (M := fun d₁ d' => d₁ = d ∧ d' = d)
      · exact .look fun d' is_ => ⟨is_,is_⟩
      intro d₁
      refine .assume (fun _ held => held.1) fun same => ?_
      subst same
      rw [there]
      apply Meets.bind (M := fun got d' => d' = d₁ ∧ (∀ r', got = .ok r' → r' = r))
      · refine .attempt (fun _ held => held.2) (fun d' r' d'' held ran => ?_) (fun d' r' d'' e held ran => ?_) fun d' e held => ?_
        · cases ran
          exact ⟨held.2,fun _ is_ => (Except.ok.inj is_).symm⟩
        · exact ⟨held.2,fun _ no => by cases no⟩
        · exact ⟨held.2,fun _ no => by cases no⟩
      intro got
      refine .assume (fun _ held => held.2) fun own => ?_
      cases got with
      | error e => exact .pure fun d' held => part d' held.1
      | ok r' =>
        cases own r' rfl
        simp only [Except.toOption,Option.bind_some]
        obtain ⟨s',replays⟩ := replays
        cases goes : accept s r with
        | none => exact .pure fun d' held => part d' held.1
        | some s₁ =>
          rw [replay_cons rest goes] at replays
          have length : (done ++ [r]).length = done.length + 1 := by simp
          have less : rest.length + (if torn then 1 else 0) ≤ fuel := by simp only [length_cons] at enough; omega
          have more := ih (done ++ [r]) (by rw [split]; simp) ⟨s',replays⟩ (replay_snoc taken goes) less
            fun d' is_ => ⟨is_,done ++ [r],rest,by rw [split]; simp,replay_snoc taken goes,rfl,fun no => by cases no⟩
          rw [length] at more
          exact more.pre fun d' held => held.1

theorem scanning_meets (sound : Sound accept start most d records torn) :
    Meets (fun d' => d' = d) (scanning accept most start 0)
      (fun found d' => d' = d ∧ ReadPart accept start records torn found) (fun d' => d' = d) :=
  scanning_from sound.toHolds [] records rfl sound.replays rfl sound.room

/-! Writing the next record. -/

theorem put_fresh {file : File R} (holds : Holds d records false) (k : Nat) :
    (d.put (records.length + 1) file).get k = if k = records.length + 1 then some file else d.get k :=
  Table.get_put d _ k file

theorem size_fresh {file : File R} (holds : Holds d records false) :
    (d.put (records.length + 1) file).size = records.length + 1 := by
  have fresh := holds.next
  rw [if_neg Bool.false_ne_true] at fresh
  have before := holds.size
  rw [if_neg Bool.false_ne_true] at before
  rw [Table.size_put,fresh,before]
  rfl

theorem torn_sound (sound : Sound accept start most d records false) (room : records.length < most) :
    Sound accept start most (d.put (records.length + 1) .torn) records true := by
  have holds := sound.toHolds
  refine ⟨⟨?_,fun k r there => ?_,?_,fun k after => ?_,?_⟩,sound.replays,room⟩
  · rw [put_fresh holds,if_neg (by omega)]
    exact holds.first
  · have known := (List.getElem?_eq_some_iff.mp there).1
    rw [put_fresh holds,if_neg (by omega)]
    exact holds.record k r there
  · rw [put_fresh holds,if_pos rfl]
    rfl
  · rw [put_fresh holds,if_neg (by omega)]
    exact holds.beyond k after
  · exact size_fresh holds

theorem whole_sound (sound : Sound accept start most d records false) (room : records.length < most)
    (taken : replay accept start records = some s) (next : accept s r = some s') :
    Sound accept start most (d.put (records.length + 1) (.whole r)) (records ++ [r]) false := by
  have holds := sound.toHolds
  refine ⟨⟨?_,fun k r' there => ?_,?_,fun k after => ?_,?_⟩,⟨s',replay_snoc taken next⟩,by simp; exact room⟩
  · rw [put_fresh holds,if_neg (by omega)]
    exact holds.first
  · rw [put_fresh holds]
    by_cases last : k = records.length
    · subst last
      rw [if_pos rfl]
      simp at there
      rw [there]
    · have known := (List.getElem?_eq_some_iff.mp there).1
      simp only [length_append,length_cons,length_nil] at known
      rw [if_neg (by omega)]
      rw [List.getElem?_append_left (by omega)] at there
      exact holds.record k r' there
  · rw [put_fresh holds,if_neg (by simp),length_append]
    exact holds.beyond (records.length + 1) (Nat.lt_succ_self _)
  · rw [length_append,length_singleton] at after
    rw [put_fresh holds,if_neg (by omega)]
    exact holds.beyond k (by omega)
  · rw [size_fresh holds]
    simp

/-- What a directory may be after a write that was broken off. -/
def Broken (accept : S → R → Option S) (start : S) (most : Nat) (records : List R) (r : R) (d : Dir R) : Prop :=
  ∃ records' torn,Sound accept start most d records' torn ∧ (records' = records ∨ records' = records ++ [r])

/-- A record the reader will take is written, or breaks off leaving a sound directory. -/
theorem writeNew_meets (sound : Sound accept start most d records false) (room : records.length < most)
    (taken : replay accept start records = some s) (next : accept s r = some s') :
    Meets (fun d' => d' = d) (writeNew (records.length + 1) r)
      (fun _ d' => Sound accept start most d' (records ++ [r]) false) (Broken accept start most records r) := by
  have whole := whole_sound sound room taken next
  have started : ∀ d', d' = d → Broken accept start most records r d' := fun d' is_ =>
    ⟨records,false,is_ ▸ sound,.inl rfl⟩
  have opened : ∀ d', d' = d.put (records.length + 1) .torn → Broken accept start most records r d' := fun d' is_ =>
    ⟨records,true,is_ ▸ torn_sound sound room,.inl rfl⟩
  have written : ∀ d', d' = d.put (records.length + 1) (.whole r) → Broken accept start most records r d' := fun d' is_ =>
    ⟨records ++ [r],false,is_ ▸ whole,.inr rfl⟩
  apply Meets.bind (.fallible started)
  intro _
  apply Meets.bind (M := fun _ d' => d' = d.put (records.length + 1) .torn)
  · refine .lasting started (fun d' d'' is_ ran => ?_) opened
    subst is_
    unfold openNew at ran
    have fresh : d'.get (records.length + 1) = none := sound.next
    rw [fresh] at ran
    cases ran
    rfl
  intro _
  apply Meets.bind (M := fun _ d' => d' = d.put (records.length + 1) (.whole r))
  · refine .lasting opened (fun d' d'' is_ ran => ?_) written
    subst is_
    cases ran
    exact Table.put_put_same d _ _ _
  intro _
  exact (Meets.fallible written).post fun _ d' is_ => is_ ▸ whole

end Neurobro.Durable.Journal
