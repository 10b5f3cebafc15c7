import Neurobro.Durable.Journal

/-! A store over a journal: a directory with a header, the numbered records, and a handle
that has replayed them and appends to them. A handle whose append broke off is spent. -/
namespace Neurobro.Durable.Ledger

open Script Journal

variable {R S H α : Type}

structure Handle (S : Type) where
  state : S
  count : Nat
  tail : Bool := false
  active : Bool := false

/-- The directory and the one handle that is open on it. -/
structure Desk (R S H : Type) where
  made : Bool := false
  header : Option (File H) := none
  dir : Dir R := ∅
  handle : Option (Handle S) := none

def onDir (m : Script (Dir R) α) : Script (Desk R S H) α := zoom Desk.dir (fun d s => { s with dir := d }) m

def setHandle (hd : Handle S) : Script (Desk R S H) Unit := note fun s => { s with handle := some hd }

def mapHandle (f : Handle S → Handle S) (s : Desk R S H) : Desk R S H := { s with handle := s.handle.map f }

def mkdir (s : Desk R S H) : Except String (Unit × Desk R S H) :=
  if s.made then .error "consumed" else .ok ((),{ s with made := true })

def openHeader (s : Desk R S H) : Except String (Unit × Desk R S H) :=
  if s.header.isSome then .error "EEXIST" else .ok ((),{ s with header := some .torn })

def writeHeader (h : H) (s : Desk R S H) : Except String (Unit × Desk R S H) := .ok ((),{ s with header := some (.whole h) })

/-- A new store: its directory, its header, and a handle on nothing. -/
def create (h : H) (start : S) : Script (Desk R S H) Unit := do
  lasting mkdir
  fallible
  lasting openHeader
  lasting (writeHeader h)
  fallible
  setHandle { state := start,count := 0 }

def readHeader (h : H) [DecidableEq H] (s : Desk R S H) : Except String Unit :=
  match s.header with
  | some (.whole h') => if h' = h then .ok () else .error "binding"
  | _ => .error "storage"

/-- The records are replayed. Files that are not the next record close the store for
appending. -/
def reopen (accept : S → R → Option S) (most : Nat) (h : H) [DecidableEq H] (start : S) : Script (Desk R S H) Unit := do
  fallible
  let s ← look id
  lift (readHeader h s)
  fallible
  let found ← onDir (scanning accept most start 0)
  fallible
  setHandle { state := found.1,count := found.2.1,tail := found.2.2 }

def withHandle (body : Handle S → Script (Desk R S H) α) : Script (Desk R S H) α := do
  let s ← look id
  match s.handle with
  | none => Script.throw "closed"
  | some hd => body hd

/-- One call of a handle at a time. -/
def operation (body : Handle S → Script (Desk R S H) α) : Script (Desk R S H) α :=
  withHandle fun hd => do
    guard (hd.active = true) "busy"
    note (mapHandle fun hd => { hd with active := true })
    let a ← rescue (body hd) fun e => do
      note (mapHandle fun hd => { hd with active := false })
      Script.throw e
    note (mapHandle fun hd => { hd with active := false })
    return a

/-- Nothing more is appended through this handle. -/
def poison (e : String) : Script (Desk R S H) α := do
  note (mapHandle fun hd => { hd with tail := true })
  Script.throw e

/-- The files are exactly those of the handle. -/
def matched (hd : Handle S) (s : Desk R S H) : Bool :=
  decide (s.dir.size = hd.count) && (List.range hd.count).all fun k => (s.dir.get (k + 1)).isSome

/-- The files are listed, and they are the ones of the handle. -/
def inventory (hd : Handle S) : Script (Desk R S H) Unit := do
  rescue fallible fun _ => poison "tail"
  let s ← look id
  if matched hd s then return () else poison "tail"

/-- The record is written and the handle takes it as `next`. -/
def commit (hd : Handle S) (r : R) (next : Except String S) : Script (Desk R S H) Unit :=
  rescue (do
    onDir (writeNew (hd.count + 1) r)
    fallible
    let state ← lift next
    note (mapHandle fun hd => { hd with state := state,count := hd.count + 1 })) poison

/-! What a store is at any time. -/

/-- A handle has the first of the records, and all of them unless it is spent. -/
def Live (accept : S → R → Option S) (start : S) (records : List R) (torn : Bool) (hd : Handle S) : Prop :=
  ReadPart accept start records torn (hd.state,hd.count,hd.tail)

/-- The directory is sound and its handle has read it. A handle in the middle of a call
counts only with its process. -/
structure Fits (accept : S → R → Option S) (start : S) (most : Nat) (records : List R) (torn : Bool) (s : Desk R S H) : Prop where
  sound : Sound accept start most s.dir records torn
  live : ∀ hd, s.handle = some hd → hd.active = false → Live accept start records torn hd

variable {accept : S → R → Option S} {start next : S} {most : Nat} {records : List R} {torn : Bool} {s₀ : Desk R S H}
  {hd : Handle S} {r : R} {C : Desk R S H → Prop}

theorem live_ready (live : Live accept start records torn hd) (ready : hd.tail = false) :
    torn = false ∧ replay accept start records = some hd.state ∧ hd.count = records.length := by
  obtain ⟨done,more,split,taken,count,whole⟩ := live
  obtain ⟨rfl,same⟩ := whole ready
  rw [List.append_nil] at split
  subst split
  exact ⟨same,taken,count⟩

/-- What a handle that is opened without a fault finds. -/
def found (accept : S → R → Option S) (most : Nat) (start : S) (s : Desk R S H) : Handle S where
  state := (scan accept s.dir most start 0).1
  count := (scan accept s.dir most start 0).2.1
  tail := (scan accept s.dir most start 0).2.2

theorem found_eq {state : S} (sound : Sound accept start most s₀.dir records torn) (taken : replay accept start records = some state) :
    found accept most start s₀ = { state := state,count := records.length,tail := torn } := by
  unfold found
  rw [scan_sound sound taken]

/-- A store that was closed is opened without a fault. -/
theorem reopen_clean (h : H) [DecidableEq H] (s : Desk R S H) (written : s.header = some (.whole h)) :
    reopen accept most h start [] s = (.value (),[],{ s with handle := some (found accept most start s) }) := by
  have clean : scanning accept most start 0 [] s.dir = (.value (scan accept s.dir most start 0),[],s.dir) :=
    scanning_clean most start 0 s.dir
  simp [reopen,fallible,lasting,step,attempt,Bind.bind,Script.bind,look,lift,readHeader,written,onDir,zoom,clean,setHandle,
    note,found,Script.pure]

/-- A spent handle, with what its broken append may have left in the directory. -/
structure Spent (accept : S → R → Option S) (start : S) (most : Nat) (records : List R) (r : R) (s₀ s : Desk R S H) : Prop where
  broken : Broken accept start most records r s.dir
  same : s = { s₀ with dir := s.dir,handle := s.handle }
  handle : s.handle = s₀.handle.map fun hd => { hd with tail := true }

/-- The process is gone in the middle of an append. -/
structure Died (accept : S → R → Option S) (start : S) (most : Nat) (records : List R) (r : R) (s₀ s : Desk R S H) : Prop where
  broken : Broken accept start most records r s.dir
  same : s = { s₀ with dir := s.dir }

/-- The record was written and taken. -/
structure Committed (accept : S → R → Option S) (start : S) (most : Nat) (records : List R) (r : R) (next : S)
    (s₀ s : Desk R S H) : Prop where
  sound : Sound accept start most s.dir (records ++ [r]) false
  same : s = { s₀ with dir := s.dir,handle := s.handle }
  handle : s.handle = s₀.handle.map fun hd => { hd with state := next,count := hd.count + 1 }

theorem onDir_meets
    (part : Meets (fun d => d = s₀.dir) m Q B) :
    Meets (fun s => s = s₀) (onDir m : Script (Desk R S H) α)
      (fun a s => s = { s₀ with dir := s.dir } ∧ Q a s.dir) fun s => s = { s₀ with dir := s.dir } ∧ B s.dir := by
  apply Meets.zoom
  rintro _ rfl
  exact part.weaken (fun _ is_ => is_) (fun _ _ held => ⟨rfl,held⟩) fun _ held => ⟨rfl,held⟩

theorem poison_runs
    (sound : Sound accept start most s₀.dir records false) :
    Runs (fun s => s = s₀) (poison e) Q (Spent accept start most records r s₀) D := by
  apply Runs.bind (M := fun _ => Spent accept start most records r s₀)
  · refine .note fun s is_ => ?_
    subst is_
    exact ⟨⟨records,false,sound,.inl rfl⟩,rfl,rfl⟩
  intro _
  exact .throw fun _ held => held

theorem inventory_runs (sound : Sound accept start most s₀.dir records false) :
    Runs (fun s => s = s₀) (inventory hd) (fun _ s => s = s₀) (Spent accept start most records r s₀)
      (Died accept start most records r s₀) := by
  have died : ∀ s, s = s₀ → Died accept start most records r s₀ s := by
    rintro s rfl
    exact ⟨⟨records,false,sound,.inl rfl⟩,rfl⟩
  apply Runs.bind (M := fun _ s => s = s₀)
  · apply Runs.rescue (B := fun s => s = s₀)
    · exact (Meets.fallible fun _ is_ => is_).runs.weaken (fun _ is_ => is_) (fun _ _ is_ => is_) (fun _ is_ => is_) died
    · exact fun _ => poison_runs sound
  intro _
  apply Runs.bind (M := fun _ s => s = s₀)
  · exact .look fun _ is_ => is_
  intro s
  exact .ite (fun _ => .pure fun _ is_ => is_) fun _ => poison_runs sound

/-- An append through a handle that has read everything. -/
theorem commit_runs (sound : Sound accept start most s₀.dir records false) (room : records.length < most)
    (taken : replay accept start records = some hd.state) (counted : hd.count = records.length)
    (admitted : accept hd.state r = some next) :
    Runs (fun s => s = s₀) (commit hd r (.ok next)) (fun _ => Committed accept start most records r next s₀)
      (Spent accept start most records r s₀) (Died accept start most records r s₀) := by
  have written : ∀ s, s = { s₀ with dir := s.dir } ∧ Sound accept start most s.dir (records ++ [r]) false →
      Died accept start most records r s₀ s := fun s held => ⟨⟨_,_,held.2,.inr rfl⟩,held.1⟩
  apply Runs.rescue (B := Died accept start most records r s₀)
  · apply Runs.bind (M := fun _ s => s = { s₀ with dir := s.dir } ∧ Sound accept start most s.dir (records ++ [r]) false)
    · rw [counted]
      exact (onDir_meets (writeNew_meets sound room taken admitted)).runs.weaken (fun _ is_ => is_) (fun _ _ held => held)
        (fun s held => ⟨held.2,held.1⟩) fun s held => ⟨held.2,held.1⟩
    intro _
    apply Runs.bind (Meets.fallible written).runs
    intro _
    apply Runs.bind (M := fun state s => state = next ∧ s = { s₀ with dir := s.dir } ∧
      Sound accept start most s.dir (records ++ [r]) false)
    · exact .lift (fun s state held is_ => ⟨(Except.ok.inj is_).symm,held⟩) written
    intro state
    refine .assume (fun _ held => held.1) fun same => ?_
    subst same
    refine .note fun s held => ?_
    have is_ := held.2.1
    refine ⟨held.2.2,?_,?_⟩
    · rw [is_]
      rfl
    · rw [is_]
      rfl
  · intro e
    apply Runs.bind (M := fun _ => Spent accept start most records r s₀)
    · refine .note fun s died => ?_
      have is_ := died.same
      refine ⟨died.broken,?_,?_⟩
      · rw [is_]
        rfl
      · rw [is_]
        rfl
    intro _
    exact .throw fun _ held => held

def activated (s : Desk R S H) : Desk R S H := mapHandle (fun hd => { hd with active := true }) s

def settled (s : Desk R S H) : Desk R S H := mapHandle (fun hd => { hd with active := false }) s

theorem settled_activated (present : s₀.handle = some hd) (idle : hd.active = false) : settled (activated s₀) = s₀ := by
  obtain ⟨made,header,dir,handle⟩ := s₀
  cases present
  obtain ⟨state,count,tail,active⟩ := hd
  cases idle
  rfl

/-- The two ends of a call: the handle is active in between, and for good if the process
dies. -/
theorem operation_runs {body : Handle S → Script (Desk R S H) α}
    (present : s₀.handle = some hd) (idle : hd.active = false) (work : Runs (fun s => s = activated s₀) (body hd) Q T D) :
    Runs (fun s => s = s₀) (operation body) (fun a s => ∃ s', Q a s' ∧ s = settled s') (fun s => ∃ s', T s' ∧ s = settled s') D := by
  apply Runs.bind (M := fun s₁ s => s₁ = s₀ ∧ s = s₀)
  · exact .look fun s is_ => ⟨is_,is_⟩
  intro s₁
  refine .assume (fun _ held => held.1) fun is_ => ?_
  subst is_
  rw [present]
  apply Runs.bind (M := fun _ s => s = s₁)
  · refine .guard (fun _ held _ => held.2) fun s _ busy => ?_
    rw [idle] at busy
    cases busy
  intro _
  apply Runs.bind (M := fun _ s => s = activated s₁)
  · exact .note fun s is_ => by rw [is_]; rfl
  intro _
  apply Runs.bind (M := Q)
  · refine .rescue work fun e => ?_
    apply Runs.bind (M := fun _ s => ∃ s', T s' ∧ s = settled s')
    · exact .note fun s held => ⟨s,held,rfl⟩
    intro _
    exact .throw fun _ held => held
  intro a
  apply Runs.bind (M := fun _ s => ∃ s', Q a s' ∧ s = settled s')
  · exact .note fun s held => ⟨s,held,rfl⟩
  intro _
  exact .pure fun _ held => held

/-- A call without a handle, or while another one is going. -/
theorem operation_refused {body : Handle S → Script (Desk R S H) α} (refused : ∀ hd, s₀.handle = some hd → hd.active = true) :
    Runs (fun s => s = s₀) (operation body) (fun _ _ => False) (fun s => s = s₀) fun _ => False := by
  apply Runs.bind (M := fun s₁ s => s₁ = s₀ ∧ s = s₀)
  · exact .look fun s is_ => ⟨is_,is_⟩
  intro s₁
  refine .assume (fun _ held => held.1) fun is_ => ?_
  subst is_
  cases present : s₁.handle with
  | none => exact .throw fun _ held => held.2
  | some hd =>
    apply Runs.bind (M := fun _ _ => False)
    · exact .guard (fun _ _ clear => clear (refused hd present)) fun _ held _ => held.2
    intro _
    exact .assume (fun _ no => no) fun no => absurd no id

/-! What every call keeps. -/

/-- What a store is after any calls. -/
structure Reached (accept : S → R → Option S) (start : S) (most : Nat) (h : H) (s : Desk R S H) : Prop where
  fits : ∃ records torn, Fits accept start most records torn s
  opened : s.handle.isSome = true → s.header = some (.whole h)
  fresh : s.made = false → s.dir = ∅ ∧ s.header = none

/-- The handle is lost with its process. -/
def fell (s : Desk R S H) : Desk R S H := { s with handle := none }

variable {h : H}

theorem empty_fits : Fits accept start most [] false ({} : Desk R S H) := ⟨empty_sound,fun _ no => by cases no⟩

theorem empty_reached : Reached accept start most h ({} : Desk R S H) :=
  ⟨⟨[],false,empty_fits⟩,fun no => (by cases no),fun _ => ⟨rfl,rfl⟩⟩

theorem fell_reached (reached : Reached accept start most h s) : Reached accept start most h (fell s) := by
  obtain ⟨records,torn,fits⟩ := reached.fits
  exact ⟨⟨records,torn,fits.sound,fun _ no => (by cases no)⟩,fun no => (by cases no),reached.fresh⟩

/-- A store without a directory is made, or stays without records. -/
theorem create_meets (reached : Reached accept start most h s₀) :
    Meets (fun s => s = s₀) (create h start) (fun _ => Reached accept start most h) (Reached accept start most h) := by
  have same : ∀ s, s = s₀ → Reached accept start most h s := fun s is_ => is_ ▸ reached
  let Bare : Desk R S H → Prop := fun s => s.made = true ∧ s.dir = ∅ ∧ s.handle = none
  have bare : ∀ s, Bare s → Reached accept start most h s := by
    rintro s ⟨made,dir,none_⟩
    refine ⟨⟨[],false,by rw [dir]; exact empty_sound,fun _ no => ?_⟩,fun no => ?_,fun no => ?_⟩
    · rw [none_] at no
      cases no
    · rw [none_] at no
      cases no
    · rw [made] at no
      cases no
  apply Meets.bind (M := fun _ => Bare)
  · refine .lasting same (fun s s' is_ ran => ?_) bare
    subst is_
    unfold mkdir at ran
    by_cases made : s.made = true
    · rw [if_pos made] at ran
      cases ran
    · rw [if_neg made] at ran
      cases ran
      obtain ⟨dir,headless⟩ := reached.fresh (Bool.eq_false_iff.mpr made)
      refine ⟨rfl,dir,?_⟩
      cases present : s.handle with
      | none => rfl
      | some hd =>
        have header := reached.opened (by rw [present]; rfl)
        rw [headless] at header
        cases header
  intro _
  apply Meets.bind (.fallible bare)
  intro _
  apply Meets.bind (M := fun _ => Bare)
  · refine .lasting bare (fun s s' held ran => ?_) bare
    unfold openHeader at ran
    split at ran <;> cases ran
    exact held
  intro _
  apply Meets.bind (M := fun _ s => Bare s ∧ s.header = some (.whole h))
  · refine .lasting bare (fun s s' held ran => ?_) fun s held => bare s held.1
    cases ran
    exact ⟨held,rfl⟩
  intro _
  apply Meets.bind (.fallible fun s held => bare s held.1)
  intro _
  refine .note fun s held => ?_
  obtain ⟨⟨made,dir,_⟩,header⟩ := held
  refine ⟨⟨[],false,by rw [dir]; exact empty_sound,fun hd is_ _ => ?_⟩,fun _ => header,fun no => ?_⟩
  · cases is_
    exact ⟨[],[],rfl,rfl,rfl,fun _ => ⟨rfl,rfl⟩⟩
  · rw [made] at no
    cases no

/-- A store is opened, with readings that may fail. -/
theorem reopen_meets [DecidableEq H] (reached : Reached accept start most h s₀) :
    Meets (fun s => s = s₀) (reopen accept most h start) (fun _ => Reached accept start most h) (Reached accept start most h) := by
  have same : ∀ s, s = s₀ → Reached accept start most h s := fun s is_ => is_ ▸ reached
  obtain ⟨records,torn,fits⟩ := reached.fits
  apply Meets.bind (.fallible same)
  intro _
  apply Meets.bind (M := fun s₁ s => s₁ = s₀ ∧ s = s₀)
  · exact .look fun s is_ => ⟨is_,is_⟩
  intro s₁
  refine .assume (fun _ held => held.1) fun is_ => ?_
  subst is_
  apply Meets.bind (M := fun _ s => s = s₁ ∧ s₁.header = some (.whole h))
  · refine .lift (fun s u held ran => ⟨held.2,?_⟩) fun s held => same s held.2
    unfold readHeader at ran
    split at ran
    · rename_i h' header
      split at ran
      · rename_i alike
        rw [header,alike]
      · cases ran
    · cases ran
  intro _
  refine .assume (fun _ held => held.2) fun header => ?_
  apply Meets.bind (.fallible fun s held => same s held.1)
  intro _
  apply Meets.bind (M := fun found s => s = s₁ ∧ ReadPart accept start records torn found)
  · apply Meets.weaken (onDir_meets (scanning_meets fits.sound))
    · exact fun _ held => held.1
    · rintro found s ⟨is_,dir,part⟩
      rw [dir] at is_
      exact ⟨is_,part⟩
    · rintro s ⟨is_,dir⟩
      rw [dir] at is_
      exact same s is_
  intro found
  apply Meets.bind (.fallible fun s held => same s held.1)
  intro _
  refine .note fun s held => ?_
  obtain ⟨rfl,part⟩ := held
  refine ⟨⟨records,torn,fits.sound,fun hd is_ _ => ?_⟩,fun _ => header,reached.fresh⟩
  cases is_
  exact part

section Append
variable {s : Desk R S H} (reached : Reached accept start most h s₀) (present : s₀.handle = some hd)
  (taken : replay accept start records = some hd.state) (counted : hd.count = records.length)

include reached present in
theorem made_still : s₀.made = true := by
  cases made : s₀.made with
  | true => rfl
  | false =>
    have header := reached.opened (by rw [present]; rfl)
    rw [(reached.fresh made).2] at header
    cases header

include reached present taken counted in
theorem committed_reached (admitted : accept hd.state r = some next)
    (committed : Committed accept start most records r next s₀ s) :
    Reached accept start most h (settled s) := by
  have is_ := committed.same
  refine ⟨⟨records ++ [r],false,committed.sound,fun hd' there _ => ?_⟩,fun _ => ?_,fun unmade => ?_⟩
  · simp only [settled,mapHandle,committed.handle,present,Option.map_some,Option.some.injEq] at there
    subst there
    refine ⟨records ++ [r],[],(List.append_nil _).symm,replay_snoc taken admitted,?_,fun _ => ⟨rfl,rfl⟩⟩
    simp [counted]
  · rw [is_]
    exact reached.opened (by rw [present]; rfl)
  · have made := made_still reached present
    rw [is_] at unmade
    simp only [settled,mapHandle,made] at unmade
    cases unmade

include reached present taken counted in
theorem spent_reached (spent : Spent accept start most records r s₀ s) :
    Reached accept start most h (settled s) := by
  have is_ := spent.same
  obtain ⟨records',torn,sound,which⟩ := spent.broken
  refine ⟨⟨records',torn,sound,fun hd' there _ => ?_⟩,fun _ => ?_,fun unmade => ?_⟩
  · simp only [settled,mapHandle,spent.handle,present,Option.map_some,Option.some.injEq] at there
    subst there
    rcases which with rfl | rfl
    · exact ⟨records',[],(List.append_nil _).symm,taken,counted,fun no => by cases no⟩
    · exact ⟨records,[r],rfl,taken,counted,fun no => by cases no⟩
  · rw [is_]
    exact reached.opened (by rw [present]; rfl)
  · have made := made_still reached present
    rw [is_] at unmade
    simp only [settled,mapHandle,made] at unmade
    cases unmade

include reached present in
theorem died_reached (busy : hd.active = true) (died : Died accept start most records r s₀ s) : Reached accept start most h s := by
  have is_ := died.same
  obtain ⟨records',torn,sound,_⟩ := died.broken
  refine ⟨⟨records',torn,sound,fun hd' there idle => ?_⟩,fun _ => ?_,fun unmade => ?_⟩
  · rw [is_] at there
    cases present.symm.trans there
    rw [busy] at idle
    cases idle
  · rw [is_]
    exact reached.opened (by rw [present]; rfl)
  · have made := made_still reached present
    rw [is_] at unmade
    simp only [made] at unmade
    cases unmade

end Append

/-- What is found after a broken append: what there was, or that and the record. -/
theorem found_broken {state : S} (broken : Broken accept start most records r s₀.dir) (taken : replay accept start records = some state)
    (admitted : accept state r = some next) :
    (found accept most start s₀).state = state ∨ (found accept most start s₀).state = next := by
  obtain ⟨records',torn,sound,which⟩ := broken
  rcases which with rfl | rfl
  · rw [found_eq sound taken]
    exact .inl rfl
  · rw [found_eq sound (replay_snoc taken admitted)]
    exact .inr rfl

/-! Between two calls no handle is active. -/

def Idle (s : Desk R S H) : Prop := ∀ hd, s.handle = some hd → hd.active = false

theorem fell_idle (s : Desk R S H) : Idle (fell s) := fun _ no => by cases no

theorem lasting_idle {f : Desk R S H → Except String (Unit × Desk R S H)}
    (same : ∀ s s', f s = .ok ((),s') → s'.handle = s.handle) : Meets Idle (lasting f) (fun _ => Idle) Idle :=
  .lasting (fun _ idle => idle) (fun s s' idle ran hd there => idle hd (by rw [← same s s' ran]; exact there)) fun _ idle => idle

theorem create_idle (h : H) : Meets Idle (create h start : Script (Desk R S H) Unit) (fun _ => Idle) Idle := by
  apply Meets.bind
  · apply lasting_idle
    intro s s' ran
    unfold mkdir at ran
    split at ran <;> cases ran
    rfl
  intro _
  apply Meets.bind (.fallible fun _ idle => idle)
  intro _
  apply Meets.bind
  · apply lasting_idle
    intro s s' ran
    unfold openHeader at ran
    split at ran <;> cases ran
    rfl
  intro _
  apply Meets.bind
  · apply lasting_idle
    intro s s' ran
    cases ran
    rfl
  intro _
  apply Meets.bind (.fallible fun _ idle => idle)
  intro _
  exact .note fun s _ hd is_ => by cases is_; rfl

theorem reopen_idle [DecidableEq H] (h : H) :
    Meets Idle (reopen accept most h start : Script (Desk R S H) Unit) (fun _ => Idle) Idle := by
  apply Meets.bind (.fallible fun _ idle => idle)
  intro _
  apply Meets.bind (M := fun _ => Idle)
  · exact .look fun _ idle => idle
  intro s
  apply Meets.bind (M := fun _ => Idle)
  · exact .lift (fun _ _ idle _ => idle) fun _ idle => idle
  intro _
  apply Meets.bind (.fallible fun _ idle => idle)
  intro _
  apply Meets.bind (M := fun _ => Idle)
  · apply Meets.zoom
    intro s₀ idle
    intro fates d _
    cases outcome : (scanning accept most start 0 fates d).1 <;> exact idle
  intro found
  apply Meets.bind (.fallible fun _ idle => idle)
  intro _
  exact .note fun s _ hd is_ => by cases is_; rfl

theorem settle_idle (s : Desk R S H) : Idle (settled s) := by
  intro hd there
  obtain ⟨hd',_,rfl⟩ := Option.map_eq_some_iff.mp there
  rfl

end Neurobro.Durable.Ledger
