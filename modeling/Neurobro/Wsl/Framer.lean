import Neurobro.Wsl.Contract

/-! Lines out of chunks. A push that fails hands out nothing of its chunk; on a chunk that
completes no more lines than a session has calls, it does what reading byte by byte does. -/
namespace Neurobro.Wsl

open List

structure Framer where
  maxBytes : Nat
  pending : Bytes := []
  failed : Bool := false

/-- One turn of the loop: what is pending, and the lines of this push. -/
def Framer.turn (maxBytes : Nat) (state : Bytes × List Bytes) (segment : Bytes) : Except Code (Bytes × List Bytes) := do
  requireBroker (decide (state.1.length + segment.length ≤ maxBytes)) .frameBudget
  let pending := state.1 ++ segment
  if segment.getLast? = some newline then do
    requireBroker (decide (1 < pending.length)) .emptyFrame
    requireBroker (decide (state.2.length + 1 ≤ defaultLimits.maxCalls)) .frameBudget
    .ok ([],state.2 ++ [pending])
  else do
    requireBroker (decide (state.2.length ≤ defaultLimits.maxCalls)) .frameBudget
    .ok (pending,state.2)

def Framer.push (f : Framer) (chunk : Bytes) : Except Code (List Bytes) × Framer :=
  if f.failed then (.error .framerClosed,f)
  else
    match (segments chunk).foldlM (Framer.turn f.maxBytes) (f.pending,[]) with
    | .ok (pending,frames) => (.ok frames,{ f with pending := pending })
    | .error code => (.error code,{ f with pending := [], failed := true })

/-- The end of the stream. -/
def Framer.end_ (f : Framer) : Except Code Unit := requireBroker f.pending.isEmpty .truncatedFrame

/-- Chunk after chunk until one fails: the lines handed out, and how it stands. -/
def Framer.run (f : Framer) : List Bytes → List Bytes × Except Code Framer
  | [] => ([],.ok f)
  | chunk :: rest =>
    match f.push chunk with
    | (.ok frames,f') => (frames ++ (f'.run rest).1,(f'.run rest).2)
    | (.error code,_) => ([],.error code)

/-! ## Byte by byte -/

/-- The lines of a stream up to its first fault, and the fault or what is left over. -/
def assemble (maxBytes : Nat) (pending : Bytes) : Bytes → List Bytes × Except Code Bytes
  | [] => ([],.ok pending)
  | b :: rest =>
    if maxBytes < pending.length + 1 then ([],.error .frameBudget)
    else if b = newline then
      if pending = [] then ([],.error .emptyFrame)
      else ((pending ++ [b]) :: (assemble maxBytes [] rest).1,(assemble maxBytes [] rest).2)
    else assemble maxBytes (pending ++ [b]) rest

/-- How many lines a chunk completes. -/
def completes (chunk : Bytes) : Nat := chunk.count newline

theorem assemble_plain (maxBytes : Nat) (pending body rest : Bytes) (plain : newline ∉ body)
    (within : pending.length ≤ maxBytes) :
    assemble maxBytes pending (body ++ rest) =
      if maxBytes < pending.length + body.length then ([],.error .frameBudget)
      else assemble maxBytes (pending ++ body) rest := by
  induction body generalizing pending with
  | nil =>
    have fits : ¬maxBytes < pending.length := by omega
    simp [fits]
  | cons b body ih =>
    simp only [mem_cons,not_or] at plain
    rw [cons_append,assemble]
    by_cases full : maxBytes < pending.length + 1
    · rw [if_pos full,if_pos (by simp; omega)]
    · rw [if_neg full,if_neg (Ne.symm plain.1),ih _ plain.2 (by simp; omega)]
      simp only [length_append,length_cons,length_nil,append_assoc,singleton_append,Nat.add_assoc,
        Nat.zero_add,Nat.add_comm 1]

/-- What a push of an open framer comes to, given what byte by byte comes to. -/
def pushed (frames : List Bytes) (read : List Bytes × Except Code Bytes) : Except Code (Bytes × List Bytes) :=
  read.2.map fun pending => (pending,frames ++ read.1)

theorem turn_over {pending segment : Bytes}
    (over_ : maxBytes < pending.length + segment.length) :
    Framer.turn maxBytes (pending,frames) segment = .error .frameBudget := by
  have no : requireBroker (decide (pending.length + segment.length ≤ maxBytes)) .frameBudget = .error .frameBudget :=
    requireBroker_no (decide_eq_false (by omega))
  simp only [Framer.turn,no]
  rfl

theorem turn_plain {pending segment : Bytes}
    (fits : pending.length + segment.length ≤ maxBytes) (plain : newline ∉ segment) (few : frames.length ≤ 32) :
    Framer.turn maxBytes (pending,frames) segment = .ok (pending ++ segment,frames) := by
  have last : ¬segment.getLast? = some newline := fun no => plain (mem_of_getLast? no)
  have room : requireBroker (decide (pending.length + segment.length ≤ maxBytes)) .frameBudget = .ok () :=
    requireBroker_yes (decide_eq_true fits)
  have calls : requireBroker (decide (frames.length ≤ defaultLimits.maxCalls)) .frameBudget = .ok () :=
    requireBroker_yes (decide_eq_true few)
  simp only [Framer.turn,room,last,calls,if_false]
  rfl

theorem turn_line {pending body : Bytes}
    (fits : pending.length + (body ++ [newline]).length ≤ maxBytes) (few : frames.length + 1 ≤ 32) :
    Framer.turn maxBytes (pending,frames) (body ++ [newline]) =
      if pending ++ body = [] then .error .emptyFrame else .ok ([],frames ++ [pending ++ body ++ [newline]]) := by
  have last : (body ++ [newline]).getLast? = some newline := List.getLast?_concat ..
  have room : requireBroker (decide (pending.length + (body ++ [newline]).length ≤ maxBytes)) .frameBudget = .ok () :=
    requireBroker_yes (decide_eq_true fits)
  have calls : requireBroker (decide (frames.length + 1 ≤ defaultLimits.maxCalls)) .frameBudget = .ok () :=
    requireBroker_yes (decide_eq_true few)
  have length : (pending ++ (body ++ [newline])).length = pending.length + body.length + 1 := by
    simp only [length_append,length_singleton,Nat.add_assoc]
  have whole : (pending ++ body).length = pending.length + body.length := length_append
  by_cases none_ : pending ++ body = []
  · have short : requireBroker (decide (1 < (pending ++ (body ++ [newline])).length)) .emptyFrame = .error .emptyFrame := by
      rw [none_,length_nil] at whole
      exact requireBroker_no (decide_eq_false (by omega))
    simp only [Framer.turn,room,last,if_true,short,none_]
    rfl
  · have some_ := length_pos_iff.mpr none_
    have long : requireBroker (decide (1 < (pending ++ (body ++ [newline])).length)) .emptyFrame = .ok () :=
      requireBroker_yes (decide_eq_true (by omega))
    simp only [Framer.turn,room,last,if_true,long,calls,none_,if_false,append_assoc]
    rfl

theorem fold_assemble (maxBytes : Nat) (chunk pending : Bytes) (frames : List Bytes)
    (within : pending.length ≤ maxBytes) (few : frames.length + completes chunk ≤ 32) :
    (segments chunk).foldlM (Framer.turn maxBytes) (pending,frames) = pushed frames (assemble maxBytes pending chunk) := by
  induction n : chunk.length using Nat.strongRecOn generalizing chunk pending frames with
  | _ n ih =>
    rcases chunk_cases chunk with rfl | ⟨b,body,rfl,plain⟩ | ⟨body,rest,rfl,plain⟩
    · simp [segments,assemble,pushed,Except.map]
      rfl
    · have whole := assemble_plain maxBytes pending (b :: body) [] plain within
      rw [append_nil] at whole
      rw [segments_plain b body plain,whole,foldlM_cons]
      by_cases fits : pending.length + (b :: body).length ≤ maxBytes
      · rw [if_neg (by omega),turn_plain fits plain (by omega)]
        simp only [assemble,pushed,Except.map,append_nil]
        rfl
      · rw [if_pos (by omega),turn_over (by omega)]
        rfl
    · rw [segments_line body rest plain,assemble_plain maxBytes pending body (newline :: rest) plain within,foldlM_cons]
      simp only [completes,count_append,count_cons_self] at few
      by_cases fits : pending.length + (body ++ [newline]).length ≤ maxBytes
      · have room : ¬maxBytes < pending.length + body.length := by simp at fits; omega
        have room' : ¬maxBytes < (pending ++ body).length + 1 := by simp at fits ⊢; omega
        rw [turn_line fits (by omega),if_neg room,assemble,if_neg room',if_pos rfl]
        by_cases none_ : pending ++ body = []
        · rw [if_pos none_,if_pos none_]
          rfl
        · rw [if_neg none_,if_neg none_]
          have more := ih rest.length (by rw [← n]; simp; omega) rest [] (frames ++ [pending ++ body ++ [newline]])
            (by simp) (by simp [completes]; omega) rfl
          refine Eq.trans more ?_
          simp only [pushed]
          cases (assemble maxBytes [] rest).2 <;> simp [Except.map]
      · rw [turn_over (by omega)]
        simp only [length_append,length_singleton] at fits
        split
        · rfl
        · rw [assemble,if_pos (by rw [length_append]; omega)]
          rfl

/-- An open framer, between pushes. -/
structure Framer.Ready (f : Framer) : Prop where
  open_ : f.failed = false
  room : 0 < f.maxBytes
  within : f.pending.length ≤ f.maxBytes

/-- What a push answers to a reading of its chunk. -/
def Framer.settle (f : Framer) (read : List Bytes × Except Code Bytes) : Except Code (List Bytes) × Framer :=
  match read.2 with
  | .ok pending => (.ok read.1,{ f with pending := pending })
  | .error code => (.error code,{ f with pending := [], failed := true })

theorem push_assemble {f : Framer} (ready : f.Ready) (few : completes chunk ≤ 32) :
    f.push chunk = f.settle (assemble f.maxBytes f.pending chunk) := by
  rw [Framer.push,ready.open_]
  have fold := fold_assemble f.maxBytes chunk f.pending [] ready.within (by simpa using few)
  simp only [Bool.false_eq_true,if_false,fold,pushed,Framer.settle]
  cases (assemble f.maxBytes f.pending chunk).2 <;> simp [Except.map,ready.open_]

theorem assemble_within {pending chunk rest : Bytes} (within : pending.length ≤ maxBytes)
    (left : (assemble maxBytes pending chunk).2 = .ok rest) : rest.length ≤ maxBytes := by
  induction chunk generalizing pending with
  | nil =>
    cases left
    exact within
  | cons b chunk ih =>
    rw [assemble] at left
    split at left
    · contradiction
    · split at left
      · split at left
        · contradiction
        · exact ih (by simp) left
      · exact ih (by simp; omega) left

/-- Reading on after a part that had no fault. -/
theorem assemble_append {pending first rest left : Bytes}
    (read : (assemble maxBytes pending first).2 = .ok left) :
    assemble maxBytes pending (first ++ rest) =
      ((assemble maxBytes pending first).1 ++ (assemble maxBytes left rest).1,(assemble maxBytes left rest).2) := by
  induction first generalizing pending with
  | nil =>
    cases read
    simp [assemble]
  | cons b first ih =>
    rw [cons_append]
    rw [assemble] at read ⊢
    rw [assemble]
    split
    · rename_i full
      rw [if_pos full] at read
      contradiction
    · rename_i fits
      rw [if_neg fits] at read
      split
      · rename_i line
        rw [if_pos line] at read
        split
        · rename_i empty
          rw [if_pos empty] at read
          contradiction
        · rename_i some_
          rw [if_neg some_] at read
          rw [ih read]
          simp
      · rename_i plain
        rw [if_neg plain] at read
        exact ih read

/-- A fault stays where it is, whatever follows. -/
theorem assemble_fault {pending first rest : Bytes}
    (read : (assemble maxBytes pending first).2 = .error code) :
    assemble maxBytes pending (first ++ rest) = assemble maxBytes pending first := by
  induction first generalizing pending with
  | nil => contradiction
  | cons b first ih =>
    rw [cons_append,assemble,assemble]
    rw [assemble] at read
    split
    · rfl
    · rename_i fits
      rw [if_neg fits] at read
      split
      · rename_i line
        rw [if_pos line] at read
        split
        · rfl
        · rename_i some_
          rw [if_neg some_] at read
          rw [ih read]
      · rename_i plain
        rw [if_neg plain] at read
        exact ih read

/-- Chunk by chunk against byte by byte: the same end, and the same lines but for those of a
chunk that fails. -/
theorem run_assemble {f : Framer} (ready : f.Ready) (few : ∀ chunk ∈ chunks, completes chunk ≤ 32) :
    (f.run chunks).2 = (assemble f.maxBytes f.pending chunks.flatten).2.map (fun pending => { f with pending := pending }) ∧
      (f.run chunks).1 <+: (assemble f.maxBytes f.pending chunks.flatten).1 ∧
      ((∃ f', (f.run chunks).2 = .ok f') → (f.run chunks).1 = (assemble f.maxBytes f.pending chunks.flatten).1) := by
  induction chunks generalizing f with
  | nil =>
    simp [Framer.run,assemble,Except.map]
  | cons chunk rest ih =>
    have first := push_assemble ready (few chunk (by simp))
    rw [Framer.run,first,flatten_cons]
    cases read : (assemble f.maxBytes f.pending chunk).2 with
    | error code =>
      simp only [assemble_fault read,Framer.settle,read]
      exact ⟨rfl,List.nil_prefix,fun ok_ => nomatch ok_.choose_spec⟩
    | ok left =>
      have ready' : Framer.Ready { f with pending := left } := ⟨ready.open_,ready.room,assemble_within ready.within read⟩
      obtain ⟨end_,front,all⟩ := ih ready' fun c in_ => few c (mem_cons_of_mem _ in_)
      simp only [assemble_append read,Framer.settle,read] at end_ front all ⊢
      exact ⟨end_,(prefix_append_right_inj _).mpr front,fun ok_ => by rw [all ok_]⟩

/-- A run that fails has handed out what it had before the chunk that failed. -/
theorem run_failed {f : Framer} (failed : (f.run chunks).2 = .error code) :
    ∃ before chunk after f', chunks = before ++ chunk :: after ∧ f.run before = ((f.run chunks).1,.ok f') ∧
      (f'.push chunk).1 = .error code := by
  induction chunks generalizing f with
  | nil => contradiction
  | cons chunk rest ih =>
    rw [Framer.run] at failed
    rcases pushed : f.push chunk with ⟨frames | frames,f'⟩
    · rw [pushed] at failed
      cases failed
      exact ⟨[],chunk,rest,f,rfl,by rw [Framer.run,Framer.run,pushed],by rw [pushed]⟩
    · rw [pushed] at failed
      obtain ⟨before,next,after,f'',split_,ran,fails⟩ := ih failed
      refine ⟨chunk :: before,next,after,f'',by rw [split_]; rfl,?_,fails⟩
      rw [Framer.run,Framer.run,pushed]
      simp only [ran]

end Neurobro.Wsl
