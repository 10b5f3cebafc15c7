import Neurobro.Learning.Board

/-! Every run of the store: revisions count the mutations, what was done once changes nothing a second
time, and what was written is read back. -/
namespace Neurobro.Learning

open List

section Change
variable {h : Host} {site : Site} {limits : Limits} {s next : State} {m : Mutation}

theorem markOf_none (absent : s.prior (mutationRef h site m) = none) :
    ∀ mark ∈ s.marks, mark.mutationRef ≠ mutationRef h site m := by
  have there := prior_mark (s := s) (mutationRef h site m)
  rw [absent] at there
  exact Keyed.get_none.mp there.symm

/-- A change keeps what holds of every state. -/
theorem fine_change (lawful : ∀ text, hex64 (h.sha256 text) = true) (fine : s.Fine)
    (room : s.entries.length ≤ limits.maxEntries) (checked : m.valid = true)
    (planned : plan h site limits s m = .ok (.change (newEntry h site s m) next)) : next.Fine := by
  rcases plan_ok planned with ⟨_,no,_⟩ | ⟨next',is_,absent,_,numbers,revisions,placed⟩
  · contradiction
  cases is_
  have valid := newEntry_valid lawful fine checked numbers revisions
  have board := place_marks fine placed
  have sequence : (newEntry h site s m).mark.sequence = s.sequence + 1 := rfl
  have old : ∀ mark ∈ Keyed.delete (fun mark : Mark => mark.slot) (newEntry h site s m).slot s.marks, mark ∈ s.marks :=
    fun mark member => (Keyed.mem_delete.mp member).1
  constructor
  · intro e member
    rcases place_entries placed e member with rfl | there
    · exact valid
    · exact fine.entries e there
  · intro head member
    rcases place_heads placed head member with there | ⟨e,rfl | there,rfl⟩
    · exact fine.heads head there
    · exact archived_valid valid
    · exact archived_valid (fine.entries e there)
  · rw [(board.map _).nodup_iff,map_cons,nodup_cons]
    refine ⟨?_,Keyed.nodup_delete fine.slots _⟩
    intro known
    obtain ⟨mark,member,same⟩ := mem_map.mp known
    exact (Keyed.mem_delete.mp member).2 same
  · rw [(board.map _).nodup_iff,map_cons,nodup_cons]
    refine ⟨?_,fine.refs.sublist (filter_sublist.map _)⟩
    intro known
    obtain ⟨mark,member,same⟩ := mem_map.mp known
    exact markOf_none absent mark (old mark member) same
  · intro mark member
    rw [place_sequence placed]
    rcases mem_cons.mp (board.mem_iff.mp member) with rfl | there
    · exact Int.le_of_eq sequence
    · have before := fine.passed mark (old mark there)
      omega
  · rw [(board.map _).nodup_iff,map_cons,nodup_cons]
    refine ⟨?_,fine.once.sublist (filter_sublist.map _)⟩
    intro known
    obtain ⟨mark,member,same⟩ := mem_map.mp known
    have before := fine.passed mark (old mark member)
    have same : mark.sequence = s.sequence + 1 := same
    omega
  · exact (place_room fine room placed).2
  · have counts := fine.counts
    rw [place_sequence placed]
    omega

/-- One slot has one revision more, the others have theirs. -/
theorem revision_change (fine : s.Fine) (fine' : next.Fine)
    (placed : place h limits s (newEntry h site s m) = .ok next) (slot : String) :
    next.revision slot = s.revision slot + if slot = m.slot then 1 else 0 := by
  have board := place_marks fine placed
  have found : markAt slot next.marks =
      markAt slot ((newEntry h site s m).mark :: Keyed.delete (·.slot) (newEntry h site s m).slot s.marks) :=
    Keyed.get_perm fine'.slots board slot
  rw [State.revision,found]
  by_cases same : slot = m.slot
  · have here : markAt slot ((newEntry h site s m).mark :: Keyed.delete (·.slot) (newEntry h site s m).slot s.marks) =
        some (newEntry h site s m).mark := markAt_cons_same same.symm
    rw [here,if_pos same,same]
    exact newEntry_revision
  · have there : markAt slot ((newEntry h site s m).mark :: Keyed.delete (·.slot) (newEntry h site s m).slot s.marks) =
        markAt slot s.marks := by
      rw [markAt_cons_other fun is_ => same is_.symm]
      exact Keyed.get_delete same
    rw [there,if_neg same,Int.add_zero]
    rfl

/-- What is expected is what is there. -/
theorem expected_revision (expected : unexpected m.expectedRevision (s.current m.slot) = false) :
    s.revision m.slot = m.expectedRevision.getD 0 := by
  rw [State.revision,← current_mark]
  cases there : s.current m.slot with
  | none =>
    rw [there] at expected
    cases is_ : m.expectedRevision with
    | none => rfl
    | some r =>
      rw [is_] at expected
      contradiction
  | some e =>
    rw [there] at expected
    cases is_ : m.expectedRevision with
    | none =>
      rw [is_] at expected
      contradiction
    | some r =>
      rw [is_] at expected
      have same : e.revision = r := by simpa [unexpected] using expected
      exact same

end Change

/-! A snapshot is read back as the state it was made of. -/

section Restore
variable {site : Site} {limits : Limits} {s : State}

theorem readEntries_written {sequence : Int} {entries : List Entry} (done : List Entry)
    (valid : ∀ e ∈ entries, e.valid = true) (passed : ∀ e ∈ entries, e.sequence ≤ sequence)
    (once : ((done ++ entries).map (·.slot)).Nodup) :
    readEntries sequence done (entries.map Entry.json) = .ok (done ++ entries) := by
  induction entries generalizing done with
  | nil => rw [map_nil,readEntries,append_nil]
  | cons e rest ih =>
    have fresh : ∀ e' ∈ done, e'.slot ≠ e.slot := by
      intro e' member same
      rw [map_append,nodup_append] at once
      exact once.2.2 _ (mem_map_of_mem member) _ (mem_map_of_mem mem_cons_self) same
    have absent : entryAt e.slot done = none := Keyed.get_none.mpr fresh
    have next : Keyed.set (fun e : Entry => e.slot) e done = done ++ [e] := Keyed.set_absent fresh
    have inTime : ¬(sequence < e.sequence ∨ (entryAt e.slot done).isSome = true) := by
      have before := passed e mem_cons_self
      simp only [absent,Option.isSome_none,Bool.false_eq_true,or_false]
      omega
    have later := ih (done ++ [e]) (fun e' member => valid e' (mem_cons_of_mem _ member))
      (fun e' member => passed e' (mem_cons_of_mem _ member)) (by simpa using once)
    rw [append_assoc,singleton_append] at later
    simp only [map_cons,readEntries,entryCopy_json (valid e mem_cons_self),bind,Except.bind,if_neg inTime,next,later]

theorem readHeads_written {sequence : Int} {entries : List Entry} (done : List RetiredHead)
    (valid : ∀ head ∈ heads, head.valid = true) (passed : ∀ head ∈ heads, head.sequence ≤ sequence)
    (apart : ∀ e ∈ entries, ∀ head ∈ heads, e.slot ≠ head.slot) (once : ((done ++ heads).map (·.slot)).Nodup) :
    readHeads sequence entries done (heads.map RetiredHead.json) = .ok (done ++ heads) := by
  induction heads generalizing done with
  | nil => rw [map_nil,readHeads,append_nil]
  | cons head rest ih =>
    have fresh : ∀ head' ∈ done, head'.slot ≠ head.slot := by
      intro head' member same
      rw [map_append,nodup_append] at once
      exact once.2.2 _ (mem_map_of_mem member) _ (mem_map_of_mem mem_cons_self) same
    have absent : headAt head.slot done = none := Keyed.get_none.mpr fresh
    have unkept : entryAt head.slot entries = none := Keyed.get_none.mpr fun e member => apart e member head mem_cons_self
    have next : Keyed.set (fun head : RetiredHead => head.slot) head done = done ++ [head] := Keyed.set_absent fresh
    have inTime : ¬(sequence < head.sequence ∨ (entryAt head.slot entries).isSome = true ∨ (headAt head.slot done).isSome = true) := by
      have before := passed head mem_cons_self
      simp only [absent,unkept,Option.isSome_none,Bool.false_eq_true,or_false]
      omega
    have later := ih (done ++ [head]) (fun head' member => valid head' (mem_cons_of_mem _ member))
      (fun head' member => passed head' (mem_cons_of_mem _ member))
      (fun e member head' there => apart e member head' (mem_cons_of_mem _ there)) (by simpa using once)
    rw [append_assoc,singleton_append] at later
    simp only [map_cons,readHeads,retiredHeadCopy_json (valid head mem_cons_self),bind,Except.bind,if_neg inTime,next,later]

theorem sealed_small {bytes : Nat} (small : bytes ≤ defaultMaxPlain) : ¬maxCipher < History.Recovery.sealedSize bytes := by
  unfold defaultMaxPlain at small
  unfold maxCipher History.Recovery.sealedSize
  omega

/-- The fields of a snapshot. -/
theorem envelope_fields (site : Site) (s : State) :
    record (s.envelopeValue site) ["domain","binding","workspaceId","sequence","entries"] ["retiredHeads"] = .ok (s.envelopeValue site) ∧
      (s.envelopeValue site).field? "domain" = some (.str domain) ∧ (s.envelopeValue site).field? "binding" = some site.binding ∧
      (s.envelopeValue site).field? "workspaceId" = some (.str site.workspaceId) ∧
      (s.envelopeValue site).field? "sequence" = some (History.int s.sequence) ∧
      (s.envelopeValue site).field? "entries" = some (.arr (s.entries.map Entry.json)) ∧
      archivedItems ((s.envelopeValue site).field? "retiredHeads") = .ok (s.retiredHeads.map RetiredHead.json) := by
  unfold State.envelopeValue
  cases none_ : s.retiredHeads with
  | nil => simp [record,Json.field?,archivedItems]
  | cons head rest => simp [record,Json.field?,archivedItems,itemsOf]

/-- A snapshot of a state is read back as that state, or refused as too large. -/
theorem restore_envelope (fine : s.Fine) (site : Site) (limits : Limits) :
    (restore site limits (s.envelopeValue site) = .ok s ∧ s.entries.length ≤ limits.maxEntries ∧
      Json.size History.numberText (s.envelopeValue site) ≤ limits.maxPlaintextBytes) ∨
    (restore site limits (s.envelopeValue site) = .error .storage ∧
      (limits.maxEntries < s.entries.length ∨ limits.maxPlaintextBytes < Json.size History.numberText (s.envelopeValue site))) := by
  obtain ⟨shape,domain_,binding,workspace,sequence,entries,archived⟩ := envelope_fields site s
  have bound : record site.binding ["accountId","peerId"] [] = .ok site.binding := by simp [record,Site.binding]
  have same : sameText (site.binding.field? "accountId") site.accountId = true ∧
      sameText (site.binding.field? "peerId") site.peerId = true := by
    simp [sameText,Site.binding,Json.field?,Json.strictEq,Json.same]
  have sameSelf : ∀ text, sameText (some (.str text)) text = true := fun text => by simp [sameText,Json.strictEq,Json.same]
  have counts : sequenceOf (some (History.int s.sequence)) = .ok s.sequence := by
    have natural : Telegram.natural s.sequence = true := Telegram.natural_iff.mpr fine.counts
    simp [sequenceOf,History.int,natural]
  have passed := fine.passed
  simp only [State.marks,mem_append,mem_map] at passed
  have kept : readEntries s.sequence [] (s.entries.map Entry.json) = .ok s.entries :=
    readEntries_written [] fine.entries (fun e member => passed e.mark (.inl ⟨e,member,rfl⟩)) fine.entrySlots
  have heads : readHeads s.sequence s.entries [] (s.retiredHeads.map RetiredHead.json) = .ok s.retiredHeads :=
    readHeads_written [] fine.heads (fun head member => passed head.mark (.inr ⟨head,member,rfl⟩))
      (fun e member head there => fine.apart member there) fine.headSlots
  have archive := fine.archive
  by_cases small : Json.size History.numberText (s.envelopeValue site) ≤ limits.maxPlaintextBytes
  · have plain : Json.size History.numberText (s.envelopeValue site) ≤ defaultMaxPlain := Nat.le_trans small limits.bytesFit.2
    have size : ¬(maxCipher < History.Recovery.sealedSize (Json.size History.numberText (s.envelopeValue site)) ∨
        defaultMaxPlain < Json.size History.numberText (s.envelopeValue site) ∨
        limits.maxPlaintextBytes < Json.size History.numberText (s.envelopeValue site)) := by
      rintro (over_ | over_ | over_)
      · exact sealed_small plain over_
      · omega
      · omega
    by_cases short : s.entries.length ≤ limits.maxEntries
    · have lengths : ¬(limits.maxEntries < (s.entries.map Entry.json).length ∨
          defaultMaxArchivedRetired < (s.retiredHeads.map RetiredHead.json).length) := by
        simp only [length_map]
        omega
      refine .inl ⟨?_,short,small⟩
      simp only [restore,if_neg size,shape,binding,bound,domain_,workspace,sequence,entries,archived,counts,itemsOf,lengths,if_false,
        kept,heads,same,sameSelf,Option.getD_some,bind,Except.bind,pure,Except.pure,Bool.not_true,Bool.or_self,Bool.false_eq_true]
    · have lengths : limits.maxEntries < (s.entries.map Entry.json).length ∨
          defaultMaxArchivedRetired < (s.retiredHeads.map RetiredHead.json).length := by
        simp only [length_map]
        omega
      refine .inr ⟨?_,.inl (Nat.lt_of_not_le short)⟩
      simp only [restore,if_neg size,shape,binding,bound,domain_,workspace,sequence,entries,archived,counts,itemsOf,lengths,if_true,
        if_false,same,sameSelf,Option.getD_some,bind,Except.bind,pure,Except.pure,Bool.not_true,Bool.or_self,Bool.false_eq_true]
  · refine .inr ⟨?_,.inr (Nat.lt_of_not_le small)⟩
    have size : maxCipher < History.Recovery.sealedSize (Json.size History.numberText (s.envelopeValue site)) ∨
        defaultMaxPlain < Json.size History.numberText (s.envelopeValue site) ∨
        limits.maxPlaintextBytes < Json.size History.numberText (s.envelopeValue site) := .inr (.inr (Nat.lt_of_not_le small))
    simp only [restore,if_pos size,bind,Except.bind]

end Restore

/-! What every run keeps. -/

/-- The state counts what was written: every mutation once, and each beyond what it expected. -/
structure Recorded (log : List Mutation) (s : State) : Prop where
  counted : ∀ slot, s.revision slot = log.countP fun m => decide (m.slot = slot)
  passed : ∀ m ∈ log, m.expectedRevision.getD 0 < s.revision m.slot
  checked : ∀ m ∈ log, m.valid = true

structure Stored (site : Site) (limits : Limits) (disk : Disk) (s : State) : Prop where
  file : disk.file = some (s.envelopeValue site) ∨ disk.file = none ∧ s = {}
  fine : s.Fine
  recorded : Recorded disk.log s
  room : s.entries.length ≤ limits.maxEntries
  bytes : ∀ file, disk.file = some file → Json.size History.numberText file ≤ limits.maxPlaintextBytes

/-- A store that is open, not closed and not broken. -/
def System.Live (sys : System) (hd : Handle) : Prop := sys.handle = some hd ∧ hd.closed = false ∧ hd.broken = false

structure Sound (site : Site) (sys : System) : Prop where
  stored : ∃ s, Stored site {} sys.disk s
  live : ∀ hd, sys.Live hd → sys.disk.residue = false ∧ Stored site hd.limits sys.disk hd.state

/-- Ceilings at least as high. -/
def Limits.le (low high : Limits) : Prop := low.maxEntries ≤ high.maxEntries ∧ low.maxPlaintextBytes ≤ high.maxPlaintextBytes

section Runs
variable {h : Host} {site : Site} {limits : Limits} {sys : System} {hd : Handle} {disk : Disk} {s next : State} {m : Mutation}

theorem Stored.higher (stored : Stored site limits disk s) (higher : limits.le high) : Stored site high disk s where
  file := stored.file
  fine := stored.fine
  recorded := stored.recorded
  room := Nat.le_trans stored.room higher.1
  bytes file there := Nat.le_trans (stored.bytes file there) higher.2

theorem limits_le (limits : Limits) : limits.le {} := ⟨limits.entriesFit.2,limits.bytesFit.2⟩

/-- What is stored is what opening finds. -/
theorem open_stored (stored : Stored site limits disk s) (clean : disk.residue = false) :
    openStandingLearningStore site limits false disk = .ok s := by
  rw [openStandingLearningStore,clean]
  rcases stored.file with there | ⟨absent,rfl⟩
  · rw [there]
    rcases restore_envelope stored.fine site limits with ⟨same,_⟩ | ⟨_,over_⟩
    · exact same
    · have bytes := stored.bytes _ there
      have room := stored.room
      omega
  · rw [absent]
    rfl

/-- What opening finds is what is stored. -/
theorem open_finds (stored : Stored site {} disk s) {found : State}
    (opened : openStandingLearningStore site limits faulty disk = .ok found) :
    disk.residue = false ∧ Stored site limits disk found := by
  unfold openStandingLearningStore at opened
  split at opened
  · contradiction
  · rename_i fit
    simp only [Bool.or_eq_true,not_or,Bool.not_eq_true] at fit
    refine ⟨fit.1,?_⟩
    rcases stored.file with there | ⟨absent,rfl⟩
    · rw [there] at opened
      simp only at opened
      rcases restore_envelope stored.fine site limits with ⟨same,room,bytes⟩ | ⟨refused,_⟩
      · rw [same] at opened
        cases Except.ok.inj opened
        refine ⟨.inl there,stored.fine,stored.recorded,room,fun file is_ => ?_⟩
        rw [there] at is_
        cases Option.some.inj is_
        exact bytes
      · rw [refused] at opened
        contradiction
    · rw [absent] at opened
      cases Except.ok.inj opened
      refine ⟨.inr ⟨absent,rfl⟩,stored.fine,stored.recorded,Nat.zero_le _,fun file is_ => ?_⟩
      rw [absent] at is_
      contradiction

/-- The directory with a new snapshot. -/
def Disk.put (disk : Disk) (snapshot : Json) (m : Mutation) : Disk := { disk with file := some snapshot, log := disk.log ++ [m] }

/-- How writing can end. -/
theorem write_cases (limits : Limits) (fate : Fate) (disk : Disk) (snapshot : Json) (m : Mutation) :
    writeSnapshot limits fate disk snapshot m = (.error .limit,disk) ∨
    writeSnapshot limits fate disk snapshot m = (.error .storage,disk) ∨
    writeSnapshot limits fate disk snapshot m = (.error .storage,{ disk with residue := true }) ∨
    Json.size History.numberText snapshot ≤ limits.maxPlaintextBytes ∧
      (writeSnapshot limits fate disk snapshot m = (.error .storage,disk.put snapshot m) ∨
        writeSnapshot limits fate disk snapshot m = (.ok (),disk.put snapshot m)) := by
  unfold writeSnapshot
  split
  · exact .inr (.inl rfl)
  · split
    · exact .inl rfl
    · rename_i small
      split
      · exact .inl rfl
      · cases fate
        · exact .inr (.inr (.inr ⟨Nat.le_of_not_lt small,.inr rfl⟩))
        · exact .inr (.inl rfl)
        · exact .inr (.inl rfl)
        · exact .inr (.inr (.inl rfl))
        · exact .inr (.inr (.inr ⟨Nat.le_of_not_lt small,.inl rfl⟩))

/-- What a mutation of a live store can do. -/
theorem mutate_cases (h : Host) (site : Site) (hd : Handle) (disk : Disk) (input : Option Mutation) (fate : Fate) :
    (∃ code, mutate h site hd disk input fate = (.error code,⟨disk,some hd⟩) ∧
      (mutationCopy input = .error code ∨ ∃ m, input = some m ∧ m.valid = true ∧ (plan h site hd.limits hd.state m = .error code ∨
        code = .limit ∧ ∃ next, plan h site hd.limits hd.state m = .ok (.change (newEntry h site hd.state m) next)))) ∨
    (∃ m prior, input = some m ∧ m.valid = true ∧ plan h site hd.limits hd.state m = .ok (.repeated prior) ∧
      mutate h site hd disk input fate = ((mutationResult prior true).map .mutated,⟨disk,some hd⟩)) ∨
    (∃ m next, input = some m ∧ m.valid = true ∧
      plan h site hd.limits hd.state m = .ok (.change (newEntry h site hd.state m) next) ∧
      (mutate h site hd disk input fate = (.error .storage,⟨disk,some { hd with broken := true }⟩) ∨
        mutate h site hd disk input fate = (.error .storage,⟨{ disk with residue := true },some { hd with broken := true }⟩) ∨
        Json.size History.numberText (next.envelopeValue site) ≤ hd.limits.maxPlaintextBytes ∧
          (mutate h site hd disk input fate =
              (.error .storage,⟨disk.put (next.envelopeValue site) m,some { hd with broken := true }⟩) ∨
            mutate h site hd disk input fate = ((mutationResult (newEntry h site hd.state m) false).map .mutated,
              ⟨disk.put (next.envelopeValue site) m,some { hd with state := next }⟩)))) := by
  cases copied : mutationCopy input with
  | error code => exact .inl ⟨code,by simp only [mutate,copied],.inl rfl⟩
  | ok m =>
    obtain ⟨is_,valid⟩ := mutationCopy_ok copied
    cases planned : plan h site hd.limits hd.state m with
    | error code => exact .inl ⟨code,by simp only [mutate,copied,planned],.inr ⟨m,is_,valid,.inl planned⟩⟩
    | ok p =>
      rcases plan_ok planned with ⟨prior,rfl,_⟩ | ⟨next,rfl,_⟩
      · exact .inr (.inl ⟨m,prior,is_,valid,planned,by simp only [mutate,copied,planned]⟩)
      · have unfolded : mutate h site hd disk input fate = commit site hd disk m fate (newEntry h site hd.state m) next := by
          simp only [mutate,copied,planned]
        rw [unfolded]
        rcases write_cases hd.limits fate disk (next.envelopeValue site) m with ended | ended | ended | ⟨small,ended | ended⟩
        · exact .inl ⟨.limit,by simp only [commit,ended],.inr ⟨m,is_,valid,.inr ⟨rfl,next,planned⟩⟩⟩
        · exact .inr (.inr ⟨m,next,is_,valid,planned,.inl (by simp only [commit,ended])⟩)
        · exact .inr (.inr ⟨m,next,is_,valid,planned,.inr (.inl (by simp only [commit,ended]))⟩)
        · exact .inr (.inr ⟨m,next,is_,valid,planned,.inr (.inr ⟨small,.inl (by simp only [commit,ended])⟩)⟩)
        · exact .inr (.inr ⟨m,next,is_,valid,planned,.inr (.inr ⟨small,.inr (by simp only [commit,ended])⟩)⟩)

/-- A change is counted with the mutation that made it. -/
theorem recorded_change (lawful : ∀ text, hex64 (h.sha256 text) = true) (fine : s.Fine)
    (room : s.entries.length ≤ limits.maxEntries) (checked : m.valid = true) (recorded : Recorded log s)
    (planned : plan h site limits s m = .ok (.change (newEntry h site s m) next)) : Recorded (log ++ [m]) next := by
  have fine' := fine_change lawful fine room checked planned
  rcases plan_ok planned with ⟨_,no,_⟩ | ⟨next',is_,_,expected,_,_,placed⟩
  · contradiction
  cases is_
  have counts := revision_change fine fine' placed
  constructor
  · intro slot
    rw [counts,recorded.counted,countP_append,countP_singleton]
    by_cases same : slot = m.slot
    · simp [same]
    · have other : ¬m.slot = slot := fun is_ => same is_.symm
      simp [same,other]
  · intro m' member
    rw [counts]
    rcases mem_append.mp member with before | now
    · have passed := recorded.passed m' before
      split <;> omega
    · rw [mem_singleton.mp now,if_pos rfl,expected_revision expected]
      omega
  · intro m' member
    rcases mem_append.mp member with before | now
    · exact recorded.checked m' before
    · rw [mem_singleton.mp now]
      exact checked

theorem stored_change (lawful : ∀ text, hex64 (h.sha256 text) = true) (stored : Stored site limits disk s) (checked : m.valid = true)
    (planned : plan h site limits s m = .ok (.change (newEntry h site s m) next))
    (small : Json.size History.numberText (next.envelopeValue site) ≤ limits.maxPlaintextBytes) :
    Stored site limits (disk.put (next.envelopeValue site) m) next where
  file := .inl rfl
  fine := fine_change lawful stored.fine stored.room checked planned
  recorded := recorded_change lawful stored.fine stored.room checked stored.recorded planned
  room := by
    rcases plan_ok planned with ⟨_,no,_⟩ | ⟨next',is_,_,_,_,_,placed⟩
    · contradiction
    · cases is_
      exact (place_room stored.fine stored.room placed).1
  bytes file there := by
    cases Option.some.inj there
    exact small

/-- Only a mutation of a live store does more than answer, or close. -/
theorem call_cases (h : Host) (site : Site) (hd : Handle) (disk : Disk) (call : Call) :
    (∃ input fate, call = .mutate input fate ∧ hd.closed = false ∧ hd.broken = false ∧
      hd.call h site disk call = mutate h site hd disk input fate) ∨
    (hd.call h site disk call).2 = ⟨disk,some hd⟩ ∨
    (call = .close ∧ hd.call h site disk call = (.ok .closed,⟨disk,some { hd with closed := true, state := {} }⟩)) := by
  unfold Handle.call
  by_cases closed : hd.closed = true
  · rw [if_pos closed]
    exact .inr (.inl rfl)
  · have open_ : hd.closed = false := Bool.eq_false_iff.mpr closed
    rw [if_neg closed]
    cases call with
    | mutate input fate =>
      by_cases broken : hd.broken = true
      · refine .inr (.inl ?_)
        simp only [broken,if_true]
      · refine .inl ⟨input,fate,rfl,open_,Bool.eq_false_iff.mpr broken,?_⟩
        simp only [broken]
        rfl
    | close => exact .inr (.inr ⟨rfl,rfl⟩)
    | read _ _ _ => exact .inr (.inl rfl)
    | list _ _ _ => exact .inr (.inl rfl)
    | duplicates _ _ _ _ _ => exact .inr (.inl rfl)
    | usage _ => exact .inr (.inl rfl)

theorem not_live_closed (is_ : sys.handle = some hd) (closed : hd.closed = true) : ¬sys.Live hd' := by
  rintro ⟨other,open_,_⟩
  rw [is_] at other
  cases Option.some.inj other
  rw [closed] at open_
  contradiction

theorem not_live_broken (is_ : sys.handle = some hd) (broken : hd.broken = true) : ¬sys.Live hd' := by
  rintro ⟨other,_,well⟩
  rw [is_] at other
  cases Option.some.inj other
  rw [broken] at well
  contradiction

theorem sound_mutate (lawful : ∀ text, hex64 (h.sha256 text) = true) (sound : Sound site sys) (live : sys.Live hd)
    (input : Option Mutation) (fate : Fate) : Sound site (mutate h site hd sys.disk input fate).2 := by
  obtain ⟨clean,stored⟩ := sound.live hd live
  obtain ⟨is_,open_,well⟩ := live
  have same : (⟨sys.disk,some hd⟩ : System) = sys := by rw [← is_]
  have breaks : ∀ disk : Disk, (∃ s, Stored site {} disk s) → Sound site ⟨disk,some { hd with broken := true }⟩ :=
    fun disk stored' => ⟨stored',fun hd' live' => absurd live' (not_live_broken rfl rfl)⟩
  rcases mutate_cases h site hd sys.disk input fate with ⟨_,done,_⟩ | ⟨_,_,_,_,_,done⟩ | ⟨m,next,_,checked,planned,ended⟩
  · rw [done,same]
    exact sound
  · rw [done,same]
    exact sound
  · rcases ended with done | done | ⟨small,done | done⟩
    · rw [done]
      exact breaks _ sound.stored
    · rw [done]
      obtain ⟨s,file,fine,recorded,room,bytes⟩ := sound.stored
      exact breaks _ ⟨s,file,fine,recorded,room,bytes⟩
    · rw [done]
      exact breaks _ ⟨next,(stored_change lawful stored checked planned small).higher (limits_le _)⟩
    · have stored' := stored_change lawful stored checked planned small
      rw [done]
      refine ⟨⟨next,stored'.higher (limits_le _)⟩,?_⟩
      rintro hd' ⟨other,_,_⟩
      cases Option.some.inj other
      exact ⟨clean,stored'⟩

theorem sound_step (lawful : ∀ text, hex64 (h.sha256 text) = true) (sound : Sound site sys) (op : Op) :
    Sound site (step h site sys op).2 := by
  cases op with
  | open_ limits faulty =>
    rw [step]
    split
    · exact ⟨sound.stored,fun hd live => by cases live.1⟩
    · rename_i found opened
      obtain ⟨s,stored⟩ := sound.stored
      obtain ⟨clean,stored'⟩ := open_finds stored opened
      refine ⟨⟨s,stored⟩,?_⟩
      rintro hd ⟨is_,_,_⟩
      cases Option.some.inj is_
      exact ⟨clean,stored'⟩
  | call call =>
    rw [step]
    split
    · exact sound
    · rename_i hd is_
      have same : (⟨sys.disk,some hd⟩ : System) = sys := by rw [← is_]
      rcases call_cases h site hd sys.disk call with ⟨input,fate,_,open_,well,done⟩ | done | ⟨_,done⟩
      · rw [done]
        exact sound_mutate lawful sound ⟨is_,open_,well⟩ input fate
      · rw [done,same]
        exact sound
      · rw [done]
        exact ⟨sound.stored,fun hd' live => absurd live (not_live_closed rfl rfl)⟩

/-- Every run. -/
theorem sound_after (lawful : ∀ text, hex64 (h.sha256 text) = true) (site : Site) (ops : List Op) : Sound site (after h site ops) := by
  unfold after
  have start : Sound site {} := by
    refine ⟨⟨{},.inr ⟨rfl,rfl⟩,fine_empty,⟨fun _ => rfl,fun _ no => (by cases no),fun _ no => (by cases no)⟩,Nat.zero_le _,fun _ no => by cases no⟩,?_⟩
    intro hd live
    cases live.1
  generalize ({} : System) = sys at start
  induction ops generalizing sys with
  | nil => exact start
  | cons op rest ih => exact ih _ (sound_step lawful start op)

end Runs

/-! What is promised of every state a run can reach. -/

section Promises
variable (h : Host) (site : Site) (sys : System)

def submitted (m : Mutation) (fate : Fate) : Reply × System := step h site sys (.call (.mutate (some m) fate))

/-- The revision of a slot is the number of mutations written for it, and a mutation that is answered as a new
one is one more for its slot and none for any other. -/
structure Linear : Prop where
  counted : ∀ hd, sys.Live hd → ∀ slot, hd.state.revision slot = sys.disk.log.countP fun m => decide (m.slot = slot)
  grows : ∀ m fate result, (submitted h site sys m fate).1 = .ok (.mutated result) → result.idempotent = false →
    ∃ hd hd', sys.Live hd ∧ (submitted h site sys m fate).2.Live hd' ∧ (submitted h site sys m fate).2.disk.log = sys.disk.log ++ [m] ∧
      result.revision = hd.state.revision m.slot + 1 ∧
      ∀ slot, hd'.state.revision slot = hd.state.revision slot + if slot = m.slot then 1 else 0

/-- What was written once changes nothing again, and is told apart from what is new. -/
structure ReplaySafe : Prop where
  unchanged : ∀ m ∈ sys.disk.log, ∀ fate, (submitted h site sys m fate).2 = sys
  told : ∀ m ∈ sys.disk.log, ∀ fate hd, sys.Live hd → (submitted h site sys m fate).1 = .error .conflict ∨
    ∃ result, (submitted h site sys m fate).1 = .ok (.mutated result) ∧ result.idempotent = true
  lasting : ∀ op, sys.disk.log <+: (step h site sys op).2.disk.log

/-- A refusal leaves everything as it was, or the store refuses every later call until it is opened again. -/
structure Refuses : Prop where
  refused : ∀ call code, (step h site sys (.call call)).1 = .error code → (step h site sys (.call call)).2 = sys ∨
    ∃ hd, sys.Live hd ∧ code = .storage ∧ (step h site sys (.call call)).2.handle = some { hd with broken := true }
  broken : ∀ hd, sys.handle = some hd → hd.broken = true → ∀ call, call ≠ .close →
    (step h site sys (.call call)).2 = sys ∧ ∃ code, (step h site sys (.call call)).1 = .error code

/-- Opening again gives the same notes and archived heads; where a failed write left no file behind, it gives
what was written last. -/
structure Reopens : Prop where
  live : ∀ hd, sys.Live hd → ∀ limits, hd.limits.le limits → openStandingLearningStore site limits false sys.disk = .ok hd.state
  stored : sys.disk.residue = false → ∃ s, openStandingLearningStore site {} false sys.disk = .ok s ∧
    ∀ slot, s.revision slot = sys.disk.log.countP fun m => decide (m.slot = slot)

end Promises

section Kept
variable {h : Host} {site : Site} {sys : System} {hd : Handle} {s : State} {m : Mutation}

theorem mutationResult_ok {entry : Entry} (fits : textFits entry.retired entry.text = true) (idempotent : Bool) :
    ∃ result, mutationResult entry idempotent = .ok result ∧ result.idempotent = idempotent ∧ result.revision = entry.revision := by
  cases retired : entry.retired with
  | true => exact ⟨_,by simp only [mutationResult,retired,if_true]; rfl,rfl,rfl⟩
  | false =>
    rw [retired] at fits
    cases text : entry.text with
    | none =>
      rw [text] at fits
      contradiction
    | some t => exact ⟨_,by simp only [mutationResult,noteView,retired,text]; rfl,rfl,rfl⟩

theorem prior_fits (fine : s.Fine) {prior : Entry} (found : s.prior ref = some prior) :
    textFits prior.retired prior.text = true := by
  rcases mem_append.mp (mem_of_find?_eq_some found) with kept | archived
  · have valid := fine.entries prior kept
    simp only [Entry.valid,Bool.and_eq_true] at valid
    exact valid.1.1
  · obtain ⟨head,_,rfl⟩ := mem_map.mp archived
    rfl

theorem live_call (live : sys.Live hd) (m : Mutation) (fate : Fate) :
    submitted h site sys m fate = mutate h site hd sys.disk (some m) fate := by
  obtain ⟨is_,open_,well⟩ := live
  simp only [submitted,step,is_,Handle.call,open_,well,Bool.false_eq_true,if_false]

/-- Without a live store a mutation changes nothing and is refused. -/
theorem dead_call (h : Host) (site : Site) (dead : ¬∃ hd, sys.Live hd) (m : Mutation) (fate : Fate) :
    (submitted h site sys m fate).2 = sys ∧ ∃ code, (submitted h site sys m fate).1 = .error code := by
  unfold submitted step
  cases is_ : sys.handle with
  | none => exact ⟨rfl,_,rfl⟩
  | some hd =>
    have same : (⟨sys.disk,some hd⟩ : System) = sys := by rw [← is_]
    by_cases closed : hd.closed = true
    · simp only [Handle.call,closed,if_true,same]
      exact ⟨trivial,_,rfl⟩
    · by_cases broken : hd.broken = true
      · simp only [Handle.call,closed,broken,if_true,if_false,same,Bool.false_eq_true]
        exact ⟨trivial,_,rfl⟩
      · exact absurd ⟨hd,is_,Bool.eq_false_iff.mpr closed,Bool.eq_false_iff.mpr broken⟩ dead

/-- What was written is no longer expected. -/
theorem plan_written (recorded : Recorded sys.disk.log s) (member : m ∈ sys.disk.log) {limits : Limits} {next : State}
    {entry : Entry} : plan h site limits s m ≠ .ok (.change entry next) := by
  intro planned
  rcases plan_ok planned with ⟨_,no,_⟩ | ⟨_,_,_,expected,_⟩
  · contradiction
  · have same := expected_revision expected
    have passed := recorded.passed m member
    omega

/-- What a mutation that was written before comes to. -/
theorem plan_replayed (recorded : Recorded sys.disk.log s) (member : m ∈ sys.disk.log) {limits : Limits}
    (refused : plan h site limits s m = .error code) : code = .conflict := by
  have passed := recorded.passed m member
  have unexpected_ : unexpected m.expectedRevision (s.current (slotFor m.scope m.actorId m.key)) = true := by
    by_contra expected
    have same := expected_revision (Bool.eq_false_iff.mpr expected)
    omega
  unfold plan at refused
  split at refused
  · split at refused
    · exact (Except.error.inj refused).symm
    · contradiction
  · rw [if_pos unexpected_] at refused
    exact (Except.error.inj refused).symm

theorem linear_of_sound (lawful : ∀ text, hex64 (h.sha256 text) = true) (sound : Sound site sys) : Linear h site sys where
  counted hd live := (sound.live hd live).2.recorded.counted
  grows m fate result answered fresh := by
    by_cases some_ : ∃ hd, sys.Live hd
    · obtain ⟨hd,live⟩ := some_
      obtain ⟨clean,stored⟩ := sound.live hd live
      rw [live_call live] at answered ⊢
      rcases mutate_cases h site hd sys.disk (some m) fate with ⟨_,done,_⟩ | ⟨m',prior,is_,_,planned,done⟩ | ⟨m',next,is_,checked,planned,ended⟩
      · rw [done] at answered
        contradiction
      · cases Option.some.inj is_
        rcases plan_ok planned with ⟨_,same,known,_⟩ | ⟨_,no,_⟩
        · cases same
          obtain ⟨result',given,told,_⟩ := mutationResult_ok (prior_fits stored.fine known) true
          rw [done,given] at answered
          cases answered
          rw [told] at fresh
          contradiction
        · contradiction
      · cases Option.some.inj is_
        rcases ended with done | done | ⟨small,done | done⟩
        · rw [done] at answered
          contradiction
        · rw [done] at answered
          contradiction
        · rw [done] at answered
          contradiction
        · have stored' := stored_change lawful stored checked planned small
          rcases plan_ok planned with ⟨_,no,_⟩ | ⟨next',is_,_,_,numbers,revisions,placed⟩
          · contradiction
          cases is_
          have valid := newEntry_valid lawful stored.fine checked numbers revisions
          simp only [Entry.valid,Bool.and_eq_true] at valid
          obtain ⟨result',given,_,revision⟩ := mutationResult_ok valid.1.1 false
          rw [done,given] at answered
          cases answered
          rw [done]
          refine ⟨hd,{ hd with state := next },live,⟨rfl,live.2⟩,rfl,?_,revision_change stored.fine stored'.fine placed⟩
          rw [revision,newEntry_revision]
    · obtain ⟨_,_,refused⟩ := dead_call h site some_ m fate
      rw [refused] at answered
      contradiction

theorem log_kept {sys sys' : System} (same : sys'.disk.log = sys.disk.log) : sys.disk.log <+: sys'.disk.log := by
  simp [same]

theorem log_step (h : Host) (site : Site) (sys : System) (op : Op) : sys.disk.log <+: (step h site sys op).2.disk.log := by
  cases op with
  | open_ limits faulty =>
    apply log_kept
    simp only [step]
    split <;> rfl
  | call call =>
    simp only [step]
    split
    · exact log_kept rfl
    · rename_i hd is_
      rcases call_cases h site hd sys.disk call with ⟨input,fate,_,_,_,done⟩ | done | ⟨_,done⟩
      · simp only [done]
        rcases mutate_cases h site hd sys.disk input fate with ⟨_,done,_⟩ | ⟨_,_,_,_,_,done⟩ | ⟨m,next,_,_,_,ended⟩
        · exact log_kept (by simp only [done])
        · exact log_kept (by simp only [done])
        · rcases ended with done | done | ⟨_,done | done⟩
          · exact log_kept (by simp only [done,Disk.put])
          · exact log_kept (by simp only [done,Disk.put])
          · simp only [done]
            exact prefix_append _ _
          · simp only [done]
            exact prefix_append _ _
      · exact log_kept (by simp only [done])
      · exact log_kept (by simp only [done])

theorem replays_of_sound (sound : Sound site sys) : ReplaySafe h site sys := by
  have each : ∀ m ∈ sys.disk.log, ∀ fate hd, sys.Live hd → (submitted h site sys m fate).2 = sys ∧
      ((submitted h site sys m fate).1 = .error .conflict ∨
        ∃ result, (submitted h site sys m fate).1 = .ok (.mutated result) ∧ result.idempotent = true) := by
    intro m member fate hd live
    have stored := (sound.live hd live).2
    have same : (⟨sys.disk,some hd⟩ : System) = sys := by rw [← live.1]
    have valid := stored.recorded.checked m member
    rw [live_call live]
    rcases mutate_cases h site hd sys.disk (some m) fate with ⟨code,done,why⟩ | ⟨m',prior,is_,_,planned,done⟩ | ⟨m',next,is_,_,planned,_⟩
    · have conflict : code = .conflict := by
        rcases why with refused | ⟨m',is_,_,refused | ⟨_,next,planned⟩⟩
        · rw [mutationCopy,if_pos valid] at refused
          contradiction
        · cases Option.some.inj is_
          exact plan_replayed stored.recorded member refused
        · cases Option.some.inj is_
          exact absurd planned (plan_written stored.recorded member)
      rw [done,same,conflict]
      exact ⟨rfl,.inl rfl⟩
    · cases Option.some.inj is_
      rw [done,same]
      rcases plan_ok planned with ⟨_,same,known,_⟩ | ⟨_,no,_⟩
      · cases same
        obtain ⟨result,given,told,_⟩ := mutationResult_ok (prior_fits stored.fine known) true
        rw [given]
        exact ⟨rfl,.inr ⟨result,rfl,told⟩⟩
      · contradiction
    · cases Option.some.inj is_
      exact absurd planned (plan_written stored.recorded member)
  constructor
  · intro m member fate
    by_cases some_ : ∃ hd, sys.Live hd
    · obtain ⟨hd,live⟩ := some_
      exact (each m member fate hd live).1
    · exact (dead_call h site some_ m fate).1
  · exact fun m member fate hd live => (each m member fate hd live).2
  · exact log_step h site sys

theorem refuses_of_sound (sound : Sound site sys) (lawful : ∀ text, hex64 (h.sha256 text) = true) : Refuses h site sys where
  refused call code answered := by
    cases is_ : sys.handle with
    | none =>
      simp only [step,is_]
      exact .inl trivial
    | some hd =>
      have same : (⟨sys.disk,some hd⟩ : System) = sys := by rw [← is_]
      have called : step h site sys (.call call) = hd.call h site sys.disk call := by simp only [step,is_]
      rw [called] at answered ⊢
      rcases call_cases h site hd sys.disk call with ⟨input,fate,_,open_,well,done⟩ | done | ⟨_,done⟩
      · have live : sys.Live hd := ⟨is_,open_,well⟩
        obtain ⟨clean,stored⟩ := sound.live hd live
        rw [done] at answered ⊢
        rcases mutate_cases h site hd sys.disk input fate with ⟨_,done,_⟩ | ⟨_,_,_,_,_,done⟩ | ⟨m,next,_,checked,planned,ended⟩
        · rw [done,same]
          exact .inl rfl
        · rw [done,same]
          exact .inl rfl
        · rcases ended with done | done | ⟨_,done | done⟩
          · rw [done] at answered ⊢
            exact .inr ⟨hd,live,(Except.error.inj answered).symm,rfl⟩
          · rw [done] at answered ⊢
            exact .inr ⟨hd,live,(Except.error.inj answered).symm,rfl⟩
          · rw [done] at answered ⊢
            exact .inr ⟨hd,live,(Except.error.inj answered).symm,rfl⟩
          · rcases plan_ok planned with ⟨_,no,_⟩ | ⟨_,_,_,_,numbers,revisions,_⟩
            · contradiction
            · have valid := newEntry_valid lawful stored.fine checked numbers revisions
              simp only [Entry.valid,Bool.and_eq_true] at valid
              obtain ⟨_,given,_⟩ := mutationResult_ok valid.1.1 false
              rw [done,given] at answered
              contradiction
      · rw [done,same]
        exact .inl rfl
      · rw [done] at answered
        contradiction
  broken hd is_ broken call other := by
    have same : (⟨sys.disk,some hd⟩ : System) = sys := by rw [← is_]
    have called : step h site sys (.call call) = hd.call h site sys.disk call := by simp only [step,is_]
    rw [called]
    unfold Handle.call
    by_cases closed : hd.closed = true
    · rw [if_pos closed,same]
      cases call with
      | close => exact absurd rfl other
      | _ => exact ⟨rfl,_,rfl⟩
    · rw [if_neg closed]
      cases call with
      | close => exact absurd rfl other
      | _ =>
        simp only [broken,if_true,same]
        exact ⟨trivial,_,rfl⟩

theorem reopens_of_sound (sound : Sound site sys) : Reopens site sys where
  live hd live limits higher := by
    obtain ⟨clean,stored⟩ := sound.live hd live
    exact open_stored (stored.higher higher) clean
  stored clean := by
    obtain ⟨s,stored⟩ := sound.stored
    exact ⟨s,open_stored stored clean,stored.recorded.counted⟩

end Kept

/-- Notes are linear and replay-safe: in every state a run can reach, over any calls of any actors, any failing
writes and any openings. -/
theorem linear_and_replay_safe (h : Host) (lawful : ∀ text, hex64 (h.sha256 text) = true) (site : Site) (ops : List Op) :
    Linear h site (after h site ops) ∧ ReplaySafe h site (after h site ops) ∧ Refuses h site (after h site ops) ∧
      Reopens site (after h site ops) := by
  have sound := sound_after lawful site ops
  exact ⟨linear_of_sound lawful sound,replays_of_sound sound,refuses_of_sound sound lawful,reopens_of_sound sound⟩

/-! One note, saved and saved again. -/

def plainSite : Site where
  accountId := "1000"
  peerId := "-100200"
  workspaceId := "team"

def plainNote : Mutation where
  actorId := "42"
  requestRef := "req-1"
  messageId := 7
  callRef := "call-1"
  action := .save
  scope := .self
  key := "tone"
  expectedRevision := none
  kind := some .preference
  text := some "Be brief."

/-- The digests of the two texts of this note. -/
def plainHost : Host where
  sha256 text :=
    if text = "[\"DecadansNeurobro/standing-learning-store/v1\",\"team\",\x7b\"accountId\":\"1000\",\"peerId\":\"-100200\"\x7d,\"42\",\"req-1\",7,\"call-1\"]"
    then "d3d442120481f41dba43a568eaa03e361649ff16f5d5f1b8999cbb9427977517"
    else if text = "[\"save\",\"self\",\"tone\",null,\"preference\",\"Be brief.\"]"
    then "5c523f595984f711d7b290bae00592064ea3fc3f312a2ecbeab235219f3278a3"
    else "e3b0c44298fc1c149afbf4c8996fb92427ae41e4649b934ca495991b7852b855"
  fold := id
  words text := [text]
  localeCompare a b := if a = b then 0 else if a < b then -1 else 1
  localeSame _ := if_pos rfl

theorem plainHost_digests : ∀ text, hex64 (plainHost.sha256 text) = true := by
  intro text
  simp only [plainHost]
  split
  · exact (Telegram.hexRef_ofList _ _ _).trans (by decide +kernel)
  · split <;> exact (Telegram.hexRef_ofList _ _ _).trans (by decide +kernel)

def plainRun : List Op := [.open_ {} false,.call (.mutate (some plainNote) .fine),.call (.mutate (some plainNote) .fine)]

theorem linear_and_replay_safe_plain : (Linear plainHost plainSite (after plainHost plainSite plainRun) ∧
    ReplaySafe plainHost plainSite (after plainHost plainSite plainRun) ∧ Refuses plainHost plainSite (after plainHost plainSite plainRun) ∧
      Reopens plainSite (after plainHost plainSite plainRun)) ∧
    (after plainHost plainSite plainRun).disk.log = [plainNote] :=
  ⟨linear_and_replay_safe plainHost plainHost_digests plainSite plainRun,by decide +kernel⟩

end Neurobro.Learning
