import Neurobro.Learning.Store

/-! The board behind the store: for every slot one mark with its newest revision, whether the note
is kept in full or archived. A mutation replaces one mark, and what it answers can be read off
the board; where the mark is kept is of no matter. -/
namespace Neurobro.Learning

/-- What there is about a slot: its head and, unless it is retired, its text and where that came from. -/
structure Mark extends RetiredHead where
  body : Option (String × Provenance)
  deriving DecidableEq

def RetiredHead.mark (head : RetiredHead) : Mark := { head with body := none }

def Entry.mark (entry : Entry) : Mark :=
  { entry.toRetiredHead with body := if entry.retired then none else some (entry.text.getD "",entry.provenance) }

def State.marks (s : State) : List Mark := s.entries.map Entry.mark ++ s.retiredHeads.map RetiredHead.mark

@[simp] theorem mark_slot (entry : Entry) : entry.mark.slot = entry.slot := rfl

@[simp] theorem head_mark_slot (head : RetiredHead) : head.mark.slot = head.slot := rfl

theorem archived_mark (head : RetiredHead) : (archivedAsEntry head).mark = head.mark := rfl

theorem retired_mark {entry : Entry} (retired : entry.retired = true) : entry.toRetiredHead.mark = entry.mark := by
  simp [RetiredHead.mark,Entry.mark,retired]

def markAt (slot : String) (marks : List Mark) : Option Mark := Keyed.get (·.slot) slot marks

def markOf (ref : String) (marks : List Mark) : Option Mark := Keyed.get (·.mutationRef) ref marks

theorem markAt_cons_same {slot : String} {mark : Mark} {marks : List Mark} (same : mark.slot = slot) :
    markAt slot (mark :: marks) = some mark := by
  simp [markAt,Keyed.get,same]

theorem markAt_cons_other {slot : String} {mark : Mark} {marks : List Mark} (apart : mark.slot ≠ slot) :
    markAt slot (mark :: marks) = markAt slot marks := by
  simp [markAt,Keyed.get,apart]

/-- What holds of the state of every store. -/
structure State.Fine (s : State) : Prop where
  entries : ∀ entry ∈ s.entries, entry.valid = true
  heads : ∀ head ∈ s.retiredHeads, head.valid = true
  slots : (s.marks.map (·.slot)).Nodup
  refs : (s.marks.map (·.mutationRef)).Nodup
  passed : ∀ mark ∈ s.marks, mark.sequence ≤ s.sequence
  once : (s.marks.map (·.sequence)).Nodup
  archive : s.retiredHeads.length ≤ defaultMaxArchivedRetired
  counts : 0 ≤ s.sequence ∧ s.sequence ≤ 9007199254740991

theorem fine_empty : State.Fine {} := by
  constructor <;> simp [State.marks]

theorem State.Fine.entrySlots {s : State} (fine : s.Fine) : (s.entries.map (·.slot)).Nodup := by
  have all := fine.slots
  rw [State.marks,List.map_append,List.nodup_append] at all
  simpa [Function.comp_def] using all.1

theorem State.Fine.headSlots {s : State} (fine : s.Fine) : (s.retiredHeads.map (·.slot)).Nodup := by
  have all := fine.slots
  rw [State.marks,List.map_append,List.nodup_append] at all
  simpa [Function.comp_def] using all.2.1

/-- A slot is not both kept and archived. -/
theorem State.Fine.apart {s : State} (fine : s.Fine) {entry : Entry} (kept : entry ∈ s.entries)
    (archived : head ∈ s.retiredHeads) : entry.slot ≠ head.slot := by
  have all := fine.slots
  rw [State.marks,List.map_append,List.nodup_append] at all
  apply all.2.2
  · simp only [List.map_map,List.mem_map]
    exact ⟨entry,kept,rfl⟩
  · simp only [List.map_map,List.mem_map]
    exact ⟨head,archived,rfl⟩

/-! The lookups of the store and of the board agree. -/

section Lookup
variable {s : State}

theorem entryAt_mark (slot : String) (entries : List Entry) :
    markAt slot (entries.map Entry.mark) = (entryAt slot entries).map Entry.mark := Keyed.get_map fun _ => rfl

theorem headAt_mark (slot : String) (heads : List RetiredHead) :
    markAt slot (heads.map RetiredHead.mark) = (headAt slot heads).map RetiredHead.mark := Keyed.get_map fun _ => rfl

theorem current_mark (slot : String) : (s.current slot).map Entry.mark = markAt slot s.marks := by
  have split : markAt slot s.marks =
      (markAt slot (s.entries.map Entry.mark)).or (markAt slot (s.retiredHeads.map RetiredHead.mark)) := Keyed.get_append
  rw [split,entryAt_mark,headAt_mark,State.current]
  cases entryAt slot s.entries with
  | some e => rfl
  | none => cases headAt slot s.retiredHeads <;> rfl

theorem prior_mark (ref : String) : (s.prior ref).map Entry.mark = markOf ref s.marks := by
  have all : s.marks = (s.entries ++ s.retiredHeads.map archivedAsEntry).map Entry.mark := by
    rw [State.marks,List.map_append,List.map_map]
    rfl
  have found : markOf ref ((s.entries ++ s.retiredHeads.map archivedAsEntry).map Entry.mark) =
      (Keyed.get (fun entry : Entry => entry.mutationRef) ref (s.entries ++ s.retiredHeads.map archivedAsEntry)).map Entry.mark :=
    Keyed.get_map fun _ => rfl
  rw [all,found]
  rfl

end Lookup

/-! Where an entry is put. -/

section Place
variable {h : Host} {limits : Limits} {s next : State} {entry : Entry}

theorem sorted_perm {α : Type} (compare : α → α → Int) (items : List α) : (sorted compare items).Perm items :=
  List.perm_insertionSort _ items

theorem reclaim_some {entries : List Entry} (found : reclaim h entries = some old) :
    old ∈ entries ∧ old.retired = true := by
  have member := (sorted_perm _ _).mem_iff.mp (List.mem_of_mem_head? (Option.mem_def.mpr found))
  exact List.mem_filter.mp member

/-- A head that is not there need not be taken away. -/
theorem left_archived (slot : String) (heads : List RetiredHead) :
    (if (headAt slot heads).isSome then Keyed.delete (·.slot) slot heads else heads) = Keyed.delete (·.slot) slot heads := by
  split
  · rfl
  · rename_i absent
    rw [Keyed.delete_absent (Keyed.get_none.mp (Option.not_isSome_iff_eq_none.mp absent))]

/-- The three ways to put an entry in its place. -/
theorem place_cases (placed : place h limits s entry = .ok next) :
    (entry.retired = true ∧ (headAt entry.slot s.retiredHeads).isSome ∧
      next = { s with retiredHeads := Keyed.set (·.slot) entry.toRetiredHead (Keyed.delete (·.slot) entry.slot s.retiredHeads),
                      sequence := s.sequence + 1 }) ∨
    (∃ old, reclaim h s.entries = some old ∧ entryAt entry.slot s.entries = none ∧
      (Keyed.delete (·.slot) entry.slot s.retiredHeads).length < defaultMaxArchivedRetired ∧
      next = { entries := Keyed.set (·.slot) entry (Keyed.delete (·.slot) old.slot s.entries),
               retiredHeads := Keyed.set (·.slot) old.toRetiredHead (Keyed.delete (·.slot) entry.slot s.retiredHeads),
               sequence := s.sequence + 1 }) ∨
    (((entryAt entry.slot s.entries).isSome ∨ s.entries.length < limits.maxEntries) ∧
      next = { entries := Keyed.set (·.slot) entry s.entries,
               retiredHeads := Keyed.delete (·.slot) entry.slot s.retiredHeads, sequence := s.sequence + 1 }) := by
  simp only [place,left_archived] at placed
  split at placed
  · rename_i both
    exact .inl ⟨both.2,both.1,(Except.ok.inj placed).symm⟩
  · split at placed
    · rename_i full
      split at placed
      · contradiction
      · rename_i old found
        obtain ⟨room,placed⟩ := guard_eq_ok.mp placed
        exact .inr (.inl ⟨old,found,Option.isNone_iff_eq_none.mp full.1,Nat.lt_of_not_le room,(Except.ok.inj placed).symm⟩)
    · rename_i fits
      refine .inr (.inr ⟨?_,(Except.ok.inj placed).symm⟩)
      cases found : entryAt entry.slot s.entries with
      | some e => exact .inl rfl
      | none =>
        rw [found] at fits
        exact .inr (Nat.lt_of_not_le fun full => fits ⟨rfl,full⟩)

theorem place_error (refused : place h limits s entry = .error code) : code = .limit := by
  simp only [place,left_archived] at refused
  split at refused
  · contradiction
  · split at refused
    · split at refused
      · exact (Except.error.inj refused).symm
      · split at refused
        · exact (Except.error.inj refused).symm
        · contradiction
    · contradiction

theorem marks_delete (slot : String) (entries : List Entry) (heads : List RetiredHead) :
    Keyed.delete (·.slot) slot (entries.map Entry.mark ++ heads.map RetiredHead.mark) =
      (Keyed.delete (·.slot) slot entries).map Entry.mark ++ (Keyed.delete (·.slot) slot heads).map RetiredHead.mark := by
  have kept : Keyed.delete (fun mark : Mark => mark.slot) slot (entries.map Entry.mark) =
      (Keyed.delete (·.slot) slot entries).map Entry.mark := Keyed.delete_map fun _ => rfl
  have archived : Keyed.delete (fun mark : Mark => mark.slot) slot (heads.map RetiredHead.mark) =
      (Keyed.delete (·.slot) slot heads).map RetiredHead.mark := Keyed.delete_map fun _ => rfl
  rw [Keyed.delete_append,kept,archived]

/-- However it is put there, the board has one mark for the slot and what it had for all others. -/
theorem place_marks (fine : s.Fine) (placed : place h limits s entry = .ok next) :
    next.marks.Perm (entry.mark :: Keyed.delete (·.slot) entry.slot s.marks) := by
  have headSlots := Keyed.nodup_delete fine.headSlots entry.slot
  rw [State.marks,State.marks,marks_delete]
  rcases place_cases placed with ⟨retired,archived,rfl⟩ | ⟨old,found,absent,_,rfl⟩ | ⟨_,rfl⟩
  · obtain ⟨head,known⟩ := Option.isSome_iff_exists.mp archived
    obtain ⟨there,same⟩ := Keyed.get_some known
    have none_ : Keyed.delete (·.slot) entry.slot s.entries = s.entries := by
      apply Keyed.delete_absent
      intro e member
      rw [← same]
      exact fine.apart member there
    have put := (Keyed.set_perm headSlots entry.toRetiredHead).map RetiredHead.mark
    rw [Keyed.delete_delete,List.map_cons,retired_mark retired] at put
    rw [none_]
    exact (put.append_left _).trans List.perm_middle
  · obtain ⟨member,retired⟩ := reclaim_some found
    have none_ : Keyed.delete (·.slot) entry.slot s.entries = s.entries := Keyed.delete_absent (Keyed.get_none.mp absent)
    have otherSlot : ∀ e ∈ Keyed.delete (fun e : Entry => e.slot) old.slot s.entries, e.slot ≠ entry.slot :=
      fun e there => Keyed.get_none.mp absent e (Keyed.mem_delete.mp there).1
    have apart : ∀ head ∈ Keyed.delete (fun head : RetiredHead => head.slot) entry.slot s.retiredHeads, head.slot ≠ old.slot :=
      fun head there => (fine.apart member (Keyed.mem_delete.mp there).1).symm
    have kept : (s.entries.map Entry.mark).Perm
        (old.mark :: (Keyed.delete (fun e : Entry => e.slot) old.slot s.entries).map Entry.mark) :=
      (Keyed.perm_delete fine.entrySlots member).map Entry.mark
    rw [Keyed.set_absent otherSlot,Keyed.set_absent (x := old.toRetiredHead) apart,none_,List.map_append,List.map_append,
      List.map_singleton,List.map_singleton,retired_mark retired]
    refine List.Perm.trans ?_ ((kept.append_right _).cons entry.mark).symm
    rw [List.append_assoc,List.singleton_append]
    refine List.perm_middle.trans (List.Perm.cons _ ?_)
    rw [← List.append_assoc]
    exact List.perm_append_comm.trans (List.Perm.refl _)
  · have put := (Keyed.set_perm fine.entrySlots entry).map Entry.mark
    exact put.append_right _

theorem place_sequence (placed : place h limits s entry = .ok next) : next.sequence = s.sequence + 1 := by
  rcases place_cases placed with ⟨_,_,rfl⟩ | ⟨_,_,_,_,rfl⟩ | ⟨_,rfl⟩ <;> rfl

theorem mem_of_set {α K : Type} [DecidableEq K] {key : α → K} {x y : α} {l : List α} (member : y ∈ Keyed.set key x l) :
    y = x ∨ y ∈ l := by
  induction l with
  | nil => exact .inl (List.mem_singleton.mp member)
  | cons z rest ih =>
    rw [Keyed.set] at member
    split at member
    · exact (List.mem_cons.mp member).imp_right (List.mem_cons_of_mem _)
    · rcases List.mem_cons.mp member with rfl | later
      · exact .inr List.mem_cons_self
      · exact (ih later).imp_right (List.mem_cons_of_mem _)

theorem place_entries (placed : place h limits s entry = .ok next) : ∀ e ∈ next.entries, e = entry ∨ e ∈ s.entries := by
  intro e member
  rcases place_cases placed with ⟨_,_,rfl⟩ | ⟨_,_,_,_,rfl⟩ | ⟨_,rfl⟩
  · exact .inr member
  · exact (mem_of_set member).imp_right fun there => (Keyed.mem_delete.mp there).1
  · exact mem_of_set member

theorem place_heads (placed : place h limits s entry = .ok next) : ∀ head ∈ next.retiredHeads,
    head ∈ s.retiredHeads ∨ ∃ e, (e = entry ∨ e ∈ s.entries) ∧ head = e.toRetiredHead := by
  intro head member
  rcases place_cases placed with ⟨_,_,rfl⟩ | ⟨old,found,_,_,rfl⟩ | ⟨_,rfl⟩
  · rcases mem_of_set member with rfl | there
    · exact .inr ⟨entry,.inl rfl,rfl⟩
    · exact .inl (Keyed.mem_delete.mp there).1
  · rcases mem_of_set member with rfl | there
    · exact .inr ⟨old,.inr (reclaim_some found).1,rfl⟩
    · exact .inl (Keyed.mem_delete.mp there).1
  · exact .inl (Keyed.mem_delete.mp member).1

theorem set_length_le {α K : Type} [DecidableEq K] (key : α → K) (x : α) (l : List α) : (Keyed.set key x l).length ≤ l.length + 1 := by
  rw [Keyed.length_set]
  split <;> omega

/-- No ceiling is passed. -/
theorem place_room (fine : s.Fine) (room : s.entries.length ≤ limits.maxEntries) (placed : place h limits s entry = .ok next) :
    next.entries.length ≤ limits.maxEntries ∧ next.retiredHeads.length ≤ defaultMaxArchivedRetired := by
  have archive := fine.archive
  rcases place_cases placed with ⟨_,archived,rfl⟩ | ⟨old,found,_,fits,rfl⟩ | ⟨fits,rfl⟩
  · have fewer := Keyed.length_delete_lt archived
    have put := set_length_le (fun head : RetiredHead => head.slot) entry.toRetiredHead
      (Keyed.delete (fun head : RetiredHead => head.slot) entry.slot s.retiredHeads)
    refine ⟨room,?_⟩
    show (Keyed.set _ _ _).length ≤ _
    omega
  · obtain ⟨member,_⟩ := reclaim_some found
    have known : (Keyed.get (fun e : Entry => e.slot) old.slot s.entries).isSome := by
      rw [Keyed.get_mem fine.entrySlots member]
      rfl
    have fewer := Keyed.length_delete_lt known
    have put := set_length_le (fun e : Entry => e.slot) entry (Keyed.delete (fun e : Entry => e.slot) old.slot s.entries)
    have put' := set_length_le (fun head : RetiredHead => head.slot) old.toRetiredHead
      (Keyed.delete (fun head : RetiredHead => head.slot) entry.slot s.retiredHeads)
    constructor
    · show (Keyed.set _ _ _).length ≤ _
      omega
    · show (Keyed.set _ _ _).length ≤ _
      omega
  · have fewer : (Keyed.delete (fun head : RetiredHead => head.slot) entry.slot s.retiredHeads).length ≤ s.retiredHeads.length :=
      Keyed.length_delete
    have put : (Keyed.set (fun e : Entry => e.slot) entry s.entries).length =
        if (entryAt entry.slot s.entries).isSome then s.entries.length else s.entries.length + 1 := Keyed.length_set entry
    refine ⟨?_,by
      show (Keyed.delete _ _ _).length ≤ _
      omega⟩
    show (Keyed.set _ _ _).length ≤ _
    rw [put]
    rcases fits with known | space
    · rw [if_pos known]
      exact room
    · split <;> omega

/-- What is valid in full is valid once archived: a note of the team has no owner in either. -/
theorem archived_valid {e : Entry} (valid : e.valid = true) : e.toRetiredHead.valid = true := by
  simp only [Entry.valid,RetiredHead.fits,Bool.and_eq_true,decide_eq_true_eq] at valid
  obtain ⟨_,⟨⟨⟨⟨⟨⟨key,owner⟩,revision⟩,sequence⟩,ref⟩,hash⟩,slot⟩⟩ := valid
  simp only [RetiredHead.valid,RetiredHead.fits,key,owner,revision,sequence,ref,hash,Bool.true_and,decide_eq_true_eq]
  rw [slot]
  cases scope : e.scope with
  | team => rfl
  | self =>
    rw [scope] at owner
    cases is_ : e.ownerActorId with
    | none =>
      rw [is_] at owner
      contradiction
    | some actor => rfl

end Place

/-! What a mutation comes to, read off the board. -/

def Mutation.slot (m : Mutation) : String := slotFor m.scope m.actorId m.key

/-- The mark a mutation leaves. -/
def markFor (h : Host) (site : Site) (current : Option Mark) (sequence : Int) (m : Mutation) : Mark :=
  { slot := m.slot, key := m.key, scope := m.scope
    ownerActorId := if m.scope = .self then some m.actorId else none
    kind := (if m.action = .retire then current.map (·.kind) else m.kind).getD .preference
    revision := (current.map (·.revision)).getD 0 + 1
    sequence, mutationRef := mutationRef h site m, mutationHash := mutationHash h m
    body := if m.action = .retire then none
      else some (m.text.getD "",{ requestRef := m.requestRef, messageId := m.messageId, actorId := m.actorId }) }

section Plan
variable {h : Host} {site : Site} {limits : Limits} {s next : State} {m : Mutation}

theorem newEntry_mark (h : Host) (site : Site) (s : State) (m : Mutation) :
    (newEntry h site s m).mark = markFor h site (markAt m.slot s.marks) (s.sequence + 1) m := by
  rw [← current_mark]
  simp only [newEntry,Entry.mark,markFor,Mutation.slot,Option.map_map]
  congr 1
  by_cases retire : m.action = .retire <;> simp [retire]

/-- The newest revision of a slot, 0 where there was never one. -/
def State.revision (s : State) (slot : String) : Int := ((markAt slot s.marks).map (·.revision)).getD 0

theorem newEntry_revision : (newEntry h site s m).revision = s.revision m.slot + 1 := by
  have same := congrArg (·.revision) (newEntry_mark h site s m)
  exact same

theorem plan_ok (planned : plan h site limits s m = .ok p) :
    (∃ prior, p = .repeated prior ∧ s.prior (mutationRef h site m) = some prior ∧ prior.mutationHash = mutationHash h m ∧
      prior.slot = m.slot) ∨
    (∃ next, p = .change (newEntry h site s m) next ∧ s.prior (mutationRef h site m) = none ∧
      unexpected m.expectedRevision (s.current m.slot) = false ∧ s.sequence < 9007199254740991 ∧
      Telegram.safeInteger (newEntry h site s m).revision = true ∧ place h limits s (newEntry h site s m) = .ok next) := by
  unfold plan at planned
  cases known : s.prior (mutationRef h site m) with
  | some prior =>
    rw [known] at planned
    obtain ⟨same,planned⟩ := guard_eq_ok.mp planned
    obtain ⟨sameHash,sameSlot⟩ := not_or.mp same
    exact .inl ⟨prior,(Except.ok.inj planned).symm,rfl,not_not.mp sameHash,not_not.mp sameSlot⟩
  | none =>
    rw [known] at planned
    obtain ⟨expected,planned⟩ := guard_eq_ok.mp planned
    obtain ⟨numbers,planned⟩ := guard_eq_ok.mp planned
    obtain ⟨revisions,planned⟩ := guard_eq_ok.mp planned
    obtain ⟨next,placed,is_⟩ := map_ok planned
    exact .inr ⟨next,is_.symm,rfl,Bool.eq_false_iff.mpr expected,Int.lt_of_not_ge numbers,Bool.eq_true_of_not_eq_false revisions,placed⟩

theorem plan_error (refused : plan h site limits s m = .error code) : code = .conflict ∨ code = .limit := by
  unfold plan at refused
  cases known : s.prior (mutationRef h site m) with
  | some prior =>
    rw [known] at refused
    simp only at refused
    split at refused
    · exact .inl (Except.error.inj refused).symm
    · contradiction
  | none =>
    rw [known] at refused
    simp only at refused
    split at refused
    · exact .inl (Except.error.inj refused).symm
    · split at refused
      · exact .inr (Except.error.inj refused).symm
      · split at refused
        · exact .inr (Except.error.inj refused).symm
        · exact .inr (place_error (map_error refused))

theorem mutationCopy_ok {input : Option Mutation} (copied : mutationCopy input = .ok m) : input = some m ∧ m.valid = true := by
  cases input with
  | none => contradiction
  | some m' =>
    rw [mutationCopy] at copied
    split at copied
    · cases Except.ok.inj copied
      exact ⟨rfl,‹_›⟩
    · contradiction

/-- What is written for a checked mutation is valid. -/
theorem newEntry_valid (lawful : ∀ text, hex64 (h.sha256 text) = true) (fine : s.Fine) (checked : m.valid = true)
    (numbers : s.sequence < 9007199254740991) (revisions : Telegram.safeInteger (newEntry h site s m).revision = true) :
    (newEntry h site s m).valid = true := by
  have low : 1 ≤ (newEntry h site s m).revision := by
    rw [newEntry_revision,State.revision]
    cases there : markAt m.slot s.marks with
    | none => exact Int.le_refl _
    | some mark =>
      have positive : 1 ≤ mark.revision := by
        obtain ⟨member,_⟩ := Keyed.get_some there
        rcases List.mem_append.mp member with kept | archived
        · obtain ⟨e,inside,rfl⟩ := List.mem_map.mp kept
          have valid := fine.entries e inside
          simp only [Entry.valid,RetiredHead.fits,revisionValid,Bool.and_eq_true,decide_eq_true_eq] at valid
          exact valid.2.1.1.1.1.2.2
        · obtain ⟨head,inside,rfl⟩ := List.mem_map.mp archived
          have valid := fine.heads head inside
          simp only [RetiredHead.valid,RetiredHead.fits,revisionValid,Bool.and_eq_true,decide_eq_true_eq] at valid
          exact valid.1.1.1.1.2.2
      show 1 ≤ mark.revision + 1
      omega
  have sequence : revisionValid (s.sequence + 1) = true := by
    have counts := fine.counts
    simp only [revisionValid,Telegram.safeInteger,Bool.and_eq_true,decide_eq_true_eq]
    omega
  have revision : revisionValid (newEntry h site s m).revision = true := by
    simp [revisionValid,revisions,low]
  simp only [Mutation.valid,Bool.and_eq_true] at checked
  obtain ⟨⟨⟨⟨⟨⟨actor,request⟩,message⟩,_⟩,key⟩,_⟩,action⟩ := checked
  have provenance : (newEntry h site s m).provenance.valid = true := by
    simp [Provenance.valid,newEntry,request,message,actor]
  have owner : ownerFits m.scope (if m.scope = .self then some m.actorId else none) = true := by
    cases m.scope <;> simp [ownerFits,actor]
  have slot : (newEntry h site s m).slot = slotFor m.scope
      ((if m.scope = .self then some m.actorId else none).getD m.actorId) m.key := by
    cases scope : m.scope <;> simp [newEntry,scope]
  have text : textFits (newEntry h site s m).retired (newEntry h site s m).text = true := by
    cases is_ : m.action with
    | retire => simp [textFits,newEntry,is_]
    | save =>
      simp only [Mutation.actionFits,is_,Bool.and_eq_true] at action
      simp [textFits,newEntry,is_,action.2]
  have fit : (newEntry h site s m).toRetiredHead.fits (newEntry h site s m).provenance.actorId = true := by
    have ref : hex64 (mutationRef h site m) = true := lawful _
    have hash : hex64 (mutationHash h m) = true := lawful _
    simp only [RetiredHead.fits,revision,slot,Bool.and_true]
    simp [newEntry,key,owner,sequence,ref,hash]
  simp [Entry.valid,text,provenance,fit]

end Plan

end Neurobro.Learning
