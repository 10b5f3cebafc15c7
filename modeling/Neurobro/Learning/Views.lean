import Neurobro.Learning.Conduct

/-! Two stores that are alike to an actor: the marks of the team and the actor's own agree but for the
numbers under which they came, and came in the same order. What is done to the others' private
notes keeps them alike, and so does what is done to both. -/
namespace Neurobro.Learning

open List

/-! Whose slot it is. -/

theorem digits_of_decimal (is_ : Telegram.decimal cs = true) : ∀ c ∈ cs, c.isDigit = true := by
  cases cs with
  | nil => contradiction
  | cons c rest =>
    simp only [Telegram.decimal,Bool.and_eq_true,all_eq_true] at is_
    intro c' member
    rcases mem_cons.mp member with rfl | later
    · exact is_.1.1.1
    · exact is_.1.2 c' later

/-- The digits before a colon. -/
theorem takeWhile_digits (rest : List Char) (digits : ∀ c ∈ cs, c.isDigit = true) :
    (cs ++ ':' :: rest).takeWhile Char.isDigit = cs := by
  induction cs with
  | nil => rfl
  | cons c cs ih =>
    rw [cons_append,takeWhile_cons_of_pos (digits c mem_cons_self),
      ih fun c' member => digits c' (mem_cons_of_mem _ member)]

theorem slotFor_self (digits : Telegram.userId a = true) (digits' : Telegram.userId a' = true)
    (same : slotFor .self a k = slotFor .self a' k') : a = a' := by
  have texts := congrArg String.toList same
  have colon : ":".toList = [':'] := rfl
  simp only [slotFor,String.toList_append,append_assoc,append_cancel_left_eq,colon,singleton_append] at texts
  have first := takeWhile_digits k.toList (digits_of_decimal digits)
  have second := takeWhile_digits k'.toList (digits_of_decimal digits')
  rw [texts,second] at first
  exact String.toList_inj.mp first.symm

theorem slotFor_team : slotFor .team a k ≠ slotFor .self a' k' := by
  intro same
  have texts := congrArg String.toList same
  have team : "team:".toList = ['t','e','a','m',':'] := rfl
  have self_ : "self:".toList = ['s','e','l','f',':'] := rfl
  simp [slotFor,String.toList_append,team,self_] at texts

/-- The slots of the team and the actor's own. -/
def slotShown (actorId : String) (scope : Scope) (holder : String) : Bool := decide (scope = .team) || decide (holder = actorId)

def Mutation.shownTo (actorId : String) (m : Mutation) : Bool := slotShown actorId m.scope m.actorId

section Whose
variable {s : State} {mark : Mark} {actorId holder key : String} {scope : Scope}

theorem marks_fit (fine : s.Fine) (member : mark ∈ s.marks) : ∃ actor, mark.toRetiredHead.fits actor = true := by
  rcases mem_append.mp member with kept | archived
  · obtain ⟨e,inside,rfl⟩ := mem_map.mp kept
    have valid := fine.entries e inside
    simp only [Entry.valid,Bool.and_eq_true] at valid
    exact ⟨_,valid.2⟩
  · obtain ⟨head,inside,rfl⟩ := mem_map.mp archived
    exact ⟨_,fine.heads head inside⟩

/-- A mark is seen by those who see its slot. -/
theorem mark_shown (fine : s.Fine) (member : mark ∈ s.marks) (actor : Telegram.userId holder = true)
    (same : mark.slot = slotFor scope holder key) : visibleTo actorId mark.toRetiredHead = slotShown actorId scope holder := by
  obtain ⟨_,fits⟩ := marks_fit fine member
  simp only [RetiredHead.fits,Bool.and_eq_true,decide_eq_true_eq] at fits
  obtain ⟨⟨⟨⟨⟨⟨_,owner⟩,_⟩,_⟩,_⟩,_⟩,slot⟩ := fits
  rw [slot] at same
  unfold visibleTo slotShown
  cases is_ : mark.scope with
  | team =>
    rw [is_] at same
    cases scope with
    | team => rfl
    | self => exact absurd same slotFor_team
  | self =>
    rw [is_] at same owner
    cases scope with
    | team => exact absurd same.symm slotFor_team
    | self =>
      cases owned : mark.ownerActorId with
      | none =>
        rw [owned] at owner
        contradiction
      | some owner_ =>
        rw [owned] at owner same
        rw [slotFor_self owner actor same]
        simp

end Whose

/-! Alike to an actor. -/

def Mark.renumber (f : Int → Int) (mark : Mark) : Mark := { mark with sequence := f mark.sequence }

def seenBy (actorId : String) (s : State) : List Mark := s.marks.filter fun mark => visibleTo actorId mark.toRetiredHead

/-- The marks an actor sees are the same but for their numbers, which rise together. -/
structure Views (actorId : String) (s t : State) (f : Int → Int) : Prop where
  rises : ∀ a ∈ seenBy actorId s, ∀ b ∈ seenBy actorId s, a.sequence < b.sequence → f a.sequence < f b.sequence
  same : ((seenBy actorId s).map (Mark.renumber f)).Perm (seenBy actorId t)

section View
variable {h : Host} {site : Site} {limits : Limits} {s s' t t' : State} {m : Mutation} {actorId holder key : String} {scope : Scope}
  {f : Int → Int}

theorem seen_mark {mark : Mark} (member : mark ∈ seenBy actorId s) : mark ∈ s.marks := (mem_filter.mp member).1

theorem seen_slots (fine : s.Fine) : ((seenBy actorId s).map (·.slot)).Nodup := fine.slots.sublist (filter_sublist.map _)

theorem seen_refs (fine : s.Fine) : ((seenBy actorId s).map (·.mutationRef)).Nodup := fine.refs.sublist (filter_sublist.map _)

theorem Views.left (views : Views actorId s t f) (same : (seenBy actorId s').Perm (seenBy actorId s)) : Views actorId s' t f where
  rises a mine b theirs := views.rises a (same.mem_iff.mp mine) b (same.mem_iff.mp theirs)
  same := (same.map _).trans views.same

theorem Views.right (views : Views actorId s t f) (same : (seenBy actorId t').Perm (seenBy actorId t)) : Views actorId s t' f where
  rises := views.rises
  same := views.same.trans same.symm

theorem newEntry_shown : visibleTo actorId (newEntry h site s m).toRetiredHead = m.shownTo actorId := by
  unfold visibleTo Mutation.shownTo slotShown newEntry
  cases m.scope <;> simp

/-- What is done to a slot the actor does not see leaves what the actor sees. -/
theorem seen_hidden (fine : s.Fine) (actor : Telegram.userId m.actorId = true) (hidden : m.shownTo actorId = false)
    (placed : place h limits s (newEntry h site s m) = .ok s') : (seenBy actorId s').Perm (seenBy actorId s) := by
  have board := (place_marks fine placed).filter fun mark => visibleTo actorId mark.toRetiredHead
  have unseen : visibleTo actorId (newEntry h site s m).mark.toRetiredHead = false := by
    rw [← hidden]
    exact newEntry_shown
  rw [filter_cons_of_neg (by simp [unseen])] at board
  have rest : (Keyed.delete (fun mark : Mark => mark.slot) m.slot s.marks).filter (fun mark => visibleTo actorId mark.toRetiredHead) =
      seenBy actorId s := by
    rw [Keyed.delete,filter_filter,seenBy]
    apply filter_congr
    intro mark member
    by_cases same : mark.slot = m.slot
    · have unseen' : visibleTo actorId mark.toRetiredHead = false := (mark_shown fine member actor same).trans hidden
      rw [unseen']
      rfl
    · simp [same]
  exact board.trans (List.Perm.of_eq rest)

/-- What is done to a slot the actor sees replaces one mark. -/
theorem seen_shown (fine : s.Fine) (shown : m.shownTo actorId = true)
    (placed : place h limits s (newEntry h site s m) = .ok s') :
    (seenBy actorId s').Perm ((newEntry h site s m).mark :: Keyed.delete (·.slot) m.slot (seenBy actorId s)) := by
  have board := (place_marks fine placed).filter fun mark => visibleTo actorId mark.toRetiredHead
  have seen : visibleTo actorId (newEntry h site s m).mark.toRetiredHead = true := by
    rw [← shown]
    exact newEntry_shown
  simp only [filter_cons,seen,if_true] at board
  have rest : (Keyed.delete (fun mark : Mark => mark.slot) m.slot s.marks).filter (fun mark => visibleTo actorId mark.toRetiredHead) =
      Keyed.delete (·.slot) m.slot (seenBy actorId s) := by
    rw [Keyed.delete,Keyed.delete,seenBy,filter_filter,filter_filter]
    apply filter_congr
    exact fun _ _ => Bool.and_comm _ _
  exact board.trans (List.Perm.of_eq (congrArg _ rest))

/-- The mark of a slot the actor sees. -/
theorem markAt_seen (fine : s.Fine) (actor : Telegram.userId holder = true) (shown : slotShown actorId scope holder = true) :
    markAt (slotFor scope holder key) (seenBy actorId s) = markAt (slotFor scope holder key) s.marks :=
  Keyed.get_filter fun mark member same => (mark_shown fine member actor same).trans shown

theorem markAt_renumber (slot : String) (f : Int → Int) (marks : List Mark) :
    markAt slot (marks.map (Mark.renumber f)) = (markAt slot marks).map (Mark.renumber f) := Keyed.get_map fun _ => rfl

theorem markOf_renumber (ref : String) (f : Int → Int) (marks : List Mark) :
    markOf ref (marks.map (Mark.renumber f)) = (markOf ref marks).map (Mark.renumber f) := Keyed.get_map fun _ => rfl

/-- Both stores have the same mark for a slot the actor sees. -/
theorem Views.markAt (views : Views actorId s t f) (fine : s.Fine) (fine' : t.Fine) (actor : Telegram.userId holder = true)
    (shown : slotShown actorId scope holder = true) : Learning.markAt (slotFor scope holder key) t.marks =
      (Learning.markAt (slotFor scope holder key) s.marks).map (Mark.renumber f) := by
  rw [← markAt_seen fine actor shown,← markAt_seen fine' actor shown,← markAt_renumber]
  exact (Keyed.get_perm (((views.same.map _).nodup_iff).mpr (seen_slots fine')) views.same _).symm

/-- Where only marks the actor sees have a reference, both stores have the same one. -/
theorem Views.markOf (views : Views actorId s t f) (fine : s.Fine) (fine' : t.Fine)
    (seen : ∀ mark ∈ s.marks, mark.mutationRef = ref → visibleTo actorId mark.toRetiredHead = true)
    (seen' : ∀ mark ∈ t.marks, mark.mutationRef = ref → visibleTo actorId mark.toRetiredHead = true) :
    Learning.markOf ref t.marks = (Learning.markOf ref s.marks).map (Mark.renumber f) := by
  have one : Learning.markOf ref (seenBy actorId s) = Learning.markOf ref s.marks := Keyed.get_filter seen
  have two : Learning.markOf ref (seenBy actorId t) = Learning.markOf ref t.marks := Keyed.get_filter seen'
  rw [← one,← two,← markOf_renumber]
  exact (Keyed.get_perm (((views.same.map _).nodup_iff).mpr (seen_refs fine')) views.same ref).symm

/-- The newest number in one store stands for the newest in the other. -/
def nextNumber (s t : State) (f : Int → Int) (number : Int) : Int := if number = s.sequence + 1 then t.sequence + 1 else f number

theorem newEntry_renumber (views : Views actorId s t f) (fine : s.Fine) (fine' : t.Fine) (actor : Telegram.userId m.actorId = true)
    (shown : m.shownTo actorId = true) : (newEntry h site t m).mark = (newEntry h site s m).mark.renumber (nextNumber s t f) := by
  have same : markAt m.slot t.marks = (markAt m.slot s.marks).map (Mark.renumber f) := views.markAt fine fine' actor shown
  rw [newEntry_mark,newEntry_mark,same]
  simp only [markFor,Mark.renumber,nextNumber,if_true,Option.map_map]
  rfl

theorem old_number (fine : s.Fine) {mark : Mark} (member : mark ∈ seenBy actorId s) : nextNumber s t f mark.sequence = f mark.sequence := by
  have passed := fine.passed mark (seen_mark member)
  rw [nextNumber,if_neg (by omega)]

/-- A change both stores make leaves them alike. -/
theorem Views.change (views : Views actorId s t f) (fine : s.Fine) (fine' : t.Fine) (actor : Telegram.userId m.actorId = true)
    (shown : m.shownTo actorId = true) (placed : place h limits s (newEntry h site s m) = .ok s')
    (placed' : place h limits t (newEntry h site t m) = .ok t') : Views actorId s' t' (nextNumber s t f) := by
  have board := seen_shown fine shown placed
  have board' := seen_shown fine' shown placed'
  have number : (newEntry h site s m).mark.sequence = s.sequence + 1 := rfl
  have kept : ∀ mark ∈ Keyed.delete (fun mark : Mark => mark.slot) m.slot (seenBy actorId s), mark ∈ seenBy actorId s :=
    fun mark member => (Keyed.mem_delete.mp member).1
  have below : ∀ mark ∈ seenBy actorId s, f mark.sequence ≤ t.sequence := by
    intro mark member
    have there := views.same.mem_iff.mp (mem_map_of_mem (f := Mark.renumber f) member)
    exact fine'.passed _ (seen_mark there)
  constructor
  · intro a mine b theirs less
    have passed : ∀ mark ∈ seenBy actorId s, mark.sequence ≤ s.sequence := fun mark member => fine.passed mark (seen_mark member)
    rcases mem_cons.mp (board.mem_iff.mp mine) with rfl | mine
    · rcases mem_cons.mp (board.mem_iff.mp theirs) with rfl | theirs
      · omega
      · have before := passed b (kept b theirs)
        omega
    · rw [old_number fine (kept a mine)]
      rcases mem_cons.mp (board.mem_iff.mp theirs) with rfl | theirs
      · have before := below a (kept a mine)
        rw [nextNumber,if_pos number]
        omega
      · rw [old_number fine (kept b theirs)]
        exact views.rises a (kept a mine) b (kept b theirs) less
  · have rest : (Keyed.delete (fun mark : Mark => mark.slot) m.slot (seenBy actorId s)).map (Mark.renumber (nextNumber s t f)) =
        (Keyed.delete (fun mark : Mark => mark.slot) m.slot (seenBy actorId s)).map (Mark.renumber f) := by
      apply map_congr_left
      intro mark member
      rw [Mark.renumber,Mark.renumber,old_number fine (kept mark member)]
    have deleted : Keyed.delete (fun mark : Mark => mark.slot) m.slot ((seenBy actorId s).map (Mark.renumber f)) =
        (Keyed.delete (fun mark : Mark => mark.slot) m.slot (seenBy actorId s)).map (Mark.renumber f) := Keyed.delete_map fun _ => rfl
    have others : ((Keyed.delete (fun mark : Mark => mark.slot) m.slot (seenBy actorId s)).map (Mark.renumber f)).Perm
        (Keyed.delete (fun mark : Mark => mark.slot) m.slot (seenBy actorId t)) := by
      rw [← deleted]
      exact views.same.filter _
    refine ((board.map _).trans ?_).trans board'.symm
    rw [map_cons,rest,newEntry_renumber views fine fine' actor shown]
    exact others.cons _

end View

end Neurobro.Learning
