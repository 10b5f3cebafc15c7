import Neurobro.Learning.Views

/-! What the queries make of a store: the same of any two that are alike to the actor who asks. -/
namespace Neurobro.Learning

open List

def Entry.renumber (f : Int → Int) (entry : Entry) : Entry := { entry with sequence := f entry.sequence }

/-- An entry by its mark, where it is not retired. -/
def Mark.entry (mark : Mark) : Entry :=
  { mark.toRetiredHead with text := mark.body.map (·.1), retired := mark.body.isNone
                            provenance := (mark.body.map (·.2)).getD { requestRef := "", messageId := 0, actorId := "" } }

def active (actorId : String) (s : State) : List Entry := s.entries.filter fun entry => !entry.retired && visibleTo actorId entry.toRetiredHead

section Active
variable {s t : State} {actorId : String} {f : Int → Int} {entry : Entry}

theorem mark_entry (fits : textFits entry.retired entry.text = true) (kept : entry.retired = false) : entry.mark.entry = entry := by
  obtain ⟨head,text,retired,provenance⟩ := entry
  cases kept
  cases text with
  | none => contradiction
  | some t => rfl

/-- The active notes an actor sees, by their marks. -/
theorem active_marks (fine : s.Fine) : active actorId s = ((seenBy actorId s).filter (·.body.isSome)).map Mark.entry := by
  have none_ : (s.retiredHeads.map RetiredHead.mark).filter
      (fun mark => mark.body.isSome && visibleTo actorId mark.toRetiredHead) = [] := by
    simp [RetiredHead.mark]
  have same : ((s.entries.map Entry.mark).filter (fun mark => mark.body.isSome && visibleTo actorId mark.toRetiredHead)).map Mark.entry =
      active actorId s := by
    have each : ∀ e ∈ s.entries, textFits e.retired e.text = true := by
      intro e member
      have valid := fine.entries e member
      simp only [Entry.valid,Bool.and_eq_true] at valid
      exact valid.1.1
    unfold active
    generalize s.entries = entries at each
    induction entries with
    | nil => rfl
    | cons e rest ih =>
      have tail := ih fun e' member => each e' (mem_cons_of_mem _ member)
      rw [map_cons]
      cases retired : e.retired with
      | true =>
        rw [filter_cons_of_neg (by simp [Entry.mark,retired]),filter_cons_of_neg (by simp [retired]),tail]
      | false =>
        by_cases seen : visibleTo actorId e.toRetiredHead = true
        · have seen' : visibleTo actorId e.mark.toRetiredHead = true := seen
          simp only [filter_cons,seen,seen',retired,Bool.not_false,Bool.and_self,if_true]
          rw [if_pos (by simp [Entry.mark,retired]),map_cons,mark_entry (each e mem_cons_self) retired,tail]
        · have unseen : visibleTo actorId e.mark.toRetiredHead = false := Bool.eq_false_iff.mpr seen
          rw [filter_cons_of_neg (by simp [unseen]),filter_cons_of_neg (by simp [seen]),tail]
  rw [seenBy,filter_filter,State.marks,filter_append,none_,append_nil,same]

theorem active_seen (fine : s.Fine) (member : e ∈ active actorId s) :
    ∃ mark ∈ seenBy actorId s, mark.entry = e ∧ mark.sequence = e.sequence := by
  rw [active_marks fine] at member
  obtain ⟨mark,there,rfl⟩ := mem_map.mp member
  exact ⟨mark,(mem_filter.mp there).1,rfl,rfl⟩

theorem active_once (fine : s.Fine) : ((active actorId s).map (·.sequence)).Nodup := by
  rw [active_marks fine,map_map]
  exact fine.once.sublist ((filter_sublist.trans filter_sublist).map _)

theorem Views.active (views : Views actorId s t f) (fine : s.Fine) (fine' : t.Fine) :
    (Learning.active actorId t).Perm ((Learning.active actorId s).map (Entry.renumber f)) := by
  have kept := (views.same.symm.filter (·.body.isSome)).map Mark.entry
  rw [← active_marks fine',filter_map,map_map] at kept
  rw [active_marks fine,map_map]
  exact kept

theorem Views.activeRises (views : Views actorId s t f) (fine : s.Fine) : ∀ a ∈ Learning.active actorId s,
    ∀ b ∈ Learning.active actorId s, a.sequence < b.sequence → f a.sequence < f b.sequence := by
  intro a mine b theirs less
  obtain ⟨mark,there,_,same⟩ := active_seen fine mine
  obtain ⟨mark',there',_,same'⟩ := active_seen fine theirs
  rw [← same,← same'] at less ⊢
  exact views.rises mark there mark' there' less

end Active

/-! Sorting. -/

/-- Two ranks, then the newest first. -/
def rankCompare (h : Host) (first second : Entry → Int) (a b : Entry) : Int :=
  either (first b - first a) (either (second b - second a) (either (b.sequence - a.sequence) (h.localeCompare a.slot b.slot)))

section Sorting
variable {h : Host} {first second : Entry → Int} {f : Int → Int}

/-- The order without the slots, which never decide. -/
def rankBefore (first second : Entry → Int) (a b : Entry) : Prop :=
  first b < first a ∨ first b = first a ∧ (second b < second a ∨ second b = second a ∧ b.sequence ≤ a.sequence)

instance (first second : Entry → Int) : DecidableRel (rankBefore first second) :=
  fun _ _ => inferInstanceAs (Decidable (_ ∨ _))

instance (first second : Entry → Int) : Std.Total (rankBefore first second) where
  total a b := by
    unfold rankBefore
    omega

instance (first second : Entry → Int) : IsTrans Entry (rankBefore first second) where
  trans a b c := by
    unfold rankBefore
    omega

theorem rankCompare_before (apart : a.sequence = b.sequence → a = b) :
    rankCompare h first second a b ≤ 0 ↔ rankBefore first second a b := by
  by_cases same : a.sequence = b.sequence
  · cases apart same
    simp [rankCompare,either,rankBefore,h.localeSame]
  · unfold rankCompare either rankBefore
    split
    · omega
    · split
      · omega
      · rw [if_pos (by omega)]
        omega

/-- Where no two have one number, the order does not depend on the slots. -/
theorem sorted_rank {entries : List Entry} (once : (entries.map (·.sequence)).Nodup) :
    sorted (rankCompare h first second) entries = entries.insertionSort (rankBefore first second) := by
  have same := map_insertionSort (fun a b => rankCompare h first second a b ≤ 0) (rankBefore first second) id entries
    fun a mine b theirs => rankCompare_before fun number => inj_on_of_nodup_map once mine theirs number
  simpa [sorted] using same

/-- Alike lists are sorted alike. -/
theorem sorted_views {one two : List Entry} (perm : two.Perm (one.map (Entry.renumber f)))
    (rises : ∀ a ∈ one, ∀ b ∈ one, a.sequence < b.sequence → f a.sequence < f b.sequence)
    (once : (one.map (·.sequence)).Nodup) (once' : (two.map (·.sequence)).Nodup)
    (rank : ∀ e, first (Entry.renumber f e) = first e ∧ second (Entry.renumber f e) = second e) :
    sorted (rankCompare h first second) two = (sorted (rankCompare h first second) one).map (Entry.renumber f) := by
  rw [sorted_rank once,sorted_rank once']
  have agrees : ∀ a ∈ one, ∀ b ∈ one, rankBefore first second a b ↔
      rankBefore first second (a.renumber f) (b.renumber f) := by
    intro a mine b theirs
    have numbers : b.sequence ≤ a.sequence ↔ f b.sequence ≤ f a.sequence := by
      constructor
      · intro le
        rcases Int.lt_or_eq_of_le le with less | same
        · exact Int.le_of_lt (rises b theirs a mine less)
        · exact Int.le_of_eq (congrArg f same)
      · intro le
        by_contra less
        have up := rises a mine b theirs (Int.lt_of_not_ge less)
        omega
    unfold rankBefore
    rw [(rank a).1,(rank a).2,(rank b).1,(rank b).2]
    simp only [Entry.renumber,numbers]
  rw [map_insertionSort _ (rankBefore first second) _ _ agrees]
  apply List.Perm.eq_of_pairwise _ (pairwise_insertionSort _ _) (pairwise_insertionSort _ _)
  · exact (perm_insertionSort _ _).trans (perm.trans (perm_insertionSort _ _).symm)
  · intro a b mine theirs before after_
    rw [mem_insertionSort] at mine theirs
    have theirs := perm.mem_iff.mpr theirs
    unfold rankBefore at before after_
    exact inj_on_of_nodup_map once' mine theirs (by omega)

end Sorting

/-! The queries. -/

def Mark.note (mark : Mark) : Note :=
  { key := mark.key, kind := mark.kind, scope := mark.scope, text := (mark.body.map (·.1)).getD "", revision := mark.revision
    provenance := (mark.body.map (·.2)).getD { requestRef := "", messageId := 0, actorId := "" } }

/-- What reading a slot says about its mark. -/
def readOf (scope : Scope) (key : String) : Option Mark → ReadResult
  | none => { state := .absent, key, scope, revision := none, note := none }
  | some mark =>
    if mark.body.isSome then
      { state := .active, key := mark.key, scope := mark.scope, revision := some mark.revision, note := some mark.note }
    else { state := .retired, key := mark.key, scope := mark.scope, revision := some mark.revision, note := none }

def usageOf (limits : Limits) (marks : List Mark) : UsageResult :=
  { active := (marks.filter (·.body.isSome)).length, retired := (marks.filter (·.body.isNone)).length
    total := (marks.filter (·.body.isSome)).length + (marks.filter (·.body.isNone)).length
    bytes := Json.size History.numberText (.obj [("active",.arr ((marks.filter (·.body.isSome)).map fun mark => mark.note.json)),
      ("retired",.arr ((marks.filter (·.body.isNone)).map fun mark => retiredJson mark.toRetiredHead))])
    hotSlotsMaximum := limits.maxEntries, archivedRetiredMaximum := defaultMaxArchivedRetired
    plaintextMaximumBytes := limits.maxPlaintextBytes }

section Queries
variable {h : Host} {s t : State} {actorId : String} {f : Int → Int} {limits : Limits} {scope : Scope} {key : String}

theorem noteView_mark {entry : Entry} (fits : textFits entry.retired entry.text = true) (kept : entry.retired = false) :
    noteView entry = .ok entry.mark.note := by
  obtain ⟨head,text,retired,provenance⟩ := entry
  cases kept
  cases text with
  | none => contradiction
  | some t => rfl

theorem noteView_renumber (entry : Entry) : noteView (entry.renumber f) = noteView entry := rfl

theorem fits_of_fine (fine : s.Fine) {entry : Entry} (member : entry ∈ s.entries) : textFits entry.retired entry.text = true := by
  have valid := fine.entries entry member
  simp only [Entry.valid,Bool.and_eq_true] at valid
  exact valid.1.1

/-- Reading looks at the mark of the slot only. -/
theorem read_marks (fine : s.Fine) : read s actorId scope key = (need (Telegram.userId actorId && keyValid key)).bind fun _ =>
    .ok (readOf scope key (markAt (slotFor scope actorId key) s.marks)) := by
  unfold read
  rw [← current_mark,State.current]
  cases need (Telegram.userId actorId && keyValid key) with
  | error code => rfl
  | ok _ =>
    cases kept : entryAt (slotFor scope actorId key) s.entries with
    | some entry =>
      have fits := fits_of_fine fine (Keyed.get_some kept).1
      cases retired : entry.retired with
      | true => simp [bind,Except.bind,readOf,Entry.mark,retired]
      | false =>
        have note := noteView_mark fits retired
        simp [bind,Except.bind,readOf,retired,note]
        simp [Entry.mark,retired]
    | none =>
      cases archived : headAt (slotFor scope actorId key) s.retiredHeads with
      | none => rfl
      | some head => rfl

theorem mapM_renumber (entries : List Entry) : (entries.map (Entry.renumber f)).mapM noteView = entries.mapM noteView := by
  induction entries with
  | nil => rfl
  | cons e rest ih => rw [map_cons,mapM_cons,mapM_cons,ih,noteView_renumber]

theorem Views.read (views : Views actorId s t f) (fine : s.Fine) (fine' : t.Fine) :
    Learning.read t actorId scope key = Learning.read s actorId scope key := by
  rw [read_marks fine,read_marks fine']
  cases actor : Telegram.userId actorId with
  | false => rfl
  | true =>
    have shown : slotShown actorId scope actorId = true := by simp [slotShown]
    rw [views.markAt fine fine' actor shown]
    cases Learning.markAt (slotFor scope actorId key) s.marks <;> rfl

/-- What an actor picks from the active notes and sorts is alike. -/
theorem Views.picked (views : Views actorId s t f) (fine : s.Fine) (fine' : t.Fine) (h : Host) (pick : Entry → Bool)
    (first second : Entry → Int) (blind : ∀ e, pick (Entry.renumber f e) = pick e)
    (rank : ∀ e, first (Entry.renumber f e) = first e ∧ second (Entry.renumber f e) = second e) :
    sorted (rankCompare h first second) ((Learning.active actorId t).filter pick) =
        (sorted (rankCompare h first second) ((Learning.active actorId s).filter pick)).map (Entry.renumber f) ∧
      ((Learning.active actorId t).filter pick).length = ((Learning.active actorId s).filter pick).length := by
  have perm := (views.active fine fine').filter pick
  have same : pick ∘ Entry.renumber f = pick := funext blind
  rw [filter_map,same] at perm
  refine ⟨sorted_views perm ?_ ((active_once fine).sublist (filter_sublist.map _))
    ((active_once fine').sublist (filter_sublist.map _)) rank,?_⟩
  · intro a mine b theirs
    exact views.activeRises fine a (mem_filter.mp mine).1 b (mem_filter.mp theirs).1
  · rw [perm.length_eq,length_map]

/-- Does an entry match a query? -/
def matching (h : Host) (query : Option String) (entry : Entry) : Bool :=
  query.isNone || decide (entry.kind.bonus < (scored h query entry).score)

def byMatch (h : Host) (query : Option String) : Entry → Entry → Int :=
  rankCompare h (fun e => (scored h query e).matchedTokens) fun e => (scored h query e).score

theorem sorted_scored (query : Option String) (entries : List Entry) :
    sorted (compareScored h) (entries.map (scored h query)) = (sorted (byMatch h query) entries).map (scored h query) :=
  (map_insertionSort (fun a b => byMatch h query a b ≤ 0) (fun a b => compareScored h a b ≤ 0) (scored h query) entries
    fun _ _ _ _ => Iff.rfl).symm

theorem mapM_scored (query : Option String) (entries : List Entry) :
    (entries.map (scored h query)).mapM (fun item => noteView item.entry) = entries.mapM noteView := by
  induction entries with
  | nil => rfl
  | cons e rest ih =>
    rw [map_cons,mapM_cons,mapM_cons,ih]
    rfl

theorem list_active (query : Option String) (limit : Option Int) : list h s actorId query limit =
    (need (Telegram.userId actorId && query.all (cleanText · maxQueryBytes) && limitValid limit)).bind fun _ =>
      (((sorted (byMatch h query) ((active actorId s).filter (matching h query))).take (limitOf limit)).mapM noteView).bind fun notes =>
        .ok { notes, visible := (active actorId s).length, matched := ((active actorId s).filter (matching h query)).length } := by
  have picked : ((active actorId s).map (scored h query)).filter
      (fun item => query.isNone || decide (item.entry.kind.bonus < item.score)) =
        ((active actorId s).filter (matching h query)).map (scored h query) := by
    rw [filter_map]
    rfl
  have shown : list h s actorId query limit =
      (need (Telegram.userId actorId && query.all (cleanText · maxQueryBytes) && limitValid limit)).bind fun _ =>
      (((sorted (compareScored h) (((active actorId s).map (scored h query)).filter
        (fun item => query.isNone || decide (item.entry.kind.bonus < item.score)))).take (limitOf limit)).mapM
          fun item => noteView item.entry).bind fun notes =>
        .ok { notes, visible := (active actorId s).length, matched := (((active actorId s).map (scored h query)).filter
          (fun item => query.isNone || decide (item.entry.kind.bonus < item.score))).length } := rfl
  rw [shown,picked,sorted_scored,← map_take,mapM_scored,length_map]

theorem Views.list (views : Views actorId s t f) (fine : s.Fine) (fine' : t.Fine) (query : Option String) (limit : Option Int) :
    Learning.list h t actorId query limit = Learning.list h s actorId query limit := by
  obtain ⟨order,count⟩ := views.picked fine fine' h (matching h query) (fun e => (scored h query e).matchedTokens)
    (fun e => (scored h query e).score) (fun _ => rfl) fun _ => ⟨rfl,rfl⟩
  have all := (views.active fine fine').length_eq
  rw [length_map] at all
  rw [list_active,list_active,byMatch,order,count,all,← map_take,mapM_renumber]

def duplicateOf (h : Host) (scope : Scope) (kind : Kind) (text : String) (entry : Entry) : Bool :=
  decide (entry.scope = scope) && (decide (entry.kind = kind) && decide (normalized h (entry.text.getD "") = normalized h text))

theorem compareRecent_rank (a b : Entry) : compareRecent h a b = rankCompare h (fun _ => 0) (fun _ => 0) a b := by
  simp [compareRecent,rankCompare,either]

theorem duplicates_active (kind : Kind) (text : String) (limit : Option Int) : duplicates h s actorId scope kind text limit =
    (need (Telegram.userId actorId && cleanText text maxTextBytes && limitValid limit)).bind fun _ =>
      (((sorted (rankCompare h (fun _ => 0) fun _ => 0) ((active actorId s).filter (duplicateOf h scope kind text))).take
        (limitOf limit)).mapM noteView).bind fun notes =>
        .ok { notes, visible := ((active actorId s).filter fun entry => decide (entry.scope = scope)).length
              matched := ((active actorId s).filter (duplicateOf h scope kind text)).length } := by
  have visible : (s.entries.filter fun entry => !entry.retired && decide (entry.scope = scope) && visibleTo actorId entry.toRetiredHead) =
      (active actorId s).filter fun entry => decide (entry.scope = scope) := by
    rw [active,filter_filter]
    apply filter_congr
    intro entry _
    cases entry.retired <;> simp [Bool.and_comm]
  have picked : ((active actorId s).filter fun entry => decide (entry.scope = scope)).filter (fun entry =>
      decide (entry.kind = kind) && decide (normalized h (entry.text.getD "") = normalized h text)) =
        (active actorId s).filter (duplicateOf h scope kind text) := by
    rw [filter_filter]
    apply filter_congr
    intro entry _
    exact Bool.and_comm _ _
  have recent : compareRecent h = rankCompare h (fun _ => 0) fun _ => 0 := funext fun a => funext fun b => compareRecent_rank a b
  have shown : duplicates h s actorId scope kind text limit =
      (need (Telegram.userId actorId && cleanText text maxTextBytes && limitValid limit)).bind fun _ =>
      (((sorted (compareRecent h) ((s.entries.filter fun entry => !entry.retired && decide (entry.scope = scope) &&
        visibleTo actorId entry.toRetiredHead).filter fun entry =>
          decide (entry.kind = kind) && decide (normalized h (entry.text.getD "") = normalized h text))).take
            (limitOf limit)).mapM noteView).bind fun notes =>
        .ok { notes, visible := (s.entries.filter fun entry => !entry.retired && decide (entry.scope = scope) &&
                visibleTo actorId entry.toRetiredHead).length
              matched := ((s.entries.filter fun entry => !entry.retired && decide (entry.scope = scope) &&
                visibleTo actorId entry.toRetiredHead).filter fun entry =>
                  decide (entry.kind = kind) && decide (normalized h (entry.text.getD "") = normalized h text)).length } := rfl
  rw [shown,visible,picked,recent]

theorem Views.duplicates (views : Views actorId s t f) (fine : s.Fine) (fine' : t.Fine) (kind : Kind) (text : String)
    (limit : Option Int) : Learning.duplicates h t actorId scope kind text limit = Learning.duplicates h s actorId scope kind text limit := by
  obtain ⟨order,count⟩ := views.picked fine fine' h (duplicateOf h scope kind text) (fun _ => 0) (fun _ => 0) (fun _ => rfl)
    fun _ => ⟨rfl,rfl⟩
  obtain ⟨_,all⟩ := views.picked fine fine' h (fun entry => decide (entry.scope = scope)) (fun _ => 0) (fun _ => 0) (fun _ => rfl)
    fun _ => ⟨rfl,rfl⟩
  rw [duplicates_active,duplicates_active,order,count,all,← map_take,mapM_renumber]

/-! How much there is. -/

theorem mapM_notes {entries : List Entry} (each : ∀ e ∈ entries, noteView e = .ok e.mark.note) :
    entries.mapM noteView = .ok (entries.map fun e => e.mark.note) := by
  induction entries with
  | nil => rfl
  | cons e rest ih =>
    rw [mapM_cons,each e mem_cons_self,ih fun e' member => each e' (mem_cons_of_mem _ member)]
    rfl

/-- The notes and the retired heads an actor sees, whichever way they are kept. -/
theorem seen_split (s : State) (actorId : String) :
    (((s.entries.filter fun e => visibleTo actorId e.toRetiredHead).filter (!·.retired)).map Entry.mark).Perm
        ((seenBy actorId s).filter (·.body.isSome)) ∧
      ((((s.entries.filter fun e => visibleTo actorId e.toRetiredHead).filter (·.retired)).map Entry.toRetiredHead ++
        s.retiredHeads.filter (visibleTo actorId))).Perm (((seenBy actorId s).filter (·.body.isNone)).map Mark.toRetiredHead) := by
  have kept (pick : Mark → Bool) (pick' : Entry → Bool) (same : ∀ e : Entry, pick e.mark = pick' e) :
      ((s.entries.map Entry.mark).filter fun mark => pick mark && visibleTo actorId mark.toRetiredHead) =
        ((s.entries.filter fun e => visibleTo actorId e.toRetiredHead).filter pick').map Entry.mark := by
    rw [filter_map,filter_filter]
    congr 1
    apply filter_congr
    intro e _
    simp only [Function.comp_apply,same]
    rfl
  have seen (pick : Mark → Bool) : (seenBy actorId s).filter pick =
      ((s.entries.map Entry.mark).filter fun mark => pick mark && visibleTo actorId mark.toRetiredHead) ++
        (s.retiredHeads.map RetiredHead.mark).filter fun mark => pick mark && visibleTo actorId mark.toRetiredHead := by
    rw [seenBy,filter_filter,State.marks,filter_append]
  have isSome (e : Entry) : e.mark.body.isSome = !e.retired := by
    cases retired : e.retired <;> simp [Entry.mark,retired]
  have isNone (e : Entry) : e.mark.body.isNone = e.retired := by
    cases retired : e.retired <;> simp [Entry.mark,retired]
  constructor
  · have none_ : (s.retiredHeads.map RetiredHead.mark).filter
        (fun mark => mark.body.isSome && visibleTo actorId mark.toRetiredHead) = [] := by simp [RetiredHead.mark]
    rw [seen (·.body.isSome),none_,append_nil,kept (·.body.isSome) (!·.retired) isSome]
  · have heads : ((s.retiredHeads.map RetiredHead.mark).filter
        (fun mark => mark.body.isNone && visibleTo actorId mark.toRetiredHead)).map Mark.toRetiredHead =
          s.retiredHeads.filter (visibleTo actorId) := by
      rw [filter_map,map_map]
      have same : (fun mark : Mark => mark.body.isNone && visibleTo actorId mark.toRetiredHead) ∘ RetiredHead.mark =
          visibleTo actorId := rfl
      have back : Mark.toRetiredHead ∘ RetiredHead.mark = id := rfl
      rw [same,back,map_id]
    rw [seen (·.body.isNone),map_append,heads,kept (·.body.isNone) (·.retired) isNone,map_map]
    exact List.Perm.refl _

theorem usageOf_perm {one two : List Mark} (perm : one.Perm two) : usageOf limits one = usageOf limits two := by
  have active := perm.filter (·.body.isSome)
  have retired := perm.filter (·.body.isNone)
  have bytes := Json.size_pair History.numberText "active" "retired"
    (Json.size_arr_perm (active.map fun mark => mark.note.json))
    (Json.size_arr_perm (retired.map fun mark => retiredJson mark.toRetiredHead))
  simp only [usageOf,active.length_eq,retired.length_eq,bytes]

theorem usageOf_renumber (marks : List Mark) : usageOf limits (marks.map (Mark.renumber f)) = usageOf limits marks := by
  have isSome : (fun mark : Mark => mark.body.isSome) ∘ Mark.renumber f = fun mark => mark.body.isSome := rfl
  have isNone : (fun mark : Mark => mark.body.isNone) ∘ Mark.renumber f = fun mark => mark.body.isNone := rfl
  simp only [usageOf,filter_map,map_map,length_map,isSome,isNone]
  rfl

theorem usage_marks (fine : s.Fine) : usage h limits s actorId = (need (Telegram.userId actorId)).bind fun _ =>
    .ok (usageOf limits (seenBy actorId s)) := by
  obtain ⟨notes,heads⟩ := seen_split s actorId
  let hot := sorted (fun a b : Entry => h.localeCompare a.slot b.slot) (s.entries.filter fun e => visibleTo actorId e.toRetiredHead)
  let archived := sorted (fun a b : RetiredHead => h.localeCompare a.slot b.slot) (s.retiredHeads.filter (visibleTo actorId))
  have hotPerm : hot.Perm (s.entries.filter fun e => visibleTo actorId e.toRetiredHead) := sorted_perm _ _
  have archivedPerm : archived.Perm (s.retiredHeads.filter (visibleTo actorId)) := sorted_perm _ _
  have noted : (hot.filter (!·.retired)).mapM noteView = .ok ((hot.filter (!·.retired)).map fun e => e.mark.note) := by
    apply mapM_notes
    intro e member
    obtain ⟨inside,kept⟩ := mem_filter.mp member
    have there := (mem_filter.mp (hotPerm.mem_iff.mp inside)).1
    exact noteView_mark (fits_of_fine fine there) (by simpa using kept)
  have notesPerm := ((hotPerm.filter (!·.retired)).map Entry.mark).trans notes
  have headsPerm : ((hot.filter (·.retired)).map Entry.toRetiredHead ++ archived).Perm
      (((seenBy actorId s).filter (·.body.isNone)).map Mark.toRetiredHead) :=
    (((hotPerm.filter (·.retired)).map Entry.toRetiredHead).append archivedPerm).trans heads
  have shown : usage h limits s actorId = (need (Telegram.userId actorId)).bind fun _ =>
      ((hot.filter (!·.retired)).mapM noteView).bind fun active =>
        .ok { active := active.length, retired := hot.length - active.length + archived.length
              total := active.length + (hot.length - active.length + archived.length)
              bytes := Json.size History.numberText (.obj [("active",.arr (active.map Note.json)),
                ("retired",.arr (((hot.filter (·.retired)).map Entry.toRetiredHead ++ archived).map retiredJson))])
              hotSlotsMaximum := limits.maxEntries, archivedRetiredMaximum := defaultMaxArchivedRetired
              plaintextMaximumBytes := limits.maxPlaintextBytes } := rfl
  have activeCount := notesPerm.length_eq
  have retiredCount := headsPerm.length_eq
  have all := length_eq_length_filter_add (l := hot) (fun e : Entry => e.retired)
  simp only [length_map,length_append] at activeCount retiredCount
  have bytes := Json.size_pair History.numberText "active" "retired"
    (Json.size_arr_perm (notesPerm.map fun mark => mark.note.json))
    (Json.size_arr_perm (headsPerm.map retiredJson))
  rw [shown,noted]
  have rest : hot.length - ((seenBy actorId s).filter (·.body.isSome)).length + archived.length =
      ((seenBy actorId s).filter (·.body.isNone)).length := by
    omega
  have count : ((hot.filter (!·.retired)).map fun e => e.mark.note).length = ((seenBy actorId s).filter (·.body.isSome)).length := by
    rw [length_map]
    exact activeCount
  have written : Json.size History.numberText (.obj [("active",.arr (((hot.filter (!·.retired)).map fun e => e.mark.note).map Note.json)),
        ("retired",.arr (((hot.filter (·.retired)).map Entry.toRetiredHead ++ archived).map retiredJson))]) =
      Json.size History.numberText (.obj [("active",.arr (((seenBy actorId s).filter (·.body.isSome)).map fun mark => mark.note.json)),
        ("retired",.arr (((seenBy actorId s).filter (·.body.isNone)).map fun mark => retiredJson mark.toRetiredHead))]) := by
    simp only [map_map] at bytes ⊢
    exact bytes
  simp only [Except.bind,rest,count,usageOf,written]

theorem Views.usage (views : Views actorId s t f) (fine : s.Fine) (fine' : t.Fine) :
    Learning.usage h limits t actorId = Learning.usage h limits s actorId := by
  rw [usage_marks fine,usage_marks fine',← usageOf_perm views.same,usageOf_renumber]

end Queries

end Neurobro.Learning
