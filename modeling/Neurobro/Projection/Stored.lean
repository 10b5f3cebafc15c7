import Neurobro.History.Pages

/-! What is known of a page once it was taken. -/
namespace Neurobro.Projection

open Telegram History

/-- Every turn of a loop that may throw was passed. -/
theorem foldlM_turns {ε α β : Type} {f : β → α → Except ε β} {xs : List α} {b b' : β} (h : xs.foldlM f b = .ok b') :
    ∀ x ∈ xs, ∃ c c', f c x = .ok c' := by
  induction xs generalizing b with
  | nil => simp
  | cons x rest ih =>
    rw [List.foldlM_cons] at h
    obtain ⟨c,first,later⟩ := bind_ok h
    intro y member
    rcases List.mem_cons.mp member with rfl | there
    · exact ⟨b,c,first⟩
    · exact ih later y there

/-- A source with its row, or one that stands alone. -/
structure SoundSource (before : Checkpoint) (messages : List Message) (s : Source) : Prop where
  messageId : messageIdValid s.messageId = true
  dated : s.date.all dateValid = true
  reply : s.replyToMessageId.all messageIdValid = true
  row : s.disposition = .included → ∃ m ∈ messages, rowOf messages s.messageRef = some m ∧ s.authorId.isSome = true
  bare : s.disposition ≠ .included → s.bare = true

theorem step_sound {before : Checkpoint} {messages : List Message}
    (taken : Walk.step before messages w s = .ok w') : SoundSource before messages s := by
  unfold Walk.step at taken
  obtain ⟨_,follows,taken⟩ := bind_ok taken
  obtain ⟨_,_,taken⟩ := bind_ok taken
  obtain ⟨id_,_,dates⟩ := require_ok.mp follows
  have dated : s.date.all dateValid = true := by
    cases is_ : s.date with
    | none => rfl
    | some date =>
      rw [is_,Option.all_some,Bool.and_eq_true] at dates
      exact dates.1
  by_cases in_ : s.disposition = .included
  · rw [if_pos in_] at taken
    cases row_ : rowOf messages s.messageRef with
    | none => simp [row_] at taken
    | some m =>
      cases author : s.authorId with
      | none => simp [row_,author] at taken
      | some authorId =>
        simp only [row_,author] at taken
        obtain ⟨_,fits,_⟩ := bind_ok taken
        obtain ⟨_,_,_,_,_,replies⟩ := require_ok.mp fits
        have member : m ∈ messages := by
          cases is_ : s.messageRef with
          | none => simp [rowOf,is_] at row_
          | some ref =>
            rw [rowOf,is_] at row_
            exact List.mem_of_find?_eq_some row_
        refine ⟨id_,dated,?_,fun _ => ⟨m,member,row_,by rw [author]; rfl⟩,fun out => absurd in_ out⟩
        cases is_ : s.replyToMessageId with
        | none => rfl
        | some reply =>
          rw [is_,Option.all_some,Bool.and_eq_true] at replies
          exact replies.1
  · rw [if_neg in_] at taken
    obtain ⟨_,alone,_⟩ := bind_ok taken
    have bare := require_ok.mp alone
    have reply : s.replyToMessageId = none := by
      simp only [Source.bare,Bool.and_eq_true,Option.isNone_iff_eq_none] at bare
      exact bare.2
    exact ⟨id_,dated,by rw [reply]; rfl,fun is_ => absurd is_ in_,fun _ => bare⟩

/-- A page that was taken. -/
structure SoundPage (i : Intent) (t : TaskPage) : Prop where
  before : t.beforeCheckpoint.Valid
  next : t.nextCheckpoint.Valid
  reports : t.page.Reports t.beforeCheckpoint t.nextCheckpoint
  messages : ∀ m ∈ t.page.messages,m.Valid t.beforeCheckpoint
  few : t.sources.length ≤ 100
  sources : ∀ s ∈ t.sources,SoundSource t.beforeCheckpoint t.page.messages s

theorem snapshotCheckpoint_same (taken : snapshotCheckpoint c = .ok c') : c' = c ∧ c.Valid := by
  unfold snapshotCheckpoint at taken
  obtain ⟨_,valid,taken⟩ := bind_ok taken
  exact ⟨(Except.ok.inj taken).symm,require_ok.mp valid⟩

theorem snapshotPage_sound {i : Intent} {t t' : TaskPage} (taken : snapshotPage i t = .ok t') : SoundPage i t := by
  unfold snapshotPage at taken
  obtain ⟨before,first,taken⟩ := bind_ok taken
  obtain ⟨rfl,before_⟩ := snapshotCheckpoint_same first
  obtain ⟨next,second,taken⟩ := bind_ok taken
  obtain ⟨rfl,next_⟩ := snapshotCheckpoint_same second
  obtain ⟨_,_,taken⟩ := bind_ok taken
  obtain ⟨_,_,taken⟩ := bind_ok taken
  obtain ⟨_,reports,taken⟩ := bind_ok taken
  obtain ⟨_,messages,taken⟩ := bind_ok taken
  obtain ⟨_,_,taken⟩ := bind_ok taken
  obtain ⟨_,few,taken⟩ := bind_ok taken
  obtain ⟨w,walked,_⟩ := bind_ok taken
  refine ⟨before_,next_,require_ok.mp reports,(require_ok.mp messages).2,require_ok.mp few,fun s member => ?_⟩
  obtain ⟨c,c',turn⟩ := foldlM_turns walked s member
  exact step_sound turn

end Neurobro.Projection
