import Neurobro.History.Sizes

/-! What the reader makes of one message: references, labels and names that are fit to be
kept. Only a name can fail, where nothing but spaces is left of it. -/
namespace Neurobro.History

open Telegram

/-! References. -/

theorem ascii_size {c : Char} (small : c.toNat < 0x80) : c.utf8Size = 1 := by
  have low : c.val ≤ 0x7f := UInt32.le_iff_toNat_le.mpr (Nat.le_of_lt_succ small)
  exact if_pos low

def hexChar (c : Char) : Bool := c.isDigit || decide ('a' ≤ c ∧ c ≤ 'f')

theorem hexChar_size (hex : hexChar c = true) : c.utf8Size = 1 := by
  apply ascii_size
  rcases (Bool.or_eq_true _ _).mp hex with digit | letter
  · simp only [Char.isDigit,Bool.and_eq_true,decide_eq_true_eq] at digit
    have high := UInt32.le_iff_toNat_le.mp digit.2
    exact Nat.lt_of_le_of_lt high (by decide)
  · have high := UInt32.le_iff_toNat_le.mp (of_decide_eq_true letter).2
    exact Nat.lt_of_le_of_lt high (by decide)

theorem hexes_size (hex : cs.all hexChar = true) : charBytes cs = cs.length := by
  induction cs with
  | nil => rfl
  | cons c rest ih =>
    rw [List.all_cons,Bool.and_eq_true] at hex
    simp only [charBytes,hexChar_size hex.1,ih hex.2,List.length_cons]
    omega

theorem hexRef_iff {mark : String} {text : String} :
    hexRef mark length text = true ↔ ∃ digits,text.toList = mark.toList ++ digits ∧ digits.length = length ∧ digits.all hexChar = true := by
  simp only [hexRef,Bool.and_eq_true,decide_eq_true_eq]
  have marked : mark.length = mark.toList.length := rfl
  rw [marked]
  constructor
  · rintro ⟨⟨marks,long⟩,hex⟩
    have split := List.take_append_drop mark.toList.length text.toList
    rw [marks] at split
    exact ⟨_,split.symm,long,hex⟩
  · rintro ⟨digits,is_,long,hex⟩
    have rest : (mark.toList ++ digits).drop mark.toList.length = digits := by simp
    rw [is_,rest]
    exact ⟨⟨by simp,long⟩,hex⟩

theorem hexRef_size {mark : String} {text : String} (ref : hexRef mark length text = true) :
    text.utf8ByteSize = mark.utf8ByteSize + length := by
  obtain ⟨digits,is_,long,hex⟩ := hexRef_iff.mp ref
  rw [utf8ByteSize_toList,utf8ByteSize_toList mark,is_,charBytes_append,hexes_size hex,long]

section Labels
variable {h : ReaderHost} {r : Reader}

/-- The digest is one: 64 lower hexadecimal digits. -/
def ReaderHost.Lawful (h : ReaderHost) : Prop := ∀ text, hexRef "" 64 (h.digest text) = true

theorem label_hex (lawful : h.Lawful) (kind raw : String) : hexRef (kind ++ "_") 24 (label h kind raw) = true := by
  obtain ⟨digits,is_,long,hex⟩ := hexRef_iff.mp (lawful (kind ++ ":" ++ raw))
  have is_ : (h.digest (kind ++ ":" ++ raw)).toList = digits := is_
  refine hexRef_iff.mpr ⟨digits.take 24,?_,?_,?_⟩
  · rw [label,is_]
    simp
  · rw [List.length_take]
    omega
  · rw [List.all_eq_true] at hex ⊢
    exact fun c member => hex c (List.take_sublist 24 digits |>.mem member)

theorem messageRef_valid (lawful : h.Lawful) (id : Int) : messageRefValid (messageRef h id) = true := label_hex lawful "m" _

theorem label_shape (lawful : h.Lawful) (raw : String) : label h "a" raw ≠ "neurobro" := by
  intro same
  have ref := label_hex lawful "a" raw
  rw [same] at ref
  revert ref
  decide

theorem authorRef_valid (lawful : h.Lawful) (authorId : String) : authorRefValid (authorRef h r authorId) = true := by
  unfold authorRef authorRefValid
  split
  · rfl
  · rw [Bool.or_eq_true]
    exact .inr (label_hex lawful "a" _)

/-- Only the account itself goes by its own name. -/
theorem authorRef_own (lawful : h.Lawful) (own : authorRef h r authorId = "neurobro") : authorId = r.accountId:= by
  unfold authorRef at own
  split at own
  · rename_i known
    exact of_decide_eq_true (Bool.and_eq_true_iff.mp known).2
  · exact absurd own (label_shape lawful _)

theorem authorRef_apart (lawful : h.Lawful) (apart : label h "a" a = label h "a" b → a = b)
    (same : authorRef h r a = authorRef h r b) : a = b := by
  unfold authorRef at same
  split at same <;> split at same
  · rename_i first second
    rw [of_decide_eq_true (Bool.and_eq_true_iff.mp first).2,of_decide_eq_true (Bool.and_eq_true_iff.mp second).2]
  · exact absurd same.symm (label_shape lawful _)
  · exact absurd same (label_shape lawful _)
  · exact apart same

end Labels

/-! Labels of forwards. -/

theorem hasNul_iff {text : String} : hasNul text = true ↔ Char.ofNat 0 ∈ text.toList := by
  unfold hasNul
  exact List.contains_iff_mem

theorem forwardLabel_valid {text : String} (made : forwardLabel raw = .ok text) (some_ : text ≠ "") :
    textValid text 128 = true := by
  cases raw with
  | none =>
    cases made
    exact absurd rfl some_
  | some units =>
    simp only [forwardLabel] at made
    split at made
    · cases made
    · rename_i whole _
      split at made
      · cases made
      · obtain rfl := Except.ok.inj made
        have steered : ∀ c ∈ (whole.toList.map fun c => if steering c.toNat then ' ' else c), c.toNat ≠ 0 := by
          intro c member
          obtain ⟨c',_,rfl⟩ := List.mem_map.mp member
          split
          · decide
          · rename_i plain
            intro zero
            rw [zero] at plain
            exact plain (by decide)
        generalize whole.toList.map (fun c => if steering c.toNat then ' ' else c) = clean at steered some_ ⊢
        have part : (Agent.trimChars (takeBytes 128 (Agent.trimChars clean))).Sublist clean :=
          (trimChars_sublist _).trans ((takeBytes_sublist _ _).trans (trimChars_sublist _))
        have nonempty : Agent.trimChars (takeBytes 128 (Agent.trimChars clean)) ≠ [] := by
          intro none_
          apply some_
          rw [Agent.trim,String.toList_ofList,none_]
        have short : charBytes (Agent.trimChars (takeBytes 128 (Agent.trimChars clean))) ≤ 128 :=
          (charBytes_sublist (trimChars_sublist _)).trans (takeBytes_size _ _)
        obtain ⟨c,member,ink⟩ := trimmed_ink nonempty
        rw [Agent.trim,String.toList_ofList]
        simp only [textValid,Bool.and_eq_true,Bool.not_eq_true',decide_eq_true_eq]
        refine ⟨⟨?_,?_⟩,?_⟩
        · rw [Bool.eq_false_iff,ne_eq,blank_iff,String.toList_ofList]
          intro all
          rw [all c member] at ink
          cases ink
        · rw [Bool.eq_false_iff,ne_eq,hasNul_iff,String.toList_ofList]
          exact fun nul => steered _ (part.mem nul) (by decide)
        · rw [utf8ByteSize_ofList]
          exact short

theorem forwardProvenance_valid (made : forwardProvenance header = .ok forwarded) : ∀ f ∈ forwarded, f.Valid:= by
  cases header with
  | none =>
    cases made
    exact fun f no => by cases no
  | some header =>
    simp only [forwardProvenance] at made
    split at made
    · rename_i dated
      obtain ⟨fromName,first,rest⟩ := bind_ok made
      obtain ⟨postAuthor,second,rest⟩ := bind_ok rest
      cases rest
      rintro f ⟨⟩
      refine ⟨dated,?_⟩
      simp only
      split
      · rename_i named_
        exact forwardLabel_valid first named_
      · split
        · rename_i named_
          exact forwardLabel_valid second named_
        · rfl
    · cases made

/-! Names. -/

/-- Spaces are there, and nothing else that is kept. -/
def Hollow (raw : Units) : Prop :=
  (∃ c, some c ∈ points (cutName raw) ∧ Agent.isSpace c = true) ∧
    ∀ c, some c ∈ points (cutName raw) → Agent.isSpace c = true ∨ c = Char.ofNat 0xFFFD

theorem mem_keptName {cut : Units} : c ∈ (keptName cut).toList ↔ some c ∈ points cut ∧ c ≠ Char.ofNat 0xFFFD:= by
  simp [keptName]

theorem cutName_clean (member : u ∈ cutName raw) : u.toNat ≠ 0 := by
  have there : u ∈ raw.map fun u => if steering u.toNat then 32 else u := by
    have taken := List.mem_of_mem_take member
    unfold trimUnits at taken
    exact List.dropWhile_sublist _ |>.mem (List.mem_reverse.mp (List.dropWhile_sublist _ |>.mem (List.mem_reverse.mp taken)))
  obtain ⟨v,_,rfl⟩ := List.mem_map.mp there
  split
  · decide
  · rename_i plain
    intro zero
    rw [zero] at plain
    exact plain (by decide)

theorem keptName_size (raw : Units) : (keptName (cutName raw)).utf8ByteSize ≤ 384 := by
  have kept := charBytes_sublist (List.filter_sublist (p := fun c => c ≠ Char.ofNat 0xFFFD) (l := (points (cutName raw)).filterMap id))
  have all := points_size (cutName raw)
  have short : (cutName raw).length ≤ 128 := by
    unfold cutName
    rw [List.length_take]
    omega
  rw [keptName,utf8ByteSize_ofList]
  omega

theorem keptName_nul (raw : Units) : hasNul (keptName (cutName raw)) = false := by
  rw [Bool.eq_false_iff,ne_eq,hasNul_iff,mem_keptName]
  rintro ⟨member,_⟩
  rcases points_some member with large | ⟨u,there,same⟩
  · revert large
    decide
  · exact cutName_clean there (same.symm.trans (by decide))

/-- A name is fit to be kept unless it is hollow. -/
theorem name_valid (user : Option RawUser) : textValid (name user false) 512 = true ↔ ¬Hollow (rawName user) := by
  have long := keptName_size (rawName user)
  unfold name
  rw [if_neg Bool.false_ne_true]
  by_cases empty : keptName (cutName (rawName user)) = ""
  · rw [if_pos empty]
    refine ⟨fun _ ⟨⟨c,member,space⟩,_⟩ => ?_,fun _ => by decide⟩
    have kept : c ∈ (keptName (cutName (rawName user))).toList := by
      refine mem_keptName.mpr ⟨member,fun same => ?_⟩
      rw [same] at space
      revert space
      decide
    rw [empty] at kept
    cases kept
  · rw [if_neg empty]
    simp only [textValid,keptName_nul,Bool.and_eq_true,Bool.not_eq_true',decide_eq_true_eq,Bool.not_false,and_true]
    constructor
    · rintro ⟨visible,_⟩ ⟨_,spaces⟩
      rw [Bool.eq_false_iff] at visible
      apply visible
      rw [blank_iff]
      intro c member
      obtain ⟨there,plain⟩ := mem_keptName.mp member
      exact (spaces c there).resolve_right plain
    · intro full
      refine ⟨?_,by omega⟩
      rw [Bool.eq_false_iff,ne_eq,blank_iff]
      intro spaces
      apply full
      constructor
      · cases is_ : (keptName (cutName (rawName user))).toList with
        | nil => exact absurd (String.toList_eq_nil_iff.mp is_) empty
        | cons c rest =>
          have member : c ∈ (keptName (cutName (rawName user))).toList := by rw [is_]; exact List.mem_cons_self
          exact ⟨c,(mem_keptName.mp member).1,spaces c member⟩
      · intro c member
        by_cases mark : c = Char.ofNat 0xFFFD
        · exact .inr mark
        · exact .inl (spaces c (mem_keptName.mpr ⟨member,mark⟩))

/-- The author's name is hollow, and shown. -/
def HollowAuthor (r : Reader) (user : Option RawUser) (authorId : String) : Prop :=
  authorId.toList.head? ≠ some '-' ∧ authorId ≠ r.accountId ∧ Hollow (rawName user)

theorem displayName_valid (r : Reader) (user : Option RawUser) (authorId : String) :
    textValid (displayName r user authorId) 512 = true ↔ ¬HollowAuthor r user authorId := by
  unfold displayName HollowAuthor
  by_cases group : authorId.toList.head? = some '-'
  · simp only [group,ne_eq,not_true_eq_false,false_and,not_false_eq_true,iff_true,if_true]
    decide
  · rw [if_neg group]
    by_cases own : authorId = r.accountId
    · simp only [own,decide_true,ne_eq,not_true_eq_false,false_and,and_false,not_false_eq_true,iff_true,name,if_true]
      decide
    · simp only [own,decide_false,group,ne_eq,not_false_eq_true,true_and]
      exact name_valid user

end Neurobro.History
