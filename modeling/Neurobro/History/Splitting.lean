import Neurobro.Api.Batch
import Neurobro.History.Ordering
import Neurobro.Projection.Source

/-! What is cut of a report is the report: no chunk is blank or long, and together they are the
body. A descriptor that was written reads back as it was, and without one that reads nothing
is sent. -/
namespace Neurobro.History

open Durable Script Journal Pilot Telegram Report

/-! ## Where a chunk ends -/

section Cutting

theorem bytes_le (begins : chunk <+: cs) : bytes chunk ≤ bytes cs := by
  unfold bytes
  rw [utf8ByteSize_ofList,utf8ByteSize_ofList]
  exact charBytes_sublist begins.sublist

theorem takeBytes_begins (room : Nat) (cs : List Char) : takeBytes room cs <+: cs := by
  induction cs generalizing room with
  | nil => exact List.nil_prefix
  | cons c rest ih =>
    unfold takeBytes
    split
    · exact List.cons_prefix_cons.mpr ⟨rfl,ih _⟩
    · exact List.nil_prefix

theorem throughLast_begins {delimiter cs kept : List Char} (found : throughLast delimiter cs = some kept) : kept <+: cs := by
  induction cs generalizing kept with
  | nil => cases found
  | cons c rest ih =>
    unfold throughLast at found
    cases later : throughLast delimiter rest with
    | some inner =>
      rw [later] at found
      cases found
      exact List.cons_prefix_cons.mpr ⟨rfl,ih later⟩
    | none =>
      rw [later] at found
      by_cases here : delimiter.isPrefixOf (c :: rest) = true
      · simp only [here,if_true] at found
        cases found
        exact List.isPrefixOf_iff_prefix.mp here
      · simp [here] at found

theorem cutBack_begins (chunk : List Char) : cutBack chunk <+: chunk := by
  unfold cutBack
  cases found : (["\n\n","\n"].filterMap fun delimiter => throughLast delimiter.toList chunk).find? fun kept =>
      decide (3072 ≤ bytes kept) with
  | none => exact List.prefix_rfl
  | some kept =>
    obtain ⟨delimiter,_,at_⟩ := List.mem_filterMap.mp (List.mem_of_find?_eq_some found)
    exact throughLast_begins at_

theorem beforeLastInk_begins {chunk kept : List Char} (found : beforeLastInk chunk = some kept) : kept <+: chunk := by
  have split := List.takeWhile_append_dropWhile (p := Agent.isSpace) (l := chunk.reverse)
  unfold beforeLastInk at found
  cases inked : chunk.reverse.dropWhile Agent.isSpace with
  | nil => simp [inked] at found
  | cons c rest =>
    simp only [inked,Option.some.injEq] at found
    rw [inked] at split
    have back := congrArg List.reverse split
    rw [List.reverse_append,List.reverse_cons,List.reverse_reverse,found,List.append_assoc] at back
    exact ⟨_,back⟩

theorem spareTail_begins {remaining chunk kept : List Char} (cut : spareTail remaining chunk = .ok kept) : kept <+: chunk := by
  unfold spareTail at cut
  split at cut
  · split at cut
    · cases cut
    · rename_i before found
      simp only [fail] at cut
      cases (guard_eq_ok.mp cut).2
      exact beforeLastInk_begins found
  · cases cut
    exact List.prefix_rfl

end Cutting

/-- What may be sent as one message. -/
def Sendable (chunk : String) : Prop := blank chunk = false ∧ hasNul chunk = false ∧ chunk.utf8ByteSize ≤ 4096

theorem validText_ink {text : String} {maximum : Nat} (valid : validText text maximum = true) :
    blank text = false ∧ hasNul text = false := by
  simp only [validText,Bool.and_eq_true,Bool.not_eq_true'] at valid
  exact ⟨valid.1.2,valid.2⟩

/-- The chunks may be sent, and are the body. -/
theorem splitReportBody_cut {body : List Char} (cut : splitReportBody fuel body = .ok chunks) :
    (∀ chunk ∈ chunks, Sendable chunk) ∧ chunks.flatMap String.toList = body := by
  induction fuel generalizing body chunks with
  | zero => cases cut
  | succ fuel ih =>
    unfold splitReportBody at cut
    by_cases long : 4096 < bytes body
    · rw [if_pos long] at cut
      obtain ⟨chunk,spared,rest⟩ := bind_ok cut
      have begins := (spareTail_begins spared).trans (cutBack_begins _)
      have small : bytes chunk ≤ 4096 := by
        have taken := takeBytes_size 4096 body
        have most := bytes_le begins
        rw [bytes,bytes,utf8ByteSize_ofList,utf8ByteSize_ofList] at most
        rw [bytes,utf8ByteSize_ofList]
        omega
      by_cases valid : validText (String.ofList chunk) 4096 = true
      · rw [if_pos valid] at rest
        obtain ⟨later,cutLater,same⟩ := bind_ok rest
        cases same
        obtain ⟨sendable,whole⟩ := ih cutLater
        obtain ⟨ink,clean⟩ := validText_ink valid
        obtain ⟨tail,rfl⟩ := begins.trans (takeBytes_begins 4096 body)
        constructor
        · intro text member
          obtain rfl | old := List.mem_cons.mp member
          · exact ⟨ink,clean,small⟩
          · exact sendable text old
        · rw [List.flatMap_cons,whole,String.toList_ofList,List.drop_left]
      · rw [if_neg valid] at rest
        cases rest
    · rw [if_neg long] at cut
      by_cases valid : validText (String.ofList body) 4096 = true
      · rw [if_pos valid] at cut
        cases cut
        obtain ⟨ink,clean⟩ := validText_ink valid
        refine ⟨fun text member => ?_,by simp⟩
        cases List.mem_singleton.mp member
        exact ⟨ink,clean,Nat.le_of_not_lt long⟩
      · rw [if_neg valid] at cut
        cases cut

/-- The length of the body is fuel enough. -/
theorem splitReportBody_enough {body : List Char} (enough : body.length < fuel) (more : Nat) :
    splitReportBody (fuel + more) body = splitReportBody fuel body := by
  induction fuel generalizing body with
  | zero => cases enough
  | succ fuel ih =>
    rw [Nat.succ_add,splitReportBody,splitReportBody]
    by_cases long : 4096 < bytes body
    swap
    · rw [if_neg long,if_neg long]
    rw [if_pos long,if_pos long]
    have some_ : 0 < body.length := by
      apply List.length_pos_of_ne_nil
      rintro rfl
      cases long
    cases spared : spareTail body (cutBack (takeBytes 4096 body)) with
    | error no => rfl
    | ok chunk =>
      by_cases valid : validText (String.ofList chunk) 4096 = true
      · have later : splitReportBody (fuel + more) (body.drop chunk.length) = splitReportBody fuel (body.drop chunk.length) := by
          apply ih
          have positive : 0 < chunk.length := by
            apply List.length_pos_of_ne_nil
            rintro rfl
            cases valid
          rw [List.length_drop]
          omega
        simp only [bind,Except.bind,valid,if_true,later]
      · simp only [bind,Except.bind,if_neg valid]

/-! ## The parts of a report -/

/-- What is prepared of a body: its chunks, and the parts they make. -/
structure Splits (hash : String → String) (i : Intent) (readiness : Readiness) (body : String) (prepared : Prepared)
    (chunks : List String) : Prop where
  cut : splitReportBody (body.length + 1) body.toList = .ok chunks
  text : prepared.text = body ++ "\n\n" ++ sourceFooter i readiness
  textHash : prepared.textHash = hash prepared.text
  closing : (sourceFooter i readiness).utf8ByteSize ≤ 4096
  parts : prepared.text.utf8ByteSize ≤ 4096 ∧ prepared.parts = [part hash 1 .combined prepared.text] ∨
    prepared.parts = partsOf hash chunks (sourceFooter i readiness)
  few : prepared.parts.length ≤ maxParts

theorem readyCopy_ok (copied : readyCopy r = .ok r') : r' = r := by
  simp only [readyCopy,fail] at copied
  obtain ⟨_,copied⟩ := guard_eq_ok.mp copied
  obtain ⟨_,copied⟩ := guard_eq_ok.mp copied
  exact (Except.ok.inj (guard_eq_ok.mp copied).2).symm

theorem prepareText_splits {hash : String → String} {body : String} {prepared : Prepared}
    (made : prepareText hash i readiness body = .ok prepared) : ∃ chunks, Splits hash i readiness body prepared chunks := by
  obtain ⟨r,copied,rest⟩ := bind_ok made
  cases readyCopy_ok copied
  simp only [fail] at rest
  obtain ⟨_,rest⟩ := guard_eq_ok.mp rest
  obtain ⟨_,rest⟩ := guard_eq_ok.mp rest
  obtain ⟨short,rest⟩ := guard_eq_ok.mp rest
  obtain ⟨chunks,cut,rest⟩ := bind_ok rest
  obtain ⟨few,same⟩ := guard_eq_ok.mp rest
  cases same
  refine ⟨chunks,cut,rfl,rfl,Nat.le_of_not_lt short,?_,Nat.le_of_not_lt few⟩
  simp only
  split
  · rename_i whole
    exact .inl ⟨whole,rfl⟩
  · exact .inr rfl

variable {hash : String → String} {i : Intent} {readiness : Readiness} {body : String} {prepared : Prepared}
  {chunks : List String}

theorem Splits.count (splits : Splits hash i readiness body prepared chunks) : chunks.length ≤ maxParts := by
  obtain ⟨whole,_⟩ | parted := splits.parts
  · have small : body.utf8ByteSize ≤ 4096 := by
      rw [splits.text,String.utf8ByteSize_append,String.utf8ByteSize_append] at whole
      omega
    have cut := splits.cut
    rw [splitReportBody,bytes,String.ofList_toList,if_neg (by omega)] at cut
    split at cut
    · cases cut
      exact (by decide : 1 ≤ maxParts)
    · cases cut
  · have few := splits.few
    simp only [parted,partsOf,List.length_append,List.length_mapIdx,List.length_singleton] at few
    omega

/-! ## The coverage is a text that may be sent -/

theorem hasNul_ofList (cs : List Char) : hasNul (String.ofList cs) = cs.contains (Char.ofNat 0) := by
  rw [hasNul,String.toList_ofList]

@[simp] theorem hasNul_append (a b : String) : hasNul (a ++ b) = (hasNul a || hasNul b) := by
  simp [hasNul]

theorem natChars_clean {done : List Char} (clean : Char.ofNat 0 ∉ done) : Char.ofNat 0 ∉ natChars fuel n done := by
  have digit : ∀ k < 10, Char.ofNat 0 ≠ Char.ofNat (48 + k) := by decide
  induction fuel generalizing n done with
  | zero => exact clean
  | succ fuel ih =>
    unfold natChars
    split
    · rename_i small
      exact List.not_mem_cons_of_ne_of_not_mem (digit n small) clean
    · exact ih (List.not_mem_cons_of_ne_of_not_mem (digit _ (Nat.mod_lt _ (by omega))) clean)

@[simp] theorem numberText_clean (q : Rat) : hasNul (numberText q) = false := by
  rw [numberText,hasNul_ofList]
  apply Bool.eq_false_iff.mpr
  rw [ne_eq,List.contains_iff_mem]
  have digits : Char.ofNat 0 ∉ natChars (q.num.natAbs + 1) q.num.natAbs [] := natChars_clean List.not_mem_nil
  split
  · exact List.not_mem_cons_of_ne_of_not_mem (by decide) digits
  · exact digits

@[simp] theorem digits_clean (width : Nat) (n : Int) : hasNul (digits width n) = false := by
  rw [digits,String.ofList_append,String.ofList_toList,hasNul_append,numberText_clean,hasNul_ofList,Bool.or_false]
  apply Bool.eq_false_iff.mpr
  rw [ne_eq,List.contains_iff_mem]
  intro no
  cases List.eq_of_mem_replicate no

theorem toISOString_clean (seconds : Int) : hasNul (toISOString seconds) = false := by
  have marks : hasNul "-" = false ∧ hasNul "T" = false ∧ hasNul ":" = false ∧ hasNul ".000Z" = false := by
    refine ⟨?_,?_,?_,?_⟩ <;>
    · rw [hasNul_ofList]
      decide
  simp [toISOString,marks]

theorem joined_clean (clean : ∀ text ∈ texts, hasNul text = false) : hasNul (joined "; " texts) = false := by
  fun_induction joined "; " texts with
  | case1 => rfl
  | case2 text => exact clean text List.mem_cons_self
  | case3 text rest _ ih =>
    have mark : hasNul "; " = false := by
      rw [hasNul_ofList]
      decide
    simp [mark,clean text List.mem_cons_self,ih fun later member => clean later (List.mem_cons_of_mem _ member)]

theorem gapText_clean (g : Gap) : hasNul (gapText g) = false := by
  have label : hasNul (gapLabels g.kind) = false := by
    cases g.kind <;>
    · rw [gapLabels,hasNul_ofList]
      decide
  have mark : hasNul ": " = false := by
    rw [hasNul_ofList]
    decide
  cases is_ : g.count with
  | none => simpa [gapText,is_] using label
  | some n => simp [gapText,label,is_,mark]

theorem footer_clean (zone : hasNul i.timezone = false) : hasNul (sourceFooter i readiness) = false := by
  have gaps : hasNul (joined "; " (readiness.gaps.map gapText)) = false := by
    apply joined_clean
    intro text member
    obtain ⟨g,_,rfl⟩ := List.mem_map.mp member
    exact gapText_clean g
  have marks : hasNul "Охват: " = false ∧ hasNul "/" = false ∧ hasNul " записей, " = false ∧ hasNul " страниц; " = false ∧
      hasNul " — " = false ∧ hasNul " (" = false ∧ hasNul ").\nИстория: " = false ∧ hasNul ". Пробелы: " = false ∧
      hasNul ". Сводка модели; утверждения не проверены." = false := by
    refine ⟨?_,?_,?_,?_,?_,?_,?_,?_,?_⟩ <;>
    · rw [hasNul_ofList]
      decide
  have told : hasNul "обход завершён" = false ∧ hasNul "полнота не подтверждена" = false ∧ hasNul "не отмечены" = false ∧
      hasNul "Источник: подключённое сообщество (только чтение).\n" = false ∧ hasNul "" = false := by
    refine ⟨?_,?_,?_,?_,?_⟩ <;>
    · rw [hasNul_ofList]
      decide
  unfold sourceFooter footer
  simp only [hasNul_append,numberText_clean,toISOString_clean,zone,marks,Bool.or_false,Bool.or_eq_false_iff]
  refine ⟨?_,?_,?_⟩
  · split <;> simp [told]
  · split <;> simp [told]
  · split
    · simp [told]
    · exact gaps

theorem blank_append (a b : String) : blank (a ++ b) = (blank a && blank b) := by
  rw [Bool.eq_iff_iff,Bool.and_eq_true,blank_iff,blank_iff,blank_iff,String.toList_append]
  simp only [List.mem_append,or_imp,forall_and]

theorem mark_ink : blank "Охват: " = false := by
  apply Bool.eq_false_iff.mpr
  intro no
  have space := blank_iff.mp no
  rw [String.toList_ofList] at space
  exact absurd (space 'О' List.mem_cons_self) (by decide)

theorem footer_ink : blank (footer i readiness) = false := by
  unfold footer
  simp only [blank_append,mark_ink,Bool.false_and]

theorem source_ink : blank (sourceFooter i readiness) = false := by
  rw [sourceFooter,blank_append,footer_ink,Bool.and_false]

theorem utf16_le_utf8 (c : Char) : (utf16 c).length ≤ c.utf8Size := by
  unfold utf16
  split
  · exact c.utf8Size_pos
  · rename_i large
    have positive := c.utf8Size_pos
    have several : c.utf8Size ≠ 1 := by
      intro one
      have low := UInt32.le_iff_toNat_le.mp (Char.utf8Size_eq_one_iff.mp one)
      exact large (Nat.lt_of_le_of_lt low (by decide))
    change 2 ≤ c.utf8Size
    omega

theorem utf16Length_le (text : String) : utf16Length text ≤ text.utf8ByteSize := by
  rw [utf16Length,utf16Units,utf8ByteSize_toList]
  induction text.toList with
  | nil => exact Nat.le_refl _
  | cons c rest ih =>
    have one := utf16_le_utf8 c
    rw [List.flatMap_cons,List.length_append,charBytes]
    omega

/-- The coverage is taken where the parts are read back. -/
theorem footer_valid (zone : hasNul i.timezone = false) (short : (sourceFooter i readiness).utf8ByteSize ≤ 4096) :
    validText (sourceFooter i readiness) 4096 = true := by
  have units := utf16Length_le (sourceFooter i readiness)
  simp only [validText,source_ink,footer_clean zone,Bool.not_false,Bool.and_true,decide_eq_true_eq]
  omega

/-! ## What is written reads back -/

theorem partsOf_dropLast (chunks : List String) (closing : String) :
    (partsOf hash chunks closing).dropLast = chunks.mapIdx fun index chunk => part hash (index + 1) .body chunk := by
  rw [partsOf,List.dropLast_concat]

theorem partsOf_last (chunks : List String) (closing : String) :
    ((partsOf hash chunks closing).getLast?.map Part.text).getD "" = closing := by
  simp [partsOf,part]

theorem partsOf_texts (hash : String → String) (chunks : List String) :
    (chunks.mapIdx fun index chunk => part hash (index + 1) .body chunk).map Part.text = chunks := by
  apply List.ext_getElem
  · simp
  · intro n _ _
    simp [part]

theorem joined_chunks (front : String) (chunks : List String) :
    chunks.foldl (fun text chunk => text ++ chunk) front = front ++ String.ofList (chunks.flatMap String.toList) := by
  induction chunks generalizing front with
  | nil => simp
  | cons chunk rest ih =>
    rw [List.foldl_cons,ih,List.flatMap_cons,String.ofList_append,String.ofList_toList,String.append_assoc]

/-- The body is what the parts before the coverage are together. -/
theorem fold_parts (cut : splitReportBody fuel body.toList = .ok chunks) :
    (chunks.mapIdx fun index chunk => part hash (index + 1) .body chunk).foldl (fun text part => text ++ part.text) "" = body := by
  rw [← List.foldl_map (f := Part.text) (g := fun text chunk : String => text ++ chunk),partsOf_texts,joined_chunks,
    (splitReportBody_cut cut).2]
  simp

theorem partsOf_sendable (hash : String → String) {closing : String} (cut : splitReportBody fuel cs = .ok chunks)
    (last : validText closing 4096 = true) (short : closing.utf8ByteSize ≤ 4096) :
    ∀ p ∈ partsOf hash chunks closing, validText p.text 4096 = true ∧ p.text.utf8ByteSize ≤ 4096 := by
  intro p member
  obtain early | final := List.mem_append.mp member
  · have text : p.text ∈ chunks := by
      rw [← partsOf_texts hash chunks]
      exact List.mem_map_of_mem early
    obtain ⟨ink,clean,small⟩ := (splitReportBody_cut cut).1 _ text
    have units := utf16Length_le p.text
    refine ⟨?_,small⟩
    simp only [validText,ink,clean,Bool.not_false,Bool.and_true,decide_eq_true_eq]
    omega
  · cases List.mem_singleton.mp final
    exact ⟨last,short⟩

variable {d : Descriptor}

/-- A report of several parts: they are listed, and its texts are made of them. -/
theorem copy_parts (copied : Descriptor.copy hash i d = .ok d) (several : d.schema ≠ .v1) :
    ∃ prepared chunks, Splits hash i ⟨d.sourceHead,d.analysisHead,some d.rootRef,d.coverage,d.gaps⟩ d.body prepared chunks ∧
      d.text = prepared.text ∧ d.textHash = prepared.textHash ∧ d.parts = some prepared.parts ∧ 2 ≤ prepared.parts.length := by
  obtain ⟨r,ready,rest⟩ := bind_ok copied
  cases readyCopy_ok ready
  simp only [fail] at rest
  obtain ⟨_,rest⟩ := guard_eq_ok.mp rest
  obtain ⟨prepared,made,rest⟩ := bind_ok rest
  obtain ⟨same,_⟩ := guard_eq_ok.mp rest
  obtain ⟨chunks,splits⟩ := prepareText_splits made
  simp only [Bool.or_eq_true,decide_eq_true_eq,Bool.not_eq_true',not_or,Bool.not_eq_false,ne_eq,not_not] at same
  obtain ⟨⟨⟨text,textHash⟩,_⟩,fits⟩ := same
  refine ⟨prepared,chunks,splits,text,textHash,?_⟩
  unfold Descriptor.partsFit at fits
  cases schema : d.schema with
  | v1 => exact absurd schema several
  | v2 =>
    simp only [schema,Bool.and_eq_true,decide_eq_true_eq] at fits
    exact ⟨fits.2,Nat.le_of_eq fits.1.symm⟩
  | v3 =>
    simp only [schema,Bool.and_eq_true,decide_eq_true_eq] at fits
    exact ⟨fits.2,Nat.le_of_succ_le fits.1⟩

/-- Reading undoes writing. -/
theorem stored_persisted (copied : Descriptor.copy hash i d = .ok d) (zone : hasNul i.timezone = false) :
    Descriptor.stored hash i d.persisted = .ok d := by
  by_cases single : d.schema = .v1
  · exact stored_single copied single
  obtain ⟨prepared,chunks,splits,text,textHash,listed,several⟩ := copy_parts copied single
  have parted : prepared.parts = partsOf hash chunks (sourceFooter i ⟨d.sourceHead,d.analysisHead,some d.rootRef,d.coverage,d.gaps⟩) := by
    obtain ⟨_,one⟩ | parted := splits.parts
    · rw [one] at several
      cases several with | step no => cases no
    · exact parted
  have fit := partsOf_sendable hash splits.cut (footer_valid zone splits.closing) splits.closing
  rw [← parted] at fit
  have fine : (decide (maxParts < prepared.parts.length) || decide (prepared.parts.length < 2) ||
      prepared.parts.any fun part => !validText part.text 4096 || decide (4096 < part.text.utf8ByteSize)) = false := by
    have few := splits.few
    simp only [Bool.or_eq_false_iff,decide_eq_false_iff_not,List.any_eq_false,Bool.not_eq_true,Bool.not_eq_false']
    exact ⟨⟨by omega,by omega⟩,fun p member => ⟨(fit p member).1,by have := (fit p member).2; omega⟩⟩
  have body : prepared.parts.dropLast.foldl (fun text part => text ++ part.text) "" = d.body := by
    rw [parted,partsOf_dropLast,fold_parts splits.cut]
  have closing : (prepared.parts.getLast?.map Part.text).getD "" =
      sourceFooter i ⟨d.sourceHead,d.analysisHead,some d.rootRef,d.coverage,d.gaps⟩ := by
    rw [parted,partsOf_last]
  have whole : d.body ++ "\n\n" ++ sourceFooter i ⟨d.sourceHead,d.analysisHead,some d.rootRef,d.coverage,d.gaps⟩ = d.text := by
    rw [text,splits.text]
  have hashed : hash d.text = d.textHash := by rw [textHash,splits.textHash,← text]
  simp only [Descriptor.stored,Descriptor.persisted,if_neg single,Option.isSome_none,Bool.or_false,Bool.false_eq_true,if_false,
    listed,fine,body,closing,whole,hashed]
  rw [← listed]
  exact copied

/-- The descriptor of a turn was copied for its task. -/
theorem turnOf_copied
    (made : turnOf h v head root existing = .ok t) :
    t.intent = v.intent ∧ Descriptor.copy h.hash v.intent t.descriptor = .ok t.descriptor := by
  unfold turnOf at made
  split at made
  · cases made
  obtain ⟨prepared,_,rest⟩ := bind_ok made
  obtain ⟨descriptor,copied,rest⟩ := bind_ok rest
  simp only [fail] at rest
  obtain ⟨_,rest⟩ := guard_eq_ok.mp rest
  split at rest
  · cases rest
  · cases rest
    have again := copied
    rw [← copy_ok copied] at again
    exact ⟨rfl,again⟩

/-! ## Nothing is sent without a descriptor that reads -/

section Refused
variable {ρ : Type} {h : Host} {e : TaskHost ρ}

/-- The directory is there, but nothing in it reads as the task's descriptor. -/
def SlotDir.Unread (h : Host) (i : Intent) (slot : SlotDir) : Prop :=
  ∀ envelope descriptor, slot.descriptor = some (.whole envelope) → openEnvelope h i envelope ≠ .ok descriptor

theorem unread_unready {slot : SlotDir} (unread : slot.Unread h i) :
    continues (readStandingHistoryTaskDelivery h i (some slot)) = false := by
  by_cases ready : (readStandingHistoryTaskDelivery h i (some slot)).storage = .ready
  · obtain ⟨_,same,descriptor,reads⟩ := delivery_reads ready
    cases same
    obtain ⟨sd,kept,stored⟩ := reads.kept
    have opened : openEnvelope h i (i,sd) = .ok descriptor := by rw [openEnvelope,if_pos rfl,stored]
    exact absurd opened (unread _ _ kept)
  · simp [continues,ready]

theorem existingStatus_refused {slot : SlotDir} (unread : slot.Unread h i) {P : Desk ρ → Prop}
    (there : ∀ s, P s → s.slot = some slot) : Meets P (existingStatus h i) (fun _ _ => False) P := by
  apply Meets.bind (M := fun found s => P s ∧ found = true)
  · refine .look fun s held => ⟨held,?_⟩
    rw [there s held]
    rfl
  intro found
  refine .assume (fun _ held => held.2) fun is_ => ?_
  rw [if_pos is_]
  apply Meets.bind ((Meets.fallible fun _ held => held).pre fun _ held => held.1)
  intro _
  apply Meets.bind readStatus_meets
  intro status
  apply Meets.bind (M := fun _ _ => False)
  · refine .guard (fun s held clear => ?_) fun _ held => held.1
    have goes : continues status = true := by simpa using clear
    obtain rfl | rfl := held.2
    · cases goes
    · rw [there s held.1,unread_unready unread] at goes
      cases goes
  · exact fun _ _ _ no => no.elim

/-- Nothing was sent, and the directory is as it was. -/
structure Unmoved (slot : SlotDir) (sends : List Sent) (s : Desk ρ) : Prop where
  slot : s.slot = some slot
  sends : s.sends = sends

theorem consult_unmoved {α : Type} (slot : SlotDir) (sends : List Sent) (f : ρ → Except String α × ρ) :
    Meets (Unmoved slot sends) (consult f) (fun _ => Unmoved slot sends) (Unmoved slot sends) := by
  apply Meets.bind (M := fun _ => Unmoved slot sends)
  · exact .look fun _ held => held
  intro _
  apply Meets.bind (M := fun _ => Unmoved slot sends)
  · exact .note fun _ held => ⟨held.slot,held.sends⟩
  exact fun _ => .lift (fun _ _ held _ => held) fun _ held => held

/-- A call for such a task throws, with nothing sent and the directory as it was. -/
theorem run_refused {slot : SlotDir} (v : DeliveryInput) (unread : slot.Unread h v.intent) (sends : List Sent) :
    Meets (Unmoved slot sends) (runStandingHistoryTaskDelivery h e (some v)) (fun _ _ => False) (Unmoved slot sends) := by
  apply Meets.bind (M := fun _ => Unmoved slot sends)
  · exact .lift (fun _ _ held _ => held) fun _ held => held
  intro _
  apply Meets.bind (consult_unmoved slot sends (live e))
  intro _
  apply Meets.bind (Meets.fallible fun _ held => held)
  intro _
  apply Meets.bind (existingStatus_refused unread fun _ held => held.slot)
  exact fun _ _ _ no => no.elim

end Refused

/-- The chunks of a report that is accepted may be sent and are its body; its descriptor reads
back as it was written; and a message goes out only while a descriptor that reads is on the
disk, where one that does not is refused by every call. -/
theorem report_descriptors {ρ : Type} (h : Host) (e : TaskHost ρ) :
    (∀ i readiness body prepared, prepareText h.hash i readiness body = .ok prepared →
      ∃ chunks, splitReportBody (body.length + 1) body.toList = .ok chunks ∧ chunks.length ≤ maxParts ∧
        (∀ chunk ∈ chunks, Sendable chunk) ∧ chunks.flatMap String.toList = body.toList) ∧
    (∀ zones v head root existing t slot, Projection.ValidIntent zones v.intent → turnOf h v head root existing = .ok t →
      ∃ slot' envelope, fillDescriptor t slot = .ok ((),slot') ∧ slot'.descriptor = some (.whole envelope) ∧
        openEnvelope h v.intent envelope = .ok t.descriptor) ∧
    (∀ r events, ∀ x ∈ (deliveryRun h e r events).sends, ∃ slot descriptor, x.slot = some slot ∧
      slot.Says h.hash descriptor) ∧
    ∀ v slot fates s, s.slot = some slot → slot.Unread h v.intent →
      (∀ result, (runStandingHistoryTaskDelivery h e (some v) fates s).1 ≠ .value result) ∧
        (runStandingHistoryTaskDelivery h e (some v) fates s).2.2.sends = s.sends ∧
        (runStandingHistoryTaskDelivery h e (some v) fates s).2.2.slot = some slot := by
  refine ⟨?_,?_,?_,?_⟩
  · intro i readiness body prepared made
    obtain ⟨chunks,splits⟩ := prepareText_splits made
    obtain ⟨sendable,whole⟩ := splitReportBody_cut splits.cut
    exact ⟨chunks,splits.cut,splits.count,sendable,whole⟩
  · intro zones v head root existing t slot valid made
    obtain ⟨same,copied⟩ := turnOf_copied made
    have zone : hasNul v.intent.timezone = false := by
      have text := valid.2.2.2.2.2.2.2.2.1
      simp only [textValid,Bool.and_eq_true,Bool.not_eq_true'] at text
      exact text.1.2
    refine ⟨_,(t.intent,t.descriptor.persisted),rfl,rfl,?_⟩
    rw [openEnvelope,if_pos same]
    exact stored_persisted copied zone
  · intro r events x member
    have ordered : Ordered h (deliveryRun h e r events) := by
      apply play_keeps run_meets
      · exact fun s held => held.grown rfl (.refl s.slot)
      · exact ordered_unsent rfl
    obtain ⟨slot,descriptor,_,is_,told,_⟩ := ordered.inOrder x member
    exact ⟨slot,descriptor,is_,told⟩
  · intro v slot fates s is_ unread
    have ended := run_refused (e := e) v unread s.sends fates s ⟨is_,rfl⟩
    cases outcome : (runStandingHistoryTaskDelivery h e (some v) fates s).1 with
    | value result =>
      rw [outcome] at ended
      exact ended.elim
    | threw no =>
      rw [outcome] at ended
      exact ⟨fun _ no => (by cases no),ended.sends,ended.slot⟩
    | crashed =>
      rw [outcome] at ended
      exact ⟨fun _ no => (by cases no),ended.sends,ended.slot⟩

end Neurobro.History
