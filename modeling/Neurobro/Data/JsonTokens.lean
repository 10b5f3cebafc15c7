import Neurobro.Data.JsonWritten

/-! The strings and the colons of a text, as a scanner finds them that knows no grammar. On a
JSON text there is a colon for every member of an object. -/
namespace Neurobro.JsonText

open List

/-- A string after its opening quote, up to the next quote that no backslash stands before. -/
def stringToken : List Char → Option (List Char × List Char)
  | [] => none
  | [c] => if c = '"' then some ([c],[]) else none
  | c :: d :: rest =>
    if c = '"' then some ([c],d :: rest)
    else if c = '\\' then (stringToken rest).map fun r => (c :: d :: r.1,r.2)
    else (stringToken (d :: rest)).map fun r => (c :: r.1,r.2)

/-- One token after another; a quote that opens no string is passed over. -/
def tokensFrom : Nat → List Char → List (List Char)
  | 0,_ => []
  | _ + 1,[] => []
  | fuel + 1,c :: rest =>
    if c = '"' then
      match stringToken rest with
      | some (token,after) => (c :: token) :: tokensFrom fuel after
      | none => tokensFrom fuel rest
    else if c = ':' then [c] :: tokensFrom fuel rest
    else tokensFrom fuel rest

def tokens (text : List Char) : List (List Char) := tokensFrom text.length text

def colons (text : List Char) : Nat := (tokens text).count [':']

/-! ## The scanner -/

theorem stringToken_shorter {text : List Char} (token : stringToken text = some r) : r.2.length < text.length:= by
  induction text using stringToken.induct generalizing r with
  | case1 => cases token
  | case2 =>
    cases token
    exact Nat.zero_lt_one
  | case3 c other => simp [stringToken,other] at token
  | case4 d rest =>
    cases token
    exact Nat.lt_succ_self _
  | case5 d rest _ escaped =>
    obtain ⟨inner,is_,rfl⟩ := Option.map_eq_some_iff.mp token
    have := escaped is_
    simp only [length_cons]
    omega
  | case6 c d rest quote slash plain =>
    rw [stringToken,if_neg quote,if_neg slash] at token
    obtain ⟨inner,is_,rfl⟩ := Option.map_eq_some_iff.mp token
    have := plain is_
    simp only [length_cons] at this ⊢
    omega

/-- More fuel than there are characters finds nothing more. -/
theorem tokensFrom_fuel (fuel : Nat) : ∀ (text : List Char) (more : Nat), text.length ≤ fuel → text.length ≤ more →
    tokensFrom fuel text = tokensFrom more text := by
  induction fuel with
  | zero =>
    intro text more short _
    rw [length_eq_zero_iff.mp (Nat.le_zero.mp short)]
    cases more <;> rfl
  | succ fuel ih =>
    intro text more short enough
    cases text with
    | nil => cases more <;> rfl
    | cons c rest =>
      rw [length_cons] at short enough
      obtain ⟨more,rfl⟩ := Nat.exists_eq_succ_of_ne_zero (by omega : more ≠ 0)
      rw [Nat.succ_eq_add_one,tokensFrom,tokensFrom,ih rest more (by omega) (by omega)]
      cases token : stringToken rest with
      | none => rfl
      | some r =>
        have shorter := stringToken_shorter token
        simp only [ih r.2 more (by omega) (by omega)]

theorem tokens_cons (text : List Char) (quote : c ≠ '"') (colon : c ≠ ':') : tokens (c :: text) = tokens text := by
  rw [tokens,length_cons,tokensFrom,if_neg quote,if_neg colon]
  rfl

theorem tokens_colon (text : List Char) : tokens (':' :: text) = [':'] :: tokens text := by
  rw [tokens,length_cons,tokensFrom,if_neg (by decide),if_pos rfl]
  rfl

theorem tokens_string {text : List Char} (token : stringToken text = some r) :
    tokens ('"' :: text) = ('"' :: r.1) :: tokens r.2 := by
  have shorter := stringToken_shorter token
  rw [tokens,length_cons,tokensFrom,if_pos rfl,token]
  simp only [tokens,List.cons.injEq,true_and]
  exact tokensFrom_fuel _ _ _ (by omega) (Nat.le_refl _)

@[simp] theorem colons_nil : colons [] = 0 := rfl

theorem colons_cons (text : List Char) (quote : c ≠ '"') (colon : c ≠ ':') : colons (c :: text) = colons text := by
  rw [colons,tokens_cons text quote colon,colons]

theorem colons_colon (text : List Char) : colons (':' :: text) = 1 + colons text := by
  rw [colons,tokens_colon,count_cons_self,colons,Nat.add_comm]

theorem colons_string {text : List Char} (token : stringToken text = some r) : colons ('"' :: text) = colons r.2:= by
  rw [colons,tokens_string token,count_cons_of_ne (by simp),colons]

/-- What has neither a quote nor a colon is passed over. -/
theorem colons_append {passed : List Char} (rest : List Char) (marks : ∀ c ∈ passed, c ≠ '"' ∧ c ≠ ':') :
    colons (passed ++ rest) = colons rest := by
  induction passed with
  | nil => rfl
  | cons c passed ih =>
    rw [forall_mem_cons] at marks
    rw [cons_append,colons_cons _ marks.1.1 marks.1.2,ih marks.2]

theorem blank_marks (blank_ : blank c = true) : c ≠ '"' ∧ c ≠ ':' := by
  constructor <;> rintro rfl <;> exact absurd blank_ (by decide)

theorem digit_marks (digit : c.isDigit = true) : c ≠ '"' ∧ c ≠ ':' := by
  constructor <;> rintro rfl <;> exact absurd digit (by decide)

@[simp] theorem colons_skip (text : List Char) : colons (skip text) = colons text := by
  have parts : text = text.takeWhile blank ++ skip text := takeWhile_append_dropWhile.symm
  have marks : ∀ c ∈ text.takeWhile blank, c ≠ '"' ∧ c ≠ ':' := fun c in_ => blank_marks (all_eq_true.mp all_takeWhile c in_)
  conv => rhs; rw [parts,colons_append _ marks]

/-! ## Strings -/

/-- What is left after a string. -/
def stringRest (text : List Char) : Option (List Char) := (stringToken text).map Prod.snd

theorem stringRest_quote (rest : List Char) : stringRest ('"' :: rest) = some rest := by
  cases rest <;> rfl

theorem stringRest_plain (rest : List Char) (quote : c ≠ '"') (slash : c ≠ '\\') :
    stringRest (c :: rest) = stringRest rest := by
  cases rest with
  | nil => simp [stringRest,stringToken,quote]
  | cons d rest => simp [stringRest,stringToken,quote,slash,Function.comp_def]

theorem stringRest_escape (c : Char) (rest : List Char) : stringRest ('\\' :: c :: rest) = stringRest rest := by
  simp [stringRest,stringToken,Function.comp_def]

theorem hexValue_plain (hex : hexValue c = some n) : c ≠ '"' ∧ c ≠ '\\' := by
  constructor <;> rintro rfl
  · cases hex.symm.trans (by decide : hexValue '"' = none)
  · cases hex.symm.trans (by decide : hexValue '\\' = none)

theorem readUnit_rest {text rest : List Char} (read : readUnit text = some (unit,rest)) :
    stringRest text = stringRest rest := by
  unfold readUnit at read
  split at read
  · next a b c d after =>
    simp only [Option.bind_eq_bind,Option.bind_eq_some_iff] at read
    obtain ⟨x,isA,y,isB,z,isC,w,isD,is_⟩ := read
    cases is_
    rw [stringRest_plain _ (hexValue_plain isA).1 (hexValue_plain isA).2,
      stringRest_plain _ (hexValue_plain isB).1 (hexValue_plain isB).2,
      stringRest_plain _ (hexValue_plain isC).1 (hexValue_plain isC).2,
      stringRest_plain _ (hexValue_plain isD).1 (hexValue_plain isD).2]
  · cases read

theorem readLow_rest {text rest : List Char} (read : readLow high text = some (c,rest)) :
    stringRest text = stringRest rest := by
  unfold readLow at read
  split at read
  · next after =>
    simp only [Option.bind_eq_bind,Option.bind_eq_some_iff] at read
    obtain ⟨⟨low,left⟩,unit,is_⟩ := read
    rw [stringRest_escape,readUnit_rest unit]
    split at is_
    · rw [← (Prod.mk.inj (Option.some.inj is_)).2]
    · cases is_
  · cases read

theorem readEscape_rest {text rest : List Char} (read : readEscape text = some (c,rest)) :
    stringRest ('\\' :: text) = stringRest rest := by
  cases text with
  | nil => cases read
  | cons d after =>
    rw [stringRest_escape]
    by_cases unit : d = 'u'
    · subst unit
      rw [readEscape] at read
      simp only [Char.reduceEq,or_self,if_false,if_true,Option.bind_eq_bind] at read
      obtain ⟨⟨unit,left⟩,is_,rest_⟩ := Option.bind_eq_some_iff.mp read
      rw [readUnit_rest is_]
      simp only at rest_
      split at rest_
      · exact readLow_rest rest_
      · split at rest_
        · cases rest_
        · rw [← (Prod.mk.inj (Option.some.inj rest_)).2]
    · have single : rest = after := by
        rw [readEscape,if_neg unit] at read
        split at read
        · exact (Prod.mk.inj (Option.some.inj read)).2.symm
        · repeat' split at read
          all_goals first
            | exact (Prod.mk.inj (Option.some.inj read)).2.symm
            | cases read
      rw [single]

theorem readChar_rest {text rest : List Char} (inner : text.head? ≠ some '"') (read : readChar text = some (c,rest)) :
    stringRest text = stringRest rest := by
  cases text with
  | nil => cases read
  | cons d after =>
    rw [readChar] at read
    split_ifs at read with slash
    · subst slash
      exact readEscape_rest read
    · cases read
      exact stringRest_plain _ (by simpa using inner) slash

/-- What is read as a string is found as one token. -/
theorem readChars_rest {text cs rest : List Char} (read : readChars fuel text = some (cs,rest)) :
    stringRest text = some rest := by
  induction fuel generalizing text cs with
  | zero => cases read
  | succ fuel ih =>
    rw [readChars] at read
    split_ifs at read with ended
    · cases read
      cases text with
      | nil => cases ended
      | cons c after =>
        cases ended
        exact stringRest_quote after
    · simp only [Option.bind_eq_bind,Option.bind_eq_some_iff] at read
      obtain ⟨⟨c,left⟩,first,⟨more,left'⟩,others,is_⟩ := read
      cases is_
      rw [readChar_rest ended first,ih others]

theorem readChars_colons {text cs rest : List Char} (read : readChars fuel text = some (cs,rest)) :
    colons ('"' :: text) = colons rest := by
  obtain ⟨r,token,rfl⟩ := Option.map_eq_some_iff.mp (readChars_rest read)
  exact colons_string token

/-! ## Numbers, words and marks -/

/-- What was read has neither a quote nor a colon. -/
def Passed (text rest : List Char) : Prop := ∃ passed, text = passed ++ rest ∧ ∀ c ∈ passed, c ≠ '"' ∧ c ≠ ':'

theorem Passed.refl (text : List Char) : Passed text text := ⟨[],rfl,by simp⟩

theorem Passed.trans {text middle rest : List Char} (first : Passed text middle) (second : Passed middle rest) : Passed text rest := by
  obtain ⟨a,rfl,marksA⟩ := first
  obtain ⟨b,rfl,marksB⟩ := second
  refine ⟨a ++ b,(append_assoc ..).symm,fun c in_ => ?_⟩
  rcases mem_append.mp in_ with in_ | in_
  · exact marksA c in_
  · exact marksB c in_

theorem Passed.one {rest : List Char} (quote : c ≠ '"') (colon : c ≠ ':') : Passed (c :: rest) rest :=
  ⟨[c],rfl,by simp [quote,colon]⟩

theorem Passed.tail {c : Char} {text : List Char} (head : text.head? = some c) (quote : c ≠ '"') (colon : c ≠ ':') :
    Passed text text.tail := by
  cases text with
  | nil => cases head
  | cons d rest =>
    cases head
    exact .one quote colon

theorem Passed.colons {text rest : List Char} (passed : Passed text rest) : colons text = colons rest := by
  obtain ⟨passed,rfl,marks⟩ := passed
  exact colons_append rest marks

theorem readDigits_passed {text digits rest : List Char} (read : readDigits text = some (digits,rest)) : Passed text rest := by
  simp only [readDigits] at read
  split at read
  · cases read
  · cases read
    exact ⟨text.takeWhile Char.isDigit,takeWhile_append_dropWhile.symm,
      fun c in_ => digit_marks (all_eq_true.mp all_takeWhile c in_)⟩

theorem readFraction_passed {text digits rest : List Char} (read : readFraction text = some (digits,rest)) : Passed text rest := by
  rw [readFraction] at read
  split at read
  · next point => exact (Passed.tail point (by decide) (by decide)).trans (readDigits_passed read)
  · cases read
    exact .refl _

theorem readExponent_passed {text rest : List Char} (read : readExponent text = some (e,rest)) : Passed text rest := by
  rw [readExponent] at read
  split at read
  · next mark =>
    have start : Passed text text.tail := by
      rcases mark with mark | mark
      · exact .tail mark (by decide) (by decide)
      · exact .tail mark (by decide) (by decide)
    simp only [Option.bind_eq_bind,Option.bind_eq_some_iff] at read
    obtain ⟨⟨digits,left⟩,is_,same⟩ := read
    obtain ⟨-,rfl⟩ := Prod.mk.inj (Option.some.inj same)
    refine start.trans (Passed.trans ?_ (readDigits_passed is_))
    split
    · next sign =>
      rcases sign with sign | sign
      · exact .tail (by simpa using sign) (by decide) (by decide)
      · exact .tail sign (by decide) (by decide)
    · exact .refl _
  · cases read
    exact .refl _

theorem readNumber_passed {text rest : List Char} (read : readNumber text = some (x,rest)) : Passed text rest := by
  simp only [readNumber,Option.bind_eq_bind,Option.bind_eq_some_iff] at read
  obtain ⟨⟨whole,left⟩,isWhole,read⟩ := read
  have start : Passed text (if text.head? = some '-' then text.tail else text) := by
    split
    · next minus => exact .tail minus (by decide) (by decide)
    · exact .refl _
  split at read
  · cases read
  · simp only [Option.bind_eq_some_iff] at read
    obtain ⟨⟨fraction,left'⟩,isFraction,⟨exponent,last⟩,isExponent,same⟩ := read
    obtain ⟨-,rfl⟩ := Prod.mk.inj (Option.some.inj same)
    exact ((start.trans (readDigits_passed isWhole)).trans (readFraction_passed isFraction)).trans (readExponent_passed isExponent)

theorem readWord_colons {word text rest : List Char} {value tree : Json} (marks : ∀ c ∈ word, c ≠ '"' ∧ c ≠ ':')
    (read : readWord word value text = some (tree,rest)) : tree = value ∧ colons text = colons rest := by
  unfold readWord at read
  split at read
  · next start =>
    obtain ⟨rest,rfl⟩ := isPrefixOf_iff_prefix.mp start
    rw [drop_left] at read
    cases read
    exact ⟨rfl,colons_append _ marks⟩
  · cases read

theorem closing_colons {mark : Char} {text rest : List Char} (quote : mark ≠ '"') (colon : mark ≠ ':')
    (closed : closing mark text = some (last,rest)) : colons text = colons rest := by
  rw [closing] at closed
  rw [← colons_skip text]
  cases skipped : skip text with
  | nil => simp [skipped] at closed
  | cons c after =>
    rw [skipped] at closed
    simp only at closed
    split at closed
    · next is_ =>
      cases closed
      exact colons_cons _ (is_ ▸ quote) (is_ ▸ colon)
    · split at closed
      · next is_ =>
        cases closed
        subst is_
        exact colons_cons _ (by decide) (by decide)
      · cases closed

theorem readKey_colons {text rest : List Char} {key : String} (read : readKey fuel text = some (key,rest)) :
    colons text = 1 + colons rest := by
  rw [readKey] at read
  rw [← colons_skip text]
  cases skipped : skip text with
  | nil => simp [skipped] at read
  | cons c after =>
    rw [skipped] at read
    simp only at read
    split at read
    · next is_ =>
      subst is_
      simp only [Option.bind_eq_bind,Option.bind_eq_some_iff] at read
      obtain ⟨⟨cs,left⟩,chars,read⟩ := read
      rw [readChars_colons chars,← colons_skip left]
      split at read
      · next mark =>
        cases read
        cases start : skip left with
        | nil => simp [start] at mark
        | cons d rest =>
          rw [start] at mark
          cases mark
          exact colons_colon rest
      · cases read
    · cases read

/-! ## A colon for every member -/

theorem empty_colons {mark : Char} {text : List Char} (quote : mark ≠ '"') (colon : mark ≠ ':')
    (closed : (skip text).head? = some mark) : colons text = colons (skip text).tail := by
  rw [← colons_skip text]
  exact (Passed.tail closed quote colon).colons

theorem read_colons (fuel : Nat) :
    (∀ text tree rest, writtenValue fuel text = some (tree,rest) → colons text = pairs tree + colons rest) ∧
      (∀ text items rest, writtenItems fuel text = some (items,rest) → colons text = pairsItems items + colons rest) ∧
      ∀ text members rest, writtenMembers fuel text = some (members,rest) → colons text = pairsMembers members + colons rest := by
  induction fuel with
  | zero => refine ⟨?_,?_,?_⟩ <;> intro _ _ _ read <;> cases read
  | succ fuel ih =>
    obtain ⟨values,items,members⟩ := ih
    refine ⟨fun text tree rest read => ?_,fun text tree rest read => ?_,fun text tree rest read => ?_⟩
    · rw [writtenValue] at read
      rw [← colons_skip text]
      cases skipped : skip text with
      | nil => simp [skipped] at read
      | cons c after =>
        rw [skipped] at read
        simp only at read
        split at read
        · next is_ =>
          subst is_
          obtain ⟨r,chars,same⟩ := Option.map_eq_some_iff.mp read
          cases same
          rw [readChars_colons chars,pairs,Nat.zero_add]
        · next quote =>
          split at read
          · next is_ =>
            subst is_
            rw [colons_cons after (by decide) (by decide)]
            split at read
            · next closed =>
              cases read
              rw [empty_colons (by decide) (by decide) closed,pairs,pairsItems,Nat.zero_add]
            · obtain ⟨r,inner,same⟩ := Option.map_eq_some_iff.mp read
              cases same
              exact items after r.1 r.2 inner
          · split at read
            · next is_ =>
              subst is_
              rw [colons_cons after (by decide) (by decide)]
              split at read
              · next closed =>
                cases read
                rw [empty_colons (by decide) (by decide) closed,pairs,pairsMembers,Nat.zero_add]
              · obtain ⟨r,inner,same⟩ := Option.map_eq_some_iff.mp read
                cases same
                exact members after r.1 r.2 inner
            · split at read
              · next is_ =>
                obtain ⟨rfl,same⟩ := readWord_colons (by simp) read
                rw [is_,colons_cons after (by decide) (by decide),same,pairs,Nat.zero_add]
              · split at read
                · next is_ =>
                  obtain ⟨rfl,same⟩ := readWord_colons (by simp) read
                  rw [is_,colons_cons after (by decide) (by decide),same,pairs,Nat.zero_add]
                · split at read
                  · next is_ =>
                    obtain ⟨rfl,same⟩ := readWord_colons (by simp) read
                    rw [is_,colons_cons after (by decide) (by decide),same,pairs,Nat.zero_add]
                  · obtain ⟨r,number,same⟩ := Option.map_eq_some_iff.mp read
                    cases same
                    rw [(readNumber_passed number).colons,pairs,Nat.zero_add]
    · simp only [writtenItems,Option.bind_eq_bind,Option.bind_eq_some_iff] at read
      obtain ⟨⟨item,left⟩,first,⟨last,left'⟩,closed,read⟩ := read
      rw [values text item left first,closing_colons (by decide) (by decide) closed]
      split at read
      · cases read
        rw [pairsItems,pairsItems,Nat.add_zero]
      · obtain ⟨⟨others,end_⟩,more,same⟩ := Option.bind_eq_some_iff.mp read
        cases same
        rw [items left' others end_ more,pairsItems,Nat.add_assoc]
    · simp only [writtenMembers,Option.bind_eq_bind,Option.bind_eq_some_iff] at read
      obtain ⟨⟨key,left⟩,isKey,⟨value,left'⟩,first,⟨last,left''⟩,closed,read⟩ := read
      rw [readKey_colons isKey,values left value left' first,closing_colons (by decide) (by decide) closed]
      split at read
      · cases read
        simp only [pairsMembers]
        omega
      · obtain ⟨⟨others,end_⟩,more,same⟩ := Option.bind_eq_some_iff.mp read
        cases same
        simp only [members left'' others end_ more,pairsMembers]
        omega

/-- On a JSON text the scanner finds a colon for each pair of the tree. -/
theorem written_colons {text : String} (is_ : written text = some tree) : colons text.toList = pairs tree := by
  simp only [written,Option.bind_eq_bind,Option.bind_eq_some_iff] at is_
  obtain ⟨⟨tree',rest⟩,read,is_⟩ := is_
  split at is_
  · next ended =>
    cases is_
    rw [(read_colons _).1 _ _ _ read,← colons_skip rest,ended,colons_nil,Nat.add_zero]
  · cases is_

end Neurobro.JsonText
