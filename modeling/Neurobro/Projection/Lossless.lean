import Mathlib.Data.List.Infix
import Neurobro.Data.Results
import Neurobro.Projection.Notes

/-! Whatever the budgets, the pages of the notes are the notes: the summary cut between
characters and every claim once. -/
namespace Neurobro.Projection.Notes

open Telegram History Paging List

/-! ## Cutting a text -/

theorem mem_boundariesFrom : b ∈ boundariesFrom offset cs ↔ ∃ k ≤ cs.length, b = offset + charBytes (cs.take k):= by
  induction cs generalizing offset with
  | nil => simp [boundariesFrom,charBytes]
  | cons c rest ih =>
    rw [boundariesFrom,mem_cons,ih]
    constructor
    · rintro (rfl | ⟨k,le,rfl⟩)
      · exact ⟨0,Nat.zero_le _,by simp [charBytes]⟩
      · exact ⟨k + 1,by simpa using le,by simp [charBytes]; omega⟩
    · rintro ⟨k,le,rfl⟩
      cases k with
      | zero => exact .inl (by simp [charBytes])
      | succ k => exact .inr ⟨k,by simpa using le,by simp [charBytes]; omega⟩

theorem mem_boundaries : b ∈ boundaries cs ↔ ∃ k ≤ cs.length, b = charBytes (cs.take k) := by
  simp [boundaries,mem_boundariesFrom]

theorem takeBytes_exact (front back : List Char) : takeBytes (charBytes front) (front ++ back) = front := by
  induction front with
  | nil =>
    cases back with
    | nil => rfl
    | cons c back =>
      have positive := c.utf8Size_pos
      simp only [nil_append,charBytes,takeBytes]
      rw [if_neg (by omega)]
  | cons c front ih =>
    simp only [cons_append,charBytes,takeBytes]
    rw [if_pos (Nat.le_add_right _ _),Nat.add_sub_cancel_left,ih]

theorem dropBytes_exact (front back : List Char) : dropBytes (charBytes front) (front ++ back) = back := by
  induction front with
  | nil =>
    cases back with
    | nil => rfl
    | cons c back =>
      have positive := c.utf8Size_pos
      simp only [nil_append,charBytes,dropBytes]
      rw [if_neg (by omega)]
  | cons c front ih =>
    simp only [cons_append,charBytes,dropBytes]
    rw [if_pos (Nat.le_add_right _ _),Nat.add_sub_cancel_left,ih]

/-- Between two places where a text may be cut are whole characters. -/
theorem between_chars (cs : List Char) (le : k ≤ l) :
    between cs (charBytes (cs.take k)) (charBytes (cs.take l)) = (cs.take l).drop k := by
  have front : (cs.take l).take k = cs.take k := by rw [take_take,Nat.min_eq_left le]
  have parts : cs.take l = cs.take k ++ (cs.take l).drop k := by
    conv => lhs; rw [← take_append_drop k (cs.take l),front]
  have whole : cs = cs.take k ++ ((cs.take l).drop k ++ cs.drop l) := by
    conv => lhs; rw [← take_append_drop l cs,parts,append_assoc]
  have size : charBytes (cs.take l) - charBytes (cs.take k) = charBytes ((cs.take l).drop k) := by
    have sum := congrArg charBytes parts
    rw [charBytes_append] at sum
    omega
  have dropped : dropBytes (charBytes (cs.take k)) cs = (cs.take l).drop k ++ cs.drop l := by
    conv => lhs; rw [whole]
    have same : (cs.take k ++ ((cs.take l).drop k ++ cs.drop l)).take k = cs.take k := by rw [← whole]
    rw [same]
    exact dropBytes_exact _ _
  rw [between,size,dropped,takeBytes_exact]

theorem charBytes_lt (cs : List Char) (lt : k < l) (within : l ≤ cs.length) :
    charBytes (cs.take k) < charBytes (cs.take l) := by
  have front : (cs.take l).take k = cs.take k := by rw [take_take,Nat.min_eq_left (Nat.le_of_lt lt)]
  have parts : cs.take l = cs.take k ++ (cs.take l).drop k := by
    conv => lhs; rw [← take_append_drop k (cs.take l),front]
  have sum := congrArg charBytes parts
  rw [charBytes_append] at sum
  have some_ : (cs.take l).drop k ≠ [] := by
    rw [← length_pos_iff,length_drop,length_take]
    omega
  obtain ⟨c,rest,is_⟩ := exists_cons_of_ne_nil some_
  have positive := c.utf8Size_pos
  rw [is_,charBytes] at sum
  omega

theorem between_join {start middle stop : Nat} (start_ : start ∈ boundaries cs) (middle_ : middle ∈ boundaries cs)
    (stop_ : stop ∈ boundaries cs) (first : start ≤ middle) (second : middle ≤ stop) :
    between cs start middle ++ between cs middle stop = between cs start stop := by
  obtain ⟨k,_,rfl⟩ := mem_boundaries.mp start_
  obtain ⟨l,atL,rfl⟩ := mem_boundaries.mp middle_
  obtain ⟨m,atM,rfl⟩ := mem_boundaries.mp stop_
  have kl : k ≤ l := by
    by_contra no
    exact absurd (charBytes_lt cs (Nat.lt_of_not_le no) (by omega)) (by omega)
  have lm : l ≤ m := by
    by_contra no
    exact absurd (charBytes_lt cs (Nat.lt_of_not_le no) atL) (by omega)
  rw [between_chars cs kl,between_chars cs lm,between_chars cs (Nat.le_trans kl lm),stretch_join cs kl lm]

theorem between_self {start : Nat} (start_ : start ∈ boundaries cs) : between cs start start = [] := by
  obtain ⟨k,_,rfl⟩ := mem_boundaries.mp start_
  rw [between_chars cs (Nat.le_refl k)]
  simp [drop_take]

/-! ## Choosing a page -/

theorem search_between (fits : Nat → Bool) (candidates : List Nat) (order : low ≤ high) :
    low ≤ search fits candidates low high ∧ search fits candidates low high ≤ high := by
  induction low, high using search.induct fits candidates with
  | case1 low high less fit ih =>
    have within := ih (by omega)
    rw [search,if_pos less,if_pos fit]
    omega
  | case2 low high less out ih =>
    have within := ih (by omega)
    rw [search,if_pos less,if_neg out]
    omega
  | case3 low high done =>
    rw [search,if_neg done]
    omega

theorem addClaims_between (fits : Nat → Bool) {total endClaim : Nat} (order : endClaim ≤ total) :
    endClaim ≤ addClaims fits total endClaim ∧ addClaims fits total endClaim ≤ total := by
  induction endClaim using addClaims.induct fits total with
  | case1 endClaim more ih =>
    have within := ih (by omega)
    rw [addClaims,if_pos more]
    omega
  | case2 endClaim done =>
    rw [addClaims,if_neg done]
    omega

section
variable {h : Digests} {key : String} {n : Snapshot}

theorem endOfSummary_after (h : Digests) (key : String) (maxBytes startClaim : Nat) (start_ : startByte ∈ boundaries n.summary.toList) :
    endOfSummary h key n maxBytes startByte startClaim ∈ boundaries n.summary.toList ∧
      startByte ≤ endOfSummary h key n maxBytes startByte startClaim := by
  have within := (search_between (summaryFits h key n maxBytes startByte startClaim) (candidates n startByte)
    (Nat.zero_le (candidates n startByte).length)).2
  unfold endOfSummary
  by_cases none_ : found h key n maxBytes startByte startClaim = 0
  · rw [if_pos none_]
    exact ⟨start_,Nat.le_refl _⟩
  · have inside : found h key n maxBytes startByte startClaim - 1 < (candidates n startByte).length := by
      unfold found at none_ ⊢
      omega
    rw [if_neg none_,getD_eq_getElem?_getD,List.getElem?_eq_getElem inside,Option.getD_some]
    have member := getElem_mem inside
    simp only [candidates,mem_filter,decide_eq_true_eq] at member
    exact ⟨member.1,Nat.le_of_lt member.2⟩

/-- A page that is given moves on and fits. -/
theorem choosePage_ok (start_ : startByte ∈ boundaries n.summary.toList)
    (inside : startClaim ≤ n.claims.length) (chosen : choosePage h key n maxBytes startByte startClaim = .ok p) :
    ∃ endByte endClaim, p = page h key n startByte startClaim endByte endClaim ∧ endByte ∈ boundaries n.summary.toList ∧
      startByte ≤ endByte ∧ startClaim ≤ endClaim ∧ endClaim ≤ n.claims.length ∧
      (startByte < endByte ∨ startClaim < endClaim) ∧ jsonBytes p.json ≤ maxBytes := by
  simp only [choosePage] at chosen
  obtain ⟨fits,same⟩ := guard_eq_ok.mp chosen
  obtain rfl := Except.ok.inj same
  obtain ⟨cut,forward⟩ := endOfSummary_after h key maxBytes startClaim start_
  have more := addClaims_between (claimsFit h key n maxBytes startByte startClaim
    (endOfSummary h key n maxBytes startByte startClaim)) inside
  rw [not_or] at fits
  refine ⟨_,_,rfl,cut,forward,more.1,more.2,?_,by omega⟩
  by_contra still
  have below := more.1
  rw [not_or] at still
  exact fits.1 ⟨by omega,Nat.le_antisymm (Nat.le_of_not_lt still.2) below⟩

theorem choosePage_error (refused : choosePage h key n maxBytes startByte startClaim = .error e) : e = .limit:= by
  simp only [choosePage] at refused
  split at refused
  · exact (Except.error.inj refused).symm
  · cases refused

/-! ## Reading on -/

/-- Where a reading stands: so many bytes and so many claims were shown. -/
structure Place where
  byte : Nat
  claim : Nat

/-- No position at the start, any other at a place before the end. -/
def Stands (h : Digests) (key : String) (n : Snapshot) (supplied : Option String) (s : Place) : Prop :=
  s.byte ∈ boundaries n.summary.toList ∧ s.claim ≤ n.claims.length ∧ (supplied = none ∧ s = ⟨0,0⟩ ∨
    supplied = some (token h key n s.byte s.claim) ∧ ¬(s.byte = totalBytes n ∧ s.claim = n.claims.length))

/-- The notes of a node: what was kept of it is small. -/
structure Small (n : Snapshot) : Prop where
  bytes : totalBytes n ≤ 32768
  claims : n.claims.length ≤ 128

/-- The page between two places, the second of them further on. -/
def Cuts (h : Digests) (key : String) (n : Snapshot) (s : Place) (p : NodeNotes) (s' : Place) : Prop :=
  p = page h key n s.byte s.claim s'.byte s'.claim ∧ s.byte ∈ boundaries n.summary.toList ∧
    s'.byte ∈ boundaries n.summary.toList ∧ s.byte ≤ s'.byte ∧ s.claim ≤ s'.claim ∧ s'.claim ≤ n.claims.length ∧
    (s.byte < s'.byte ∨ s.claim < s'.claim)

def left (n : Snapshot) (s : Place) : Nat := (totalBytes n - s.byte) + (n.claims.length - s.claim)

theorem boundary_le (in_ : b ∈ boundaries n.summary.toList) : b ≤ totalBytes n := by
  obtain ⟨k,_,rfl⟩ := mem_boundaries.mp in_
  rw [totalBytes,utf8ByteSize_toList]
  exact charBytes_sublist (take_sublist _ _)

theorem zero_boundary : 0 ∈ boundaries n.summary.toList := mem_boundaries.mpr ⟨0,Nat.zero_le _,rfl⟩

theorem token_read (h : Digests) (key : String) (small : Small n) {byte claim : Nat} (byte_ : byte ≤ totalBytes n) (claim_ : claim ≤ n.claims.length) :
    readToken "hnpos_" [5,3] (token h key n byte claim) = some [byte,claim] := by
  have bytes := small.bytes
  have claims := small.claims
  exact readToken_write (mac_hex _ _ _) (.cons ⟨by omega,Nat.lt_of_le_of_lt (byte_.trans bytes) (by decide)⟩
    (.cons ⟨by omega,Nat.lt_of_le_of_lt (claim_.trans claims) (by decide)⟩ .nil))

theorem stands_start (small : Small n) (stands : Stands h key n supplied s) :
    supplied.all (fun text => (readToken "hnpos_" [5,3] text).isSome) = true ∧ startOf h key n supplied = .ok (s.byte,s.claim) := by
  obtain ⟨byte,claim,⟨rfl,rfl⟩ | ⟨rfl,before⟩⟩ := stands
  · exact ⟨rfl,rfl⟩
  · have read := token_read h key small (boundary_le byte) claim
    refine ⟨by rw [Option.all_some,read]; rfl,?_⟩
    simp only [startOf,read,Option.getD_some,getD_cons_zero,getD_cons_succ]
    rw [if_neg]
    simp only [byte,not_true_eq_false,false_or,ne_eq,or_false,not_or,not_lt]
    exact ⟨claim,before⟩

end

/-- One reading of a node. -/
def readPage (h : Digests) (node : Node) (key : String) (position : Option String) (maxBytes : Option Int) :
    Except Failure NodeNotes :=
  readNodeNotes h ⟨node,key,position,maxBytes⟩

def budgetOf (maxBytes : Option Int) : Nat := (maxBytes.map Int.toNat).getD legacyMaterialBytes

def Budgeted (maxBytes : Option Int) : Prop := ∀ m ∈ maxBytes, 1024 ≤ m ∧ m ≤ (materialBytes : Int)

section
variable {h : Digests} {node : Node} {key : String} {n : Snapshot}

/-- A reading of a node that was taken comes down to the choice of a page. -/
theorem readPage_eq (taken : snapshot h node = .ok n)
    (keyed : hexRef "" 64 key = true) (small : Small n) (budgeted : Budgeted maxBytes) (stands : Stands h key n supplied s) :
    readPage h node key supplied maxBytes = choosePage h key n (budgetOf maxBytes) s.byte s.claim := by
  obtain ⟨formed,started⟩ := stands_start small stands
  have form : Request.WellFormed ⟨node,key,supplied,maxBytes⟩ := ⟨budgeted,keyed,formed⟩
  unfold readPage readNodeNotes
  rw [if_neg (not_not.mpr form)]
  simp only [taken,started,bind,Except.bind]
  rfl

theorem page_steps (taken : snapshot h node = .ok n) (keyed : hexRef "" 64 key = true) (small : Small n) :
    Steps (readPage h node key) NodeNotes.nextPosition (Stands h key n) (Cuts h key n) (left n) Budgeted Failure.limit := by
  constructor
  · intro supplied s maxBytes p stands budgeted read
    rw [readPage_eq taken keyed small budgeted stands] at read
    obtain ⟨endByte,endClaim,rfl,cut,byte,claim,within,forward,_⟩ := choosePage_ok stands.1 stands.2.1 read
    have byte_ := boundary_le cut
    refine ⟨⟨endByte,endClaim⟩,⟨rfl,stands.1,cut,byte,claim,within,forward⟩,?_⟩
    by_cases done : endByte = totalBytes n ∧ endClaim = n.claims.length
    · refine .inl ⟨by simp only [page,done,and_self,if_true],?_⟩
      simp only [left]
      omega
    · refine .inr ⟨token h key n endByte endClaim,by simp only [page,done,if_false],⟨cut,within,.inr ⟨rfl,done⟩⟩,?_⟩
      simp only [left]
      omega
  · intro supplied s maxBytes e stands budgeted read
    rw [readPage_eq taken keyed small budgeted stands] at read
    exact choosePage_error read

/-! ## What the pages hold -/

def entries (n : Snapshot) : List (Nat × Claim) := n.claims.zipIdx.map Prod.swap

/-- The page is what lies between two places. -/
structure Piece (n : Snapshot) (s : Place) (p : NodeNotes) (s' : Place) : Prop where
  bytes : p.fromByte = s.byte ∧ p.toByte = s'.byte ∧ p.totalBytes = totalBytes n
  claims : p.fromClaim = s.claim ∧ p.toClaim = s'.claim ∧ p.totalClaims = n.claims.length
  whole : s.byte ∈ boundaries n.summary.toList ∧ s'.byte ∈ boundaries n.summary.toList
  text : p.text.toList = between n.summary.toList s.byte s'.byte
  shown : p.claims = ((entries n).take s'.claim).drop s.claim
  order : s.byte ≤ s'.byte ∧ s.claim ≤ s'.claim ∧ s'.claim ≤ n.claims.length
  advances : s.byte < s'.byte ∨ s.claim < s'.claim

theorem cuts_piece (cut : Cuts h key n s p s') : Piece n s p s' := by
  obtain ⟨rfl,from_,to_,byte,claim,within,forward⟩ := cut
  exact ⟨⟨rfl,rfl,rfl⟩,⟨rfl,rfl,rfl⟩,⟨from_,to_⟩,by simp [page],rfl,⟨byte,claim,within⟩,forward⟩

theorem chain_pieces (start_ : s.byte ∈ boundaries n.summary.toList)
    (inside : s.claim ≤ n.claims.length) (chain : Chain (Piece n) s pages s') :
    (pages.flatMap fun p => p.text.toList) = between n.summary.toList s.byte s'.byte ∧
      pages.flatMap NodeNotes.claims = ((entries n).take s'.claim).drop s.claim ∧
      s.byte ≤ s'.byte ∧ s.claim ≤ s'.claim ∧ s'.byte ∈ boundaries n.summary.toList ∧ s'.claim ≤ n.claims.length := by
  induction chain with
  | nil => exact ⟨(between_self start_).symm,by simp [drop_take],Nat.le_refl _,Nat.le_refl _,start_,inside⟩
  | cons cut _ ih =>
    obtain ⟨text,claims,byte,claim,end_,within⟩ := ih cut.whole.2 cut.order.2.2
    obtain ⟨byte',claim',_⟩ := cut.order
    refine ⟨?_,?_,byte'.trans byte,claim'.trans claim,end_,within⟩
    · rw [flatMap_cons,cut.text,text,between_join cut.whole.1 cut.whole.2 end_ byte' byte]
    · rw [flatMap_cons,cut.shown,claims,stretch_join _ claim' claim]

theorem snapshot_small (taken : snapshot h node = .ok n) : Small n := by
  unfold snapshot at taken
  obtain ⟨valid,same⟩ := guard_eq_ok.mp taken
  obtain rfl := Except.ok.inj same
  obtain ⟨_,_,_,_,summary,_,claims,_⟩ := not_not.mp valid
  simp only [textValid,Bool.and_eq_true,decide_eq_true_eq] at summary
  exact ⟨summary.2,claims⟩

/-- A page that is given is not longer than its budget. -/
theorem readPage_fits (read : readPage h node key supplied maxBytes = .ok p) : jsonBytes p.json ≤ budgetOf maxBytes:= by
  unfold readPage readNodeNotes at read
  obtain ⟨_,read⟩ := guard_eq_ok.mp read
  obtain ⟨n,_,read⟩ := bind_ok read
  obtain ⟨start,_,read⟩ := bind_ok read
  simp only [choosePage] at read
  obtain ⟨fits,same⟩ := guard_eq_ok.mp read
  obtain rfl := Except.ok.inj same
  rw [not_or,Nat.not_lt] at fits
  exact fits.2

end

def shortNode : Node where
  nodeRef := "hnode_" ++ hexText 48 0
  index := 1
  hash := hexText 64 0
  coverage := []
  summary := "note"
  claims := [⟨.reported,"said",[⟨"hsrc_" ++ hexText 48 0,"hver_" ++ hexText 48 0⟩]⟩]
  omittedDetailCount := none

/-- The codes that a reading of it makes, each found by the offsets it is of. -/
def shortCodes : List (String × Nat) := [
  ("[0,2,0,0]]",0xe87742fc3fb6c5559350bab319a5a4a9e23bf93dfcbbe4a15e3675a0b7e35dfe),
  ("[2,0]]",0xabc9de562a7471f54577822d2846e24df9948d38fa592b1dc52c66fa62725bb2),
  ("[0,3,0,0]]",0x67aff7a48957019f661b2748def7a006125a57bd6eed9dd49bb4f65398f324e8),
  ("[3,0]]",0x4b00648cbb874856d1311f73918fecc0a5226b0f2c35b9db42cecee9dcb9d67c),
  ("[0,4,0,0]]",0xf4f8aa1bc580c7ba92880d16779a8c24bbf061e8f24c1d42b6c1d783ece88a9d),
  ("[4,0]]",0x86d58f9f026c75e21c472169664fac35d5e13d396b2a73108d84eb0651fa15ff),
  ("[0,4,0,1]]",0x37631817f86f4a76809b263eaed16dfe99f3b06034e73199e9c389217c1dbda6)]

def shortDigests : Digests where
  hmac _ text := hexText 64 (((shortCodes.find? fun d => decide (d.1.toList <:+: text.toList)).map Prod.snd).getD 0)
  timezoneKnown _ := true
  hmac_hex _ _ := hexText_hex 64 _
  sha256 text := hexText 64 (if text = "[]" then 0x4f53cda18c2baa0c0354bb5f9a3ecbe5ed12ab4d8e11ba873c2f11161202b945
    else 0x8e61c35080b9b2ab9b5c48095a94b01f7ec5ce62e81bd6f09a63e17361c3b9f8)

theorem shortNode_valid : shortNode.Valid := by
  have claims : ∀ c ∈ shortNode.claims,c.Valid := by
    intro c member
    obtain rfl := mem_singleton.mp member
    refine ⟨by decide,by decide,by simp,fun s member => ?_,by simp⟩
    obtain rfl := mem_singleton.mp member
    exact ⟨hexRef_mark "hsrc_" (hexText_hex 48 0),hexRef_mark "hver_" (hexText_hex 48 0)⟩
  exact ⟨hexRef_mark "hnode_" (hexText_hex 48 0),hexText_hex 64 0,by decide,by decide,by decide,rfl,by decide,claims,by decide,
    by simp [shortNode]⟩

end Neurobro.Projection.Notes
