import Mathlib.Data.List.TakeWhile
import Neurobro.Agent.Text

/-! The identifiers, dates and texts of Telegram, as every record checks them. -/
namespace Neurobro.Telegram

open List

/-- Whole numbers that are exact in the source language. -/
def safeInteger (n : Int) : Bool := decide (-9007199254740991 ≤ n ∧ n ≤ 9007199254740991)

def natural (n : Int) : Bool := safeInteger n && decide (0 ≤ n)

def messageIdValid (id : Int) : Bool := decide (0 < id ∧ id ≤ 2147483647)

def dateValid (date : Int) : Bool := decide (0 < date ∧ date < 2147483647)

/-- A nonzero decimal number of at most twenty digits. -/
def decimal : List Char → Bool
  | [] => false
  | c :: rest => c.isDigit && c != '0' && rest.all Char.isDigit && decide (rest.length ≤ 19)

def userId (id : String) : Bool := decimal id.toList

def groupId (id : String) : Bool := id.toList.head? == some '-' && decimal id.toList.tail

/-- A user, or a group or channel. -/
def signedPeer (id : String) : Bool := userId id || groupId id

def hasNul (text : String) : Bool := text.toList.contains (Char.ofNat 0)

def blank (text : String) : Bool := decide (Agent.trim text = "")

/-- Not blank, no NUL and not too long. -/
def textValid (text : String) (maximum : Nat) : Bool :=
  !blank text && !hasNul text && decide (text.utf8ByteSize ≤ maximum)

/-- A prefix and so many lower hexadecimal digits. -/
def hexRef (mark : String) (length : Nat) (text : String) : Bool :=
  let rest := text.toList.drop mark.length
  decide (text.toList.take mark.length = mark.toList) && decide (rest.length = length) &&
    rest.all fun c => c.isDigit || decide ('a' ≤ c ∧ c ≤ 'f')

/-- A reference that is written out is judged by its letters. -/
theorem hexRef_ofList (mark : String) (length : Nat) (cs : List Char) : hexRef mark length (String.ofList cs) =
    (decide (cs.take mark.length = mark.toList) && decide ((cs.drop mark.length).length = length) &&
      (cs.drop mark.length).all fun c => c.isDigit || decide ('a' ≤ c ∧ c ≤ 'f')) := by
  simp [hexRef]

def bytes (cs : List Char) : Nat := (String.ofList cs).utf8ByteSize

/-- The longest beginning of at most so many bytes. -/
def takeBytes : Nat → List Char → List Char
  | _,[] => []
  | room,c :: rest => if c.utf8Size ≤ room then c :: takeBytes (room - c.utf8Size) rest else []

theorem messageIdValid_iff {id : Int} : messageIdValid id = true ↔ 0 < id ∧ id ≤ 2147483647 := decide_eq_true_iff

theorem dateValid_iff : dateValid date = true ↔ 0 < date ∧ date < 2147483647 := decide_eq_true_iff

theorem natural_iff : natural n = true ↔ 0 ≤ n ∧ n ≤ 9007199254740991 := by
  unfold natural safeInteger
  rw [Bool.and_eq_true,decide_eq_true_iff,decide_eq_true_iff]
  omega

/-! What a text is that is not blank. -/

theorem trimChars_nil : Agent.trimChars cs = [] ↔ ∀ c ∈ cs, Agent.isSpace c = true := by
  unfold Agent.trimChars Agent.trimStart
  rw [reverse_eq_nil_iff,dropWhile_eq_nil_iff]
  simp only [mem_reverse]
  constructor
  · intro all c member
    by_contra ink
    have kept : c ∈ cs.dropWhile Agent.isSpace := by
      have split := takeWhile_append_dropWhile (p := Agent.isSpace) (l := cs)
      rw [← split] at member
      obtain early | late := mem_append.mp member
      · exact absurd (mem_takeWhile_imp early) ink
      · exact late
    exact ink (all c kept)
  · exact fun all c member => all c (dropWhile_sublist _ |>.mem member)

theorem blank_iff {text : String} : blank text = true ↔ ∀ c ∈ text.toList, Agent.isSpace c = true := by
  have nothing : ("" : String) = String.ofList [] := rfl
  unfold blank Agent.trim
  rw [decide_eq_true_iff,nothing,String.ofList_inj]
  exact trimChars_nil

theorem trimChars_sublist (cs : List Char) : (Agent.trimChars cs).Sublist cs := by
  unfold Agent.trimChars Agent.trimStart
  apply List.Sublist.trans _ (dropWhile_sublist (l := cs) Agent.isSpace)
  rw [← reverse_sublist,reverse_reverse]
  exact dropWhile_sublist _

/-- What is trimmed ends with something to be seen. -/
theorem trimmed_ink (some_ : Agent.trimChars cs ≠ []) : ∃ c ∈ Agent.trimChars cs, Agent.isSpace c = false := by
  unfold Agent.trimChars at *
  rw [ne_eq,reverse_eq_nil_iff] at some_
  have ink := head_dropWhile_not Agent.isSpace some_
  exact ⟨_,mem_reverse.mpr (head_mem some_),ink⟩

theorem takeBytes_sublist (room : Nat) (cs : List Char) : (takeBytes room cs).Sublist cs := by
  induction cs generalizing room with
  | nil => simp [takeBytes]
  | cons c rest ih =>
    unfold takeBytes
    split
    · exact (ih _).cons_cons c
    · exact nil_sublist _

end Neurobro.Telegram
