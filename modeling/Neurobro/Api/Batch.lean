import Neurobro.Data.JsonSize
import Neurobro.Api.Text

/-! What the messenger answers with: texts as they come, in code units, and batches of
messages with the users they are from. -/
namespace Neurobro.Telegram

open List

theorem takeBytes_size (room : Nat) (cs : List Char) : charBytes (takeBytes room cs) ≤ room := by
  induction cs generalizing room with
  | nil => simp [takeBytes,charBytes]
  | cons c rest ih =>
    unfold takeBytes
    by_cases fits : c.utf8Size ≤ room
    · have later := ih (room - c.utf8Size)
      rw [if_pos fits,charBytes]
      omega
    · rw [if_neg fits]
      exact Nat.zero_le _

abbrev Units := List UInt16

def highSurrogate (u : UInt16) : Bool := decide (0xD800 ≤ u.toNat ∧ u.toNat < 0xDC00)

def lowSurrogate (u : UInt16) : Bool := decide (0xDC00 ≤ u.toNat ∧ u.toNat < 0xE000)

/-- The character of one code unit; half a surrogate pair has none. -/
def point (u : UInt16) : Option Char := if highSurrogate u || lowSurrogate u then none else some (Char.ofNat u.toNat)

def pairPoint (u v : UInt16) : Char := Char.ofNat (0x10000 + (u.toNat - 0xD800) * 0x400 + (v.toNat - 0xDC00))

def points : Units → List (Option Char)
  | [] => []
  | [u] => [point u]
  | u :: v :: rest =>
    if highSurrogate u && lowSurrogate v then some (pairPoint u v) :: points rest else point u :: points (v :: rest)

/-- The text, where it is well formed. -/
def text? (units : Units) : Option String :=
  if (points units).all Option.isSome then some (String.ofList ((points units).filterMap id)) else none

theorem toNat_valid (valid : n.isValidChar) : (Char.ofNat n).toNat = n := by
  rw [Char.ofNat,dif_pos valid]
  rfl

theorem point_some (is_ : point u = some c) : c.toNat = u.toNat := by
  unfold point at is_
  split at is_
  · cases is_
  · rename_i whole
    cases is_
    have small := u.toNat_lt
    apply toNat_valid
    simp only [highSurrogate,lowSurrogate,Bool.or_eq_true,decide_eq_true_eq] at whole
    unfold Nat.isValidChar
    omega

theorem pairPoint_large (high : highSurrogate u = true) (low : lowSurrogate v = true) :
    0x10000 ≤ (pairPoint u v).toNat := by
  simp only [highSurrogate,lowSurrogate,decide_eq_true_eq] at high low
  rw [pairPoint,toNat_valid (by unfold Nat.isValidChar; omega)]
  omega

theorem small_size {c : Char} (small : c.toNat < 0x10000) : c.utf8Size ≤ 3 := by
  have low : c.val ≤ 0xffff := UInt32.le_iff_toNat_le.mpr (Nat.le_of_lt_succ small)
  simp only [Char.utf8Size]
  split
  · omega
  split
  · omega
  · exact Nat.le_of_eq (if_pos low)

/-- A code unit is three bytes at most. -/
theorem points_size (units : Units) : charBytes ((points units).filterMap id) ≤ 3 * units.length := by
  have one : ∀ u, charBytes ([point u].filterMap id) ≤ 3 := by
    intro u
    cases is_ : point u with
    | none => simp [charBytes]
    | some c =>
      have small := small_size (by rw [point_some is_]; exact u.toNat_lt : c.toNat < 0x10000)
      simpa [charBytes] using small
  induction units using points.induct with
  | case1 => simp [points,charBytes]
  | case2 u => simpa [points] using one u
  | case3 u v rest pair ih =>
    have four := (pairPoint u v).utf8Size_le_four
    have head : charBytes ((points (u :: v :: rest)).filterMap id) =
        (pairPoint u v).utf8Size + charBytes ((points rest).filterMap id) := by
      rw [points,if_pos pair]
      rfl
    rw [head,length_cons,length_cons]
    omega
  | case4 u v rest single ih =>
    have head := one u
    rw [points,if_neg single,← singleton_append,filterMap_append,charBytes_append,length_cons]
    omega

theorem points_some (member : some c ∈ points units) : 0x10000 ≤ c.toNat ∨ ∃ u ∈ units, c.toNat = u.toNat:= by
  induction units using points.induct with
  | case1 => cases member
  | case2 u =>
    have is_ : point u = some c := by simpa [points,eq_comm] using member
    exact .inr ⟨u,mem_cons_self,point_some is_⟩
  | case3 u v rest pair ih =>
    rw [points,if_pos pair] at member
    obtain same | later := mem_cons.mp member
    · rw [Bool.and_eq_true] at pair
      rw [Option.some.inj same]
      exact .inl (pairPoint_large pair.1 pair.2)
    · exact (ih later).imp_right fun ⟨w,member,is_⟩ => ⟨w,mem_cons_of_mem _ (mem_cons_of_mem _ member),is_⟩
  | case4 u v rest single ih =>
    rw [points,if_neg single] at member
    obtain same | later := mem_cons.mp member
    · exact .inr ⟨u,mem_cons_self,point_some same.symm⟩
    · exact (ih later).imp_right fun ⟨w,member,is_⟩ => ⟨w,mem_cons_of_mem _ member,is_⟩

def unitsOf (text : String) : Units := (utf16Units text).map UInt16.ofNat

def unitSpace (u : UInt16) : Bool := (point u).any Agent.isSpace

def trimUnits (units : Units) : Units := ((units.dropWhile unitSpace).reverse.dropWhile unitSpace).reverse

/-- Characters that steer a terminal or the direction of writing. -/
def steering (n : Nat) : Bool :=
  decide (n ≤ 0x1f ∨ 0x7f ≤ n ∧ n ≤ 0x9f ∨ 0x202a ≤ n ∧ n ≤ 0x202e ∨ 0x2066 ≤ n ∧ n ≤ 0x2069)

/-- A user, a group or a channel, by the decimal text of its identifier. -/
inductive Peer where
  | user (id : String)
  | chat (id : String)
  | channel (id : String)
  deriving DecidableEq

structure ForwardHeader where
  date : Int
  fromName : Option Units := none
  postAuthor : Option Units := none
  deriving DecidableEq

/-- A reply to a story is no header of a message. -/
structure ReplyHeader where
  header : Bool := true
  scheduled : Bool := false
  toMsgId : Int
  toPeerId : Option Peer := none
  deriving DecidableEq

inductive RawKind where
  | message
  | service
  | empty
  | other
  deriving DecidableEq

structure RawMessage where
  kind : RawKind
  id : Int
  peerId : Option Peer
  date : Int
  fromId : Option Peer := none
  post : Bool := false
  out : Bool := false
  fwdFrom : Option ForwardHeader := none
  viaBot : Bool := false
  grouped : Bool := false
  markup : Bool := false
  media : Bool := false
  message : Units := []
  editDate : Option Int := none
  replyTo : Option ReplyHeader := none
  deriving DecidableEq

structure RawUser where
  known : Bool := true
  id : String
  self : Bool := false
  deleted : Bool := false
  bot : Bool := false
  firstName : Option Units := none
  lastName : Option Units := none
  username : Option Units := none
  deriving DecidableEq

structure Batch where
  messages : List RawMessage
  users : List RawUser := []
  chats : Nat := 0
  inexact : Bool := false
  deriving DecidableEq

end Neurobro.Telegram
