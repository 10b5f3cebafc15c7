import Mathlib.Data.List.Sort
import Neurobro.Api.Batch

/-! The markup of a message: which stretches of its text are bold, quoted, code and so on, in
the one form in which they are kept, and as they go over the wire. -/
namespace Neurobro.Formatting

open Telegram

inductive EntityType where
  | bold
  | italic
  | strike
  | code
  | blockquote
  | pre
  | textUrl
  deriving DecidableEq

/-- A kind of markup, with what goes with it. -/
inductive Mark where
  | bold
  | italic
  | strike
  | code
  | blockquote
  | pre (language : Units)
  | textUrl (url : Units)
  deriving DecidableEq

def Mark.type : Mark → EntityType
  | .bold => .bold
  | .italic => .italic
  | .strike => .strike
  | .code => .code
  | .blockquote => .blockquote
  | .pre _ => .pre
  | .textUrl _ => .textUrl

def typeOrder : EntityType → Nat
  | .blockquote => 0
  | .textUrl => 1
  | .bold => 2
  | .italic => 3
  | .strike => 4
  | .code => 5
  | .pre => 6

/-- A stretch of the text, counted in code units. -/
structure TextEntity where
  mark : Mark
  offset : Int
  length : Int
  deriving DecidableEq

namespace TextEntity

def stop (e : TextEntity) : Int := e.offset + e.length

def type (e : TextEntity) : EntityType := e.mark.type

end TextEntity

/-- What the parser of URLs makes of one. -/
structure ParsedUrl where
  protocol : String
  hostname : String
  username : String
  password : String
  deriving DecidableEq

structure Host where
  parseUrl : Units → Option ParsedUrl

/-! What is checked of the text. -/

/-- Every half of a surrogate pair has the other half next to it. -/
def validUnicode : Units → Bool
  | [] => true
  | [u] => !highSurrogate u && !lowSurrogate u
  | u :: v :: rest =>
    if highSurrogate u then lowSurrogate v && validUnicode rest
    else !lowSurrogate u && validUnicode (v :: rest)

/-- As it is encoded, where half of a pair is written as the replacement character. -/
def byteLength (text : Units) : Nat := charBytes ((points text).map fun p => p.getD (Char.ofNat 0xFFFD))

def maxTextBytes : Nat := 4096

def validText (text : Units) : Bool := !text.contains 0 && validUnicode text && decide (byteLength text ≤ maxTextBytes)

/-- Not between the halves of a pair. -/
def boundary (text : Units) (offset : Int) : Bool :=
  decide (offset = 0) || decide (offset = text.length) ||
    !((text[(offset - 1).toNat]?).any highSurrogate && (text[offset.toNat]?).any lowSurrogate)

def validSpan (text : Units) (offset length : Int) : Bool :=
  safeInteger offset && safeInteger length && decide (0 ≤ offset) && decide (0 < length) &&
    decide (offset + length ≤ text.length) && boundary text offset && boundary text (offset + length)

def asciiUnit (u : UInt16) (p : Char → Bool) : Bool := decide (u.toNat < 128) && p (Char.ofNat u.toNat)

def validLanguage (language : Units) : Bool :=
  decide (language.length ≤ 32) && language.all fun u => asciiUnit u fun c =>
    c.isAlphanum || c == '_' || c == '+' || c == '.' || c == '#' || c == '-'

def safeUrl (h : Host) (url : Units) : Bool :=
  decide (0 < url.length ∧ url.length ≤ 2048) && !(url.any fun u => decide (u.toNat ≤ 32 ∨ u.toNat = 127)) &&
    (h.parseUrl url).any fun parsed =>
      decide (parsed.protocol = "https:" ∧ parsed.hostname ≠ "" ∧ parsed.username = "" ∧ parsed.password = "")

def validMark (h : Host) : Mark → Bool
  | .pre language => validLanguage language
  | .textUrl url => safeUrl h url
  | _ => true

def validEntity (h : Host) (text : Units) (e : TextEntity) : Bool := validSpan text e.offset e.length && validMark h e.mark

/-! The one order. -/

/-- By where they start, the longer first, and then by their types. -/
def ahead (a b : TextEntity) : Prop :=
  a.offset < b.offset ∨ a.offset = b.offset ∧ (b.length < a.length ∨ a.length = b.length ∧ typeOrder a.type ≤ typeOrder b.type)

instance (a b : TextEntity) : Decidable (ahead a b) := inferInstanceAs (Decidable (_ ∨ _))

/-- The second of two that overlap is out of place. -/
def clashes (left right : TextEntity) : Bool :=
  decide (left.stop < right.stop) || decide (left.type = .code) || decide (left.type = .pre) || decide (right.type = .code) ||
    decide (right.type = .pre) || decide (left.type = .textUrl ∧ right.type = .textUrl) ||
    decide (left.type = .blockquote ∧ right.type = .blockquote) ||
    decide (left.offset = right.offset ∧ left.length = right.length ∧ left.type = right.type)

/-- None of those that come later and start before this one ends. -/
def clear (left : TextEntity) : List TextEntity → Bool
  | [] => true
  | right :: rest =>
    if left.stop ≤ right.offset then true
    else if clashes left right then false
    else clear left rest

def scan : List TextEntity → Bool
  | [] => true
  | left :: rest => clear left rest && scan rest

def normalized (h : Host) (text : Units) (entities : List TextEntity) : Option (List TextEntity) :=
  if !validText text || !entities.all (validEntity h text) then none
  else if scan (entities.insertionSort ahead) then some (entities.insertionSort ahead)
  else none

def copyTelegramTextEntities (h : Host) (text : Units) (entities : List TextEntity) : Option (List TextEntity) :=
  normalized h text entities

/-! On the wire. -/

inductive TlClass where
  | bold
  | italic
  | strike
  | code
  | blockquote
  | pre
  | textUrl
  | url
  | email
  | mention
  | hashtag
  | cashtag
  | botCommand
  | phone
  deriving DecidableEq

/-- The arguments of a class, those that it has. -/
structure TlArgs where
  offset : Int
  length : Int
  flags : Option Int := none
  collapsed : Option Bool := none
  language : Option Units := none
  url : Option Units := none
  deriving DecidableEq

/-- An object of one of the classes, or of another. `intact` where its prototype and its
constants are those of the class. -/
structure TlEntity where
  class_ : Option TlClass
  intact : Bool
  fields : TlArgs
  originalArgs : TlArgs
  deriving DecidableEq

/-- The object as its class makes it. -/
def TlEntity.new (c : TlClass) (args : TlArgs) : TlEntity := ⟨some c,true,args,args⟩

def toTelegramEntity (e : TextEntity) : TlEntity :=
  match e.mark with
  | .bold => .new .bold { offset := e.offset, length := e.length }
  | .italic => .new .italic { offset := e.offset, length := e.length }
  | .strike => .new .strike { offset := e.offset, length := e.length }
  | .code => .new .code { offset := e.offset, length := e.length }
  | .blockquote => .new .blockquote { flags := some 0, collapsed := some false, offset := e.offset, length := e.length }
  | .pre language => .new .pre { offset := e.offset, length := e.length, language := some language }
  | .textUrl url => .new .textUrl { offset := e.offset, length := e.length, url := some url }

def toTelegramEntities (h : Host) (text : Units) (entities : List TextEntity) : Option (List TlEntity) :=
  (normalized h text entities).map fun result => result.map toTelegramEntity

/-- The arguments are those of the class, no more and no less. -/
def argumentKeys (c : TlClass) (args : TlArgs) : Bool :=
  decide (args.flags.isSome = decide (c = .blockquote)) && decide (args.collapsed.isSome = decide (c = .blockquote)) &&
    decide (args.language.isSome = decide (c = .pre)) && decide (args.url.isSome = decide (c = .textUrl))

def tlArguments (c : TlClass) (e : TlEntity) : Option TlArgs :=
  if e.intact && argumentKeys c e.fields && argumentKeys c e.originalArgs && decide (e.fields = e.originalArgs) then
    some e.originalArgs
  else none

/-- Markup that the messenger finds by itself has no type. -/
def TlClass.mark (args : TlArgs) : TlClass → Option Mark
  | .bold => some .bold
  | .italic => some .italic
  | .strike => some .strike
  | .code => some .code
  | .blockquote => some .blockquote
  | .pre => args.language.map .pre
  | .textUrl => args.url.map .textUrl
  | _ => none

/-- One object of the wire; `some none` where it is passed over. -/
def projected (text : Units) (e : TlEntity) : Option (Option TextEntity) :=
  match e.class_ with
  | none => none
  | some c =>
    match tlArguments c e with
    | none => none
    | some args =>
      if !validSpan text args.offset args.length then none
      else if c = .blockquote ∧ (args.flags ≠ some 0 ∨ args.collapsed ≠ some false) then none
      else some ((c.mark args).map fun mark => ⟨mark,args.offset,args.length⟩)

def fromTelegramEntities (h : Host) (text : Units) (entities : List TlEntity) : Option (List TextEntity) :=
  if !validText text then none
  else (entities.mapM (projected text)).bind fun found => normalized h text (found.filterMap id)

end Neurobro.Formatting
