import Neurobro.Wsl.Host
import Neurobro.Data.JsonSize

/-! Over a whole session: which requests are answered, in which order their numbers come, and
how many bytes are used. -/
namespace Neurobro.Wsl

open JsonText List

/-! ## The bytes of a response -/

/-- A visible character of one byte that JSON leaves alone. -/
structure Ascii (c : Char) : Prop where
  visible : 45 ≤ c.toNat
  small : c.toNat ≤ 122
  slash : c ≠ '\\'

theorem alphanum_ascii (is_ : c.isAlphanum = true) : Ascii c := by
  have whole : c.toNat = c.val.toNat := rfl
  have is_ : ((decide (c.val ≥ 65 ∧ c.val ≤ 90) || decide (c.val ≥ 97) && decide (c.val ≤ 122)) ||
      decide (c.val ≥ 48) && decide (c.val ≤ 57)) = true := is_
  simp only [Bool.or_eq_true,Bool.and_eq_true,decide_eq_true_eq,ge_iff_le,UInt32.le_iff_toNat_le] at is_
  refine ⟨?_,?_,?_⟩
  · simp at is_
    omega
  · simp at is_
    omega
  · rintro rfl
    simp at is_

theorem lowerHex_ascii (is_ : lowerHex c = true) : Ascii c := by
  simp only [lowerHex,Bool.or_eq_true,decide_eq_true_eq] at is_
  rcases is_ with digit | letter
  · exact alphanum_ascii (by simp [Char.isAlphanum,digit])
  · have low : ('a').toNat ≤ c.toNat := letter.1
    have high : c.toNat ≤ ('f').toNat := letter.2
    simp at low high
    refine ⟨by omega,by omega,?_⟩
    rintro rfl
    simp at low

theorem wordChar_ascii (is_ : wordChar c = true) : Ascii c := by
  simp only [wordChar,Bool.or_eq_true,decide_eq_true_eq] at is_
  rcases is_ with (letter | rfl) | rfl
  · exact alphanum_ascii letter
  · exact ⟨by decide,by decide,by decide⟩
  · exact ⟨by decide,by decide,by decide⟩

theorem ascii_quote (ascii : Ascii c) : quoteChar c = [c] := by
  have visible := ascii.visible
  have quote : c ≠ '"' := by
    rintro rfl
    simp at visible
  have control : ¬c.toNat < 32 := by omega
  have eight : c.toNat ≠ 8 := by omega
  have nine : c.toNat ≠ 9 := by omega
  have ten : c.toNat ≠ 10 := by omega
  have twelve : c.toNat ≠ 12 := by omega
  have thirteen : c.toNat ≠ 13 := by omega
  simp [quoteChar,quote,ascii.slash,eight,nine,ten,twelve,thirteen,control]

theorem ascii_size (ascii : Ascii c) : c.utf8Size = 1 := by
  have small := ascii.small
  have whole : c.toNat = c.val.toNat := rfl
  apply Char.utf8Size_eq_one_iff.mpr
  rw [UInt32.le_iff_toNat_le]
  simp
  omega

theorem ascii_text (all : ∀ c ∈ s.toList, Ascii c) : (quote s).utf8ByteSize = s.toList.length + 2:= by
  have each : ∀ cs : List Char, (∀ c ∈ cs, Ascii c) → charBytes (cs.flatMap quoteChar) = cs.length := by
    intro cs all
    induction cs with
    | nil => rfl
    | cons c cs ih =>
      have head := all c (by simp)
      have tail := ih fun d in_ => all d (mem_cons_of_mem _ in_)
      rw [flatMap_cons,ascii_quote head,singleton_append,charBytes,ascii_size head,tail,length_cons]
      omega
  have marks : charBytes ['"'] = 1 := by decide
  rw [quote,utf8ByteSize_ofList,charBytes_append,charBytes_append,each _ all,marks]
  omega

theorem hexText_ascii (hex : hexText n s = true) : s.toList.length = n ∧ ∀ c ∈ s.toList, Ascii c:= by
  simp only [hexText,Bool.and_eq_true,decide_eq_true_eq,all_eq_true] at hex
  exact ⟨hex.1,fun c in_ => lowerHex_ascii (hex.2 c in_)⟩

theorem keyIdText_ascii (is_ : keyIdText s = true) : s.toList.length ≤ 48 ∧ ∀ c ∈ s.toList, Ascii c := by
  simp only [keyIdText,Bool.and_eq_true,decide_eq_true_eq,all_eq_true] at is_
  exact ⟨is_.1.2,fun c in_ => wordChar_ascii (is_.2 c in_)⟩

/-- The bytes of a number. -/
def numberSize (n : Int) : Nat := n.repr.utf8ByteSize

theorem int_size (n : Int) : (Json.stringify decimal (int n)).utf8ByteSize = numberSize n := rfl

/-- All the bytes of a response but those of its body. -/
def envelope (core : FrameCore) : Nat := 237 + core.keyId.toList.length + numberSize core.deadlineMs + numberSize core.sequence

/-- What identifies a response. -/
structure FrameCore.Named (core : FrameCore) : Prop where
  kind : core.kind = .response
  keyId : keyIdText core.keyId = true
  sessionId : hexText 32 core.sessionId = true
  id : hexText 32 core.id = true

theorem frame_size (named : core.Named) (hex : hexText 64 m = true) :
    (canonicalText (.obj (core.fields ++ [("mac",.str m)])) ++ "\n").utf8ByteSize =
      (canonicalText core.body).utf8ByteSize + envelope core := by
  obtain ⟨idLength,idAscii⟩ := hexText_ascii named.id
  obtain ⟨sessionLength,sessionAscii⟩ := hexText_ascii named.sessionId
  obtain ⟨macLength,macAscii⟩ := hexText_ascii hex
  obtain ⟨_,keyAscii⟩ := keyIdText_ascii named.keyId
  rw [canonicalText,ordered_frame,inOrder]
  simp only [Option.map_some,Option.toList_some,cons_append,nil_append,Json.stringify,Json.stringifyFields,joined,
    String.utf8ByteSize_append,ascii_text idAscii,ascii_text sessionAscii,ascii_text macAscii,ascii_text keyAscii,idLength,
    sessionLength,macLength,int_size,named.kind,Kind.text]
  have one : numberSize 1 = 1 := by decide
  have kind : (quote "response").utf8ByteSize = 10 := by decide
  have k1 : (quote "body").utf8ByteSize = 6 := by decide
  have k2 : (quote "deadlineMs").utf8ByteSize = 12 := by decide
  have k3 : (quote "id").utf8ByteSize = 4 := by decide
  have k4 : (quote "keyId").utf8ByteSize = 7 := by decide
  have k5 : (quote "kind").utf8ByteSize = 6 := by decide
  have k6 : (quote "mac").utf8ByteSize = 5 := by decide
  have k7 : (quote "sequence").utf8ByteSize = 10 := by decide
  have k8 : (quote "sessionId").utf8ByteSize = 11 := by decide
  have k9 : (quote "version").utf8ByteSize = 9 := by decide
  have comma : (",").utf8ByteSize = 1 := by decide
  have colon : (":").utf8ByteSize = 1 := by decide
  have newline_ : ("\n").utf8ByteSize = 1 := by decide
  have opening : ("\x7b").utf8ByteSize = 1 := by decide
  have closing_ : ("\x7d").utf8ByteSize = 1 := by decide
  rw [one,kind,k1,k2,k3,k4,k5,k6,k7,k8,k9,comma,colon,newline_,opening,closing_,envelope,canonicalText]
  omega

/-- The bytes of a value's canonical text. -/
def bytesOf (value : Json) : Nat := (canonicalText value).utf8ByteSize

theorem ordered_answer (request : BrokerFrame) (outcome : Outcome) (value : Json) :
    ordered (answer request outcome value).body = .obj [("outcome",.str outcome.text),("value",ordered value)] := by
  simp only [answer,ordered,orderedFields]
  simp [List.insertionSort,List.orderedInsert,utf16Units,unitsLe,utf16]

theorem outcome_quote (outcome : Outcome) : (quote outcome.text).utf8ByteSize = outcome.text.length + 2 := by
  cases outcome <;> decide

/-- The bytes of the body of a response. -/
def bodyBytes (outcome : Outcome) (value : Json) : Nat := 23 + outcome.text.length + bytesOf value

theorem body_size (request : BrokerFrame) (outcome : Outcome) (value : Json) :
    (canonicalText (answer request outcome value).body).utf8ByteSize = bodyBytes outcome value := by
  rw [canonicalText,ordered_answer]
  simp only [Json.stringify,Json.stringifyFields,joined,String.utf8ByteSize_append,outcome_quote]
  have k1 : (quote "outcome").utf8ByteSize = 9 := by decide
  have k2 : (quote "value").utf8ByteSize = 7 := by decide
  have comma : (",").utf8ByteSize = 1 := by decide
  have colon : (":").utf8ByteSize = 1 := by decide
  have opening : ("\x7b").utf8ByteSize = 1 := by decide
  have closing_ : ("\x7d").utf8ByteSize = 1 := by decide
  rw [k1,k2,comma,colon,opening,closing_,bodyBytes,bytesOf,canonicalText]
  omega

theorem outcome_bounded (outcome : Outcome) : boundedText outcome.text 32768 = true := by
  cases outcome <;> decide

theorem answer_body_sound {request : BrokerFrame} {outcome : Outcome} {value : Json} :
    sound (answer request outcome value).body = sound value := by
  have k1 : fieldKey "outcome" = true := by decide
  have k2 : fieldKey "value" = true := by decide
  simp only [answer,sound,soundFields,k1,k2,outcome_bounded,Bool.true_and,Bool.and_true]

theorem answer_body_height (request : BrokerFrame) (outcome : Outcome) (value : Json) :
    height (answer request outcome value).body = height value + 1 := by
  simp [answer,height,heightFields]

theorem answer_body_nodes (request : BrokerFrame) (outcome : Outcome) (value : Json) :
    nodes (answer request outcome value).body = nodes value + 2 := by
  simp [answer,nodes,nodesFields]
  omega

theorem core_height (core : FrameCore) (more : List (String × Json)) (leaves : heightFields more ≤ 1) :
    height (.obj (core.fields ++ more)) = height core.body + 1 := by
  simp [FrameCore.fields,height,heightFields,int]
  omega

theorem core_nodes (core : FrameCore) : nodes (.obj core.fields) = nodes core.body + 8 := by
  simp [FrameCore.fields,nodes,nodesFields,int]
  omega

theorem frame_nodes (core : FrameCore) (m : String) : nodes (.obj (core.fields ++ [("mac",.str m)])) = nodes core.body + 9 := by
  simp [FrameCore.fields,nodes,nodesFields,int]
  omega

/-- The fields of a frame that are not its body may be written. -/
structure FrameCore.Clear (core : FrameCore) : Prop where
  kind : boundedText core.kind.text 32768 = true
  keyId : boundedText core.keyId 32768 = true
  sessionId : boundedText core.sessionId 32768 = true
  id : boundedText core.id 32768 = true
  sequence : safe (.finite core.sequence) = true
  deadlineMs : safe (.finite core.deadlineMs) = true

theorem core_sound (core : FrameCore) (more : List (String × Json)) :
    sound (.obj (core.fields ++ more)) = true ↔ core.Clear ∧ sound core.body = true ∧ soundFields more = true := by
  have k1 : fieldKey "version" = true := by decide
  have k2 : fieldKey "kind" = true := by decide
  have k3 : fieldKey "keyId" = true := by decide
  have k4 : fieldKey "sessionId" = true := by decide
  have k5 : fieldKey "id" = true := by decide
  have k6 : fieldKey "sequence" = true := by decide
  have k7 : fieldKey "deadlineMs" = true := by decide
  have k8 : fieldKey "body" = true := by decide
  have one : safe (.finite ((1 : Int) : Rat)) = true := by decide
  simp only [FrameCore.fields,cons_append,nil_append,sound,soundFields,int,k1,k2,k3,k4,k5,k6,k7,k8,one,Bool.true_and,
    Bool.and_eq_true]
  constructor
  · rintro ⟨a,b,c,d,e,f,g,h⟩
    exact ⟨⟨a,b,c,d,e,f⟩,g,h⟩
  · rintro ⟨⟨a,b,c,d,e,f⟩,g,h⟩
    exact ⟨a,b,c,d,e,f,g,h⟩

/-- A request that was decoded. -/
structure Decoded (session : Session) (request : BrokerFrame) : Prop where
  options : sessionOptions session = .ok session
  keyId : request.keyId = session.keyId
  sessionId : request.sessionId = session.sessionId
  id : hexText 32 request.id = true
  sequence : 0 < request.sequence
  clear : request.toFrameCore.Clear
  body : Writable request.body

theorem decodeFrame_decoded {bytes : Bytes} {request : BrokerFrame}
    (decoded : decodeFrame crypto bytes session kind = .ok request) : Decoded session request := by
  obtain ⟨fine,may,_,may',_⟩ := encodeFrame_ok.mp (encode_decode decoded)
  have sound_ := (core_sound request.toFrameCore []).mp (by rw [append_nil]; exact may'.good)
  simp only [decodeFrame,bind_eq_ok,requireBroker_ok,requireSome_ok,decide_eq_true_eq] at decoded
  obtain ⟨options,fine',_,_,_,_,_,_,_,_,_,_,_,_,_,_,id,_,_,hex,sequence,_,_,_,_,some_,_,_,_,_,_,_,_,_,_,_,_,_,_,_,done⟩ := decoded
  cases sessionOptions_eq fine'
  cases done
  exact ⟨fine,rfl,rfl,hex,some_,sound_.1,may⟩

theorem session_names (options : sessionOptions session = .ok session) :
    keyIdText session.keyId = true ∧ hexText 32 session.sessionId = true := by
  simp only [sessionOptions,bind_eq_ok,requireBroker_ok,Bool.and_eq_true] at options
  obtain ⟨_,_,_,names,_⟩ := options
  exact names

theorem answer_named {request : BrokerFrame} (decoded : Decoded session request) (outcome : Outcome)
    (value : Json) : (answer request outcome value).Named := by
  obtain ⟨keyId,sessionId⟩ := session_names decoded.options
  exact ⟨rfl,by rw [answer,decoded.keyId]; exact keyId,by rw [answer,decoded.sessionId]; exact sessionId,decoded.id⟩

/-- What a response needs: a value with two levels and eleven values to spare, and the bytes of its
body and of its frame within the limits. -/
structure Room (limits : Limits) (request : BrokerFrame) (outcome : Outcome) (value : Json) : Prop where
  shallow : height value ≤ 10
  few : nodes value ≤ 4085
  body : bodyBytes outcome value ≤ limits.maxBodyBytes
  frame : bodyBytes outcome value + envelope request.toFrameCore ≤ limits.maxFrameBytes

theorem ascii_bytes {s : String} (all : ∀ c ∈ s.toList, Ascii c) : s.utf8ByteSize = s.toList.length := by
  have each : ∀ cs : List Char, (∀ c ∈ cs, Ascii c) → charBytes cs = cs.length := by
    intro cs all
    induction cs with
    | nil => rfl
    | cons c cs ih =>
      rw [charBytes,ascii_size (all c (by simp)),ih fun d in_ => all d (mem_cons_of_mem _ in_),length_cons]
      omega
  rw [utf8ByteSize_toList,each _ all]

theorem ascii_bounded {s : String} (all : ∀ c ∈ s.toList, Ascii c) (short : s.toList.length ≤ most) :
    boundedText s most = true := by
  simp only [boundedText,ascii_bytes all,Bool.and_eq_true,decide_eq_true_eq,all_eq_true]
  refine ⟨short,fun c in_ => ?_⟩
  have visible := (all c in_).visible
  have small := (all c in_).small
  have low : ¬c.toNat ≤ 8 := by omega
  have eleven : c.toNat ≠ 11 := by omega
  have twelve : c.toNat ≠ 12 := by omega
  have control : ¬(14 ≤ c.toNat ∧ c.toNat ≤ 31) := by omega
  have delete : c.toNat ≠ 127 := by omega
  simp [forbidden,low,eleven,twelve,control,delete]

theorem answer_clear {request : BrokerFrame} (decoded : Decoded session request) (outcome : Outcome)
    (value : Json) : (answer request outcome value).Clear :=
  ⟨(by decide : boundedText Kind.response.text 32768 = true),decoded.clear.keyId,decoded.clear.sessionId,decoded.clear.id,decoded.clear.sequence,decoded.clear.deadlineMs⟩

theorem answer_envelope (request : BrokerFrame) (outcome : Outcome) (value : Json) :
    envelope (answer request outcome value) = envelope request.toFrameCore := rfl

/-- A response that was encoded had room. -/
theorem room_of_encoded (digests : crypto.Digests) {request : BrokerFrame}
    (decoded : Decoded session request) {outcome : Outcome} {value : Json}
    (encoded : encodeFrame crypto (answer request outcome value) session = .ok response) :
    Room session.limits request outcome value ∧ response.length = bodyBytes outcome value + envelope request.toFrameCore := by
  obtain ⟨_,_,room,_,m,is_,may,rfl,fits⟩ := encodeFrame_ok.mp encoded
  have hex : hexText 64 m = true := by
    rw [is_]
    exact digests _ _
  have length := frame_size (answer_named decoded outcome value) hex
  rw [body_size,answer_envelope] at length
  rw [utf8_length] at fits ⊢
  rw [body_size] at room
  have deep := may.shallow
  have many := may.few
  rw [core_height _ _ (by simp [heightFields,height]),answer_body_height] at deep
  rw [frame_nodes,answer_body_nodes] at many
  exact ⟨⟨by omega,by omega,room,by omega⟩,length⟩

/-- Where there is room a response is encoded. -/
theorem encoded_of_room (digests : crypto.Digests) {request : BrokerFrame}
    (decoded : Decoded session request) {outcome : Outcome} {value : Json} (good : sound value = true)
    (room : Room session.limits request outcome value) :
    ∃ response, encodeFrame crypto (answer request outcome value) session = .ok response := by
  have deep := room.shallow
  have many := room.few
  have clear := answer_clear decoded outcome value
  have bodyGood : sound (answer request outcome value).body = true := answer_body_sound.trans good
  have body : Writable (answer request outcome value).body :=
    ⟨bodyGood,by rw [answer_body_height]; omega,by rw [answer_body_nodes]; omega⟩
  have core : Writable (.obj (answer request outcome value).fields) := by
    have height_ := core_height (answer request outcome value) [] (by simp [heightFields])
    have good_ := (core_sound (answer request outcome value) []).mpr ⟨clear,bodyGood,rfl⟩
    rw [append_nil] at height_ good_
    exact ⟨good_,by rw [height_,answer_body_height]; omega,by rw [core_nodes,answer_body_nodes]; omega⟩
  have digest := digests session.key (macLabel ++ canonicalText (.obj (answer request outcome value).fields))
  obtain ⟨macLength,macAscii⟩ := hexText_ascii digest
  have macGood : soundFields [("mac",.str (crypto.hmac session.key
      (macLabel ++ canonicalText (.obj (answer request outcome value).fields))))] = true := by
    have key : fieldKey "mac" = true := by decide
    simp only [soundFields,sound,key,ascii_bounded macAscii (by omega : _ ≤ 32768),Bool.and_self]
  have frame : Writable (.obj ((answer request outcome value).fields ++ [("mac",.str (crypto.hmac session.key
      (macLabel ++ canonicalText (.obj (answer request outcome value).fields))))])) :=
    ⟨(core_sound _ _).mpr ⟨clear,bodyGood,macGood⟩,
      by rw [core_height _ _ (by simp [heightFields,height]),answer_body_height]; omega,
      by rw [frame_nodes,answer_body_nodes]; omega⟩
  have length := frame_size (answer_named decoded outcome value) digest
  rw [body_size,answer_envelope] at length
  refine ⟨_,encodeFrame_ok.mpr ⟨decoded.options,body,by rw [body_size]; exact room.body,core,_,rfl,frame,rfl,?_⟩⟩
  rw [utf8_length,length]
  exact room.frame

/-! ## What a call does -/

theorem code_sound (code : Code) : sound (codeJson code) = true := by
  cases code <;> decide +kernel

theorem attempt_sound {b : Broker} {now deadlineMs last : Int} {value : Json}
    (attempted : b.attempt dispatched m now deadlineMs = (.ok value,last)) : sound value = true := by
  simp only [Broker.attempt] at attempted
  split at attempted
  · cases attempted
  · split at attempted
    · cases attempted
    · split at attempted
      · cases attempted
      · split at attempted
        · cases attempted
        · rename_i wrote
          split at attempted
          · cases attempted
            exact (canonicalJson_ok.mp wrote).1.good
          · cases attempted

/-- Whatever a request came to may be written. -/
theorem conclude_sound (b : Broker) (s : State) (request : BrokerFrame) (m : Moment) (now : Int) :
    sound (b.conclude s request m now).value = true := by
  simp only [Broker.conclude]
  split
  · exact code_sound _
  · exact code_sound _
  · split
    · exact code_sound _
    · split
      · rename_i attempted
        exact attempt_sound attempted
      · exact code_sound _

/-- A request that the host takes on, at a reading of the clock. -/
structure Takes (crypto : Crypto) (b : Broker) (s : State) (bytes : Bytes) (m : Moment) (request : BrokerFrame) (now : Int) :
    Prop where
  open_ : s.closed = false
  decoded : decodeFrame crypto bytes b.session .request = .ok request
  clock : m.now = .at_ now
  later : s.lastNow ≤ now
  taken : b.refusal s bytes request now = none

theorem handle_takes {bytes : Bytes} {request : BrokerFrame} {now : Int}
    (takes : Takes crypto b s bytes m request now) :
    b.handle crypto s bytes m =
      b.respond crypto (s.serving bytes request (b.conclude s request m now)) bytes request (b.conclude s request m now) := by
  have later : ¬now < s.lastNow := by have := takes.later; omega
  simp [Broker.handle,takes.open_,takes.decoded,takes.clock,later,Broker.serve,takes.taken]

/-- A call that is not taken on changes no more than the reading of the clock, and gets no frame. -/
structure Refused (crypto : Crypto) (b : Broker) (s : State) (bytes : Bytes) (m : Moment) : Prop where
  none_ : ∀ request now, ¬Takes crypto b s bytes m request now
  reply : ∃ code now, b.handle crypto s bytes m = (.error code,{ s with lastNow := now })

theorem handle_cases (crypto : Crypto) (b : Broker) (s : State) (bytes : Bytes) (m : Moment) :
    (∃ request now, Takes crypto b s bytes m request now) ∨ Refused crypto b s bytes m := by
  by_cases closed : s.closed = true
  · refine .inr ⟨?_,some .sessionUnavailable,s.lastNow,by rw [Broker.handle,if_pos closed]⟩
    intro request now takes
    rw [takes.open_] at closed
    contradiction
  cases decoded : decodeFrame crypto bytes b.session .request with
  | error code =>
    refine .inr ⟨?_,some code,s.lastNow,by rw [Broker.handle,if_neg closed,decoded]⟩
    intro request now takes
    rw [takes.decoded] at decoded
    contradiction
  | ok request =>
    cases clock : m.now with
    | throws =>
      refine .inr ⟨?_,none,s.lastNow,by rw [Broker.handle,if_neg closed,decoded]; simp only [clock]⟩
      intro request now takes
      rw [takes.clock] at clock
      contradiction
    | unfit =>
      refine .inr ⟨?_,some .clockRefused,s.lastNow,by rw [Broker.handle,if_neg closed,decoded]; simp only [clock]⟩
      intro request now takes
      rw [takes.clock] at clock
      contradiction
    | at_ now =>
      by_cases early : now < s.lastNow
      · refine .inr ⟨?_,some .clockRefused,s.lastNow,by
          rw [Broker.handle,if_neg closed,decoded]
          simp only [clock]
          rw [if_pos early]⟩
        intro request' now' takes
        have same := takes.clock
        rw [clock] at same
        cases same
        have := takes.later
        omega
      · cases refused : b.refusal s bytes request now with
        | none => exact .inl ⟨request,now,⟨by simpa using closed,decoded,clock,by omega,refused⟩⟩
        | some code =>
          refine .inr ⟨?_,some code,now,by
            rw [Broker.handle,if_neg closed,decoded]
            simp only [clock]
            rw [if_neg early,Broker.serve,refused]⟩
          intro request' now' takes
          have same := takes.clock
          rw [clock] at same
          cases same
          have same := takes.decoded
          rw [decoded] at same
          cases same
          rw [takes.taken] at refused
          contradiction

end Neurobro.Wsl
