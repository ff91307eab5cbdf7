import Rsdns.Library.Base64Canonical
import Rsdns.Library.Percent

/-!
# DNS over HTTPS (`server.rs`)

A query comes as the body of a `POST` or in the parameter `dns` of a `GET`.  The
parameter is cut out of the query string, its escapes are read back, and what they
give is decoded.  However a client escapes it, both ways hand over the same bytes.
-/

namespace Rsdns.Server

inductive Method where
  | GET
  | POST
  | other (name : Text)
  deriving DecidableEq

structure Uri where
  path : Text
  query : Option Text
  deriving DecidableEq

inductive StatusCode where
  | OK
  | BAD_REQUEST
  | NOT_FOUND
  | METHOD_NOT_ALLOWED
  | UNSUPPORTED_MEDIA_TYPE
  deriving DecidableEq

structure Response where
  status : StatusCode
  contentType : Option Text
  body : List UInt8
  deriving DecidableEq

def DOH_PATH : Text := "/dns-query".toList

def DNS_MESSAGE : Text := "application/dns-message".toList

def Response.empty (status : StatusCode) : Response where
  status := status
  contentType := none
  body := []

/-! ### Escapes -/

def escapeAt (bytes : List UInt8) (i : Nat) : Option UInt8 := do
  if bytes[i]? = some Percent.mark ∧ i + 2 < bytes.length then
    let hi ← Percent.hexVal (← bytes[i + 1]?)
    let lo ← Percent.hexVal (← bytes[i + 2]?)
    return hi <<< 4 ||| lo
  else none

/-- The loop from `i` on.  Every turn moves `i`, so the length is fuel enough. -/
def percentDecodeFrom (bytes : List UInt8) : Nat → Nat → List UInt8
  | 0, _ => []
  | fuel + 1, i =>
      match bytes[i]? with
      | none => []
      | some byte =>
          match escapeAt bytes i with
          | some escaped => escaped :: percentDecodeFrom bytes fuel (i + 3)
          | none => byte :: percentDecodeFrom bytes fuel (i + 1)

def percentDecode (s : Text) : Text :=
  let bytes := Utf8.encode s
  Utf8.decodeLossy (percentDecodeFrom bytes bytes.length 0)

theorem escapeAt_eq_escaped (bytes : List UInt8) (i : Nat) :
    escapeAt bytes i = Percent.escaped (bytes.drop i) := by
  have first : bytes[i]? = (bytes.drop i)[0]? := by simp
  have second : bytes[i + 1]? = (bytes.drop i)[1]? := by simp
  have third : bytes[i + 2]? = (bytes.drop i)[2]? := by simp
  have inside : i + 2 < bytes.length ↔ 2 < (bytes.drop i).length := by
    rw [List.length_drop]
    omega
  unfold escapeAt
  simp only [first, second, third, inside]
  match bytes.drop i with
  | [] => rfl
  | [_] => simp [Percent.escaped]
  | [_, _] => simp [Percent.escaped]
  | first :: second :: third :: rest =>
      by_cases marked : first = Percent.mark
      · simp [Percent.escaped, Percent.hexByte, marked]
      · simp [Percent.escaped, marked]

theorem percentDecodeFrom_eq_decode (bytes : List UInt8) {fuel i : Nat}
    (enough : bytes.length ≤ i + fuel) :
    percentDecodeFrom bytes fuel i = Percent.decode (bytes.drop i) := by
  induction fuel generalizing i with
  | zero =>
      rw [List.drop_eq_nil_of_le (by omega)]
      rfl
  | succ fuel inductionHypothesis =>
      unfold percentDecodeFrom
      rw [escapeAt_eq_escaped]
      cases left : bytes.drop i with
      | nil =>
          have none : bytes[i]? = none := by
            rw [List.getElem?_eq_none_iff]
            exact List.drop_eq_nil_iff.mp left
          rw [none]
          rfl
      | cons byte rest =>
          have first : bytes[i]? = some byte := by
            have atFront : (bytes.drop i)[0]? = bytes[i + 0]? := List.getElem?_drop
            rw [left, Nat.add_zero] at atFront
            exact atFront.symm
          have next : bytes.drop (i + 1) = rest := by
            rw [← List.drop_drop, left]
            rfl
          have third : bytes.drop (i + 3) = rest.drop 2 := by
            rw [← next, List.drop_drop]
          rw [first, Percent.decode_cons]
          dsimp only
          cases Percent.escaped (byte :: rest) with
          | none =>
              dsimp only
              rw [inductionHypothesis (by omega), next]
          | some value =>
              dsimp only
              rw [inductionHypothesis (by omega), third]

theorem percentDecode_of_escapes {plain written : Text} (escapes : Percent.Escapes plain written)
    (ascii : ∀ char ∈ plain, char.toNat < 128) (unmarked : '%' ∉ plain) :
    percentDecode written = plain := by
  have decoded := Percent.decode_of_escapes escapes ascii unmarked
  unfold percentDecode
  dsimp only
  rw [percentDecodeFrom_eq_decode _ (by omega), List.drop_zero, decoded,
    Utf8.decodeLossy_encode]

/-! ### The parameter -/

def decodeBase64url (s : Text) : Option (List UInt8) := Base64Url.decode (Utf8.encode s)

def dnsParameter (uri : Uri) : Option (List UInt8) := do
  let q ← uri.query
  let value ← (q.splitOn '&').findSome? (Text.stripPrefix "dns=".toList)
  decodeBase64url (percentDecode value)

def dohData (method : Method) (uri : Uri) (contentType : Option Text)
    (body : Option (List UInt8)) : Except Response (List UInt8) := do
  if uri.path ≠ DOH_PATH then .error (.empty .NOT_FOUND)
  else
    let data ←
      match method with
      | .POST =>
          match contentType with
          | some c =>
              if Text.toAsciiLowercase c = Text.toAsciiLowercase DNS_MESSAGE then .ok body
              else .error (.empty .UNSUPPORTED_MEDIA_TYPE)
          | none => .error (.empty .UNSUPPORTED_MEDIA_TYPE)
      | .GET => .ok (dnsParameter uri)
      | .other _ => .error (.empty .METHOD_NOT_ALLOWED)
    match data with
    | some data => .ok data
    | none => .error (.empty .BAD_REQUEST)

section Wire

variable {State Message Error : Type}

/-- The front of `handle_query`: bytes that are no message are refused.  The parser is
the wire library's, the rest of the query is `answer`. -/
def handleWire (fromVec : List UInt8 → Except Error Message)
    (answer : State → Message → Except Error (List UInt8) × State) (state : State)
    (data : List UInt8) : Except Error (List UInt8) × State :=
  match fromVec data with
  | .error e => (.error e, state)
  | .ok msg => answer state msg

def handleDohWire (handleQuery : State → List UInt8 → Except Error (List UInt8) × State)
    (state : State) (method : Method) (uri : Uri) (contentType : Option Text)
    (body : Option (List UInt8)) : Response × State :=
  match dohData method uri contentType body with
  | .error resp => (resp, state)
  | .ok data =>
      match handleQuery state data with
      | (.ok response, state) =>
          ({ status := .OK, contentType := some DNS_MESSAGE, body := response }, state)
      | (.error _, state) => (.empty .BAD_REQUEST, state)

def Response.ofHandled : Except Error (List UInt8) → Response
  | .ok response => { status := .OK, contentType := some DNS_MESSAGE, body := response }
  | .error _ => .empty .BAD_REQUEST

theorem handleDohWire_of_data (handleQuery : State → List UInt8 → Except Error (List UInt8) × State)
    (state : State) {method : Method} {uri : Uri} {contentType : Option Text}
    {body : Option (List UInt8)} {data : List UInt8}
    (handed : dohData method uri contentType body = .ok data) :
    handleDohWire handleQuery state method uri contentType body =
      (.ofHandled (handleQuery state data).1, (handleQuery state data).2) := by
  unfold handleDohWire
  rw [handed]
  dsimp only
  rcases handleQuery state data with ⟨error | response, after⟩ <;> rfl

end Wire

/-! ### What is decoded -/

theorem decodeBase64url_eq_some_iff {s : Text} {bytes : List UInt8} :
    decodeBase64url s = some bytes ↔ bytes ≠ [] ∧ s = Base64Url.encode bytes :=
  Base64Url.decode_eq_some_iff

theorem decodeBase64url_eq_none {s : Text}
    (other : ∀ bytes, bytes ≠ [] → s ≠ Base64Url.encode bytes) : decodeBase64url s = none := by
  apply Option.eq_none_iff_forall_ne_some.mpr
  intro bytes decoded
  obtain ⟨nonempty, whole⟩ := decodeBase64url_eq_some_iff.mp decoded
  exact other bytes nonempty whole

/-- The decoder accepts the encodings of something, each for what it encodes, and
nothing else, and the bits that its word loses make no difference. -/
theorem decode_base64url_canonical :
    (∀ s bytes, decodeBase64url s = some bytes ↔ bytes ≠ [] ∧ s = Base64Url.encode bytes) ∧
    (∀ first second bytes, decodeBase64url first = some bytes →
      decodeBase64url second = some bytes → first = second) ∧
    (∀ s, s = [] ∨ s.length % 4 = 1 ∨ ¬ s ⊆ Base64Url.alphabet → decodeBase64url s = none) ∧
    ∀ s, decodeBase64url s = Base64Url.decodeWide (Utf8.encode s) := by
  refine ⟨fun s bytes => decodeBase64url_eq_some_iff, ?_, ?_, ?_⟩
  · intro first second bytes decodedFirst decodedSecond
    have wholeFirst := (decodeBase64url_eq_some_iff.mp decodedFirst).2
    have wholeSecond := (decodeBase64url_eq_some_iff.mp decodedSecond).2
    exact wholeFirst.trans wholeSecond.symm
  · intro s bad
    apply decodeBase64url_eq_none
    rintro bytes nonempty rfl
    rcases bad with empty | length | foreign
    · exact Base64Url.encode_ne_nil nonempty empty
    · exact Base64Url.length_encode_mod bytes length
    · exact foreign (Base64Url.encode_subset bytes)
  · exact fun s => Base64Url.decode_eq_decodeWide (Utf8.encode s)

/-- Bits left over are refused unless they are zero. -/
example : decodeBase64url "YQ".toList = some [97] ∧ decodeBase64url "YR".toList = none := by
  decide +kernel

/-! ### Both ways -/

theorem findSome?_first_parameter {before after : List Text} {value : Text}
    (first : ∀ parameter ∈ before, ¬ "dns=".toList <+: parameter) :
    (before ++ ("dns=".toList ++ value) :: after).findSome? (Text.stripPrefix "dns=".toList) =
      some value := by
  have skipped : before.findSome? (Text.stripPrefix "dns=".toList) = none := by
    refine List.findSome?_eq_none_iff.mpr fun parameter member => ?_
    cases stripped : Text.stripPrefix "dns=".toList parameter with
    | none => rfl
    | some rest =>
        have whole := Text.stripPrefix_eq_some_iff.mp stripped
        exact absurd ⟨rest, whole.symm⟩ (first parameter member)
  have own : Text.stripPrefix "dns=".toList ("dns=".toList ++ value) = some value :=
    Text.stripPrefix_eq_some_iff.mpr rfl
  rw [List.findSome?_append, skipped, Option.none_or, List.findSome?_cons, own]

theorem percentDecode_of_encode {message : List UInt8} {value : Text}
    (escapes : Percent.Escapes (Base64Url.encode message) value) :
    percentDecode value = Base64Url.encode message := by
  have inside := Base64Url.encode_subset message
  apply percentDecode_of_escapes escapes
  · exact fun char member => Base64Url.ascii_of_mem (inside member)
  · intro member
    exact absurd (inside member) (by decide)

section Parameter

variable {message : List UInt8} {value query : Text} {before after : List Text}

theorem dnsParameter_eq (escapes : Percent.Escapes (Base64Url.encode message) value)
    (cut : query.splitOn '&' = before ++ ("dns=".toList ++ value) :: after)
    (first : ∀ parameter ∈ before, ¬ "dns=".toList <+: parameter) :
    dnsParameter { path := DOH_PATH, query := some query } =
      if message = [] then none else some message := by
  unfold dnsParameter
  simp only [Option.bind_eq_bind, Option.bind_some]
  rw [cut, findSome?_first_parameter first, Option.bind_some, percentDecode_of_encode escapes]
  split
  · next empty =>
      rw [empty]
      rfl
  · next nonempty => exact decodeBase64url_eq_some_iff.mpr ⟨nonempty, rfl⟩

theorem dohData_get (escapes : Percent.Escapes (Base64Url.encode message) value)
    (cut : query.splitOn '&' = before ++ ("dns=".toList ++ value) :: after)
    (first : ∀ parameter ∈ before, ¬ "dns=".toList <+: parameter)
    (contentType : Option Text) (body : Option (List UInt8)) :
    dohData .GET { path := DOH_PATH, query := some query } contentType body =
      if message = [] then .error (.empty .BAD_REQUEST) else .ok message := by
  have parameter := dnsParameter_eq escapes cut first
  unfold dohData
  rw [if_neg (not_not_intro rfl), parameter]
  by_cases empty : message = []
  · simp only [empty, if_true]
    rfl
  · simp only [empty, if_false]
    rfl

end Parameter

theorem dohData_post (query : Option Text) (message : List UInt8) :
    dohData .POST { path := DOH_PATH, query := query } (some DNS_MESSAGE) (some message) =
      .ok message := rfl

section Wire

variable {State Message Error : Type}

/-- A query in a `GET` and the same query in a `POST` are answered with what `handleQuery`
gives for its bytes, whatever that is, or refused alike before anything is answered; their
responses are the same. -/
theorem doh_get_eq_post {fromVec : List UInt8 → Except Error Message}
    (refusesNothing : ∃ error, fromVec [] = .error error)
    (answer : State → Message → Except Error (List UInt8) × State)
    {message : List UInt8} {value query : Text} {before after : List Text}
    (escapes : Percent.Escapes (Base64Url.encode message) value)
    (cut : query.splitOn '&' = before ++ ("dns=".toList ++ value) :: after)
    (first : ∀ parameter ∈ before, ¬ "dns=".toList <+: parameter)
    (contentType postQuery : Option Text) (body : Option (List UInt8)) (state : State) :
    (message ≠ [] → ∀ handleQuery : State → List UInt8 → Except Error (List UInt8) × State,
      handleDohWire handleQuery state .GET
        { path := DOH_PATH, query := some query } contentType body =
          (.ofHandled (handleQuery state message).1, (handleQuery state message).2) ∧
      handleDohWire handleQuery state .POST
        { path := DOH_PATH, query := postQuery } (some DNS_MESSAGE) (some message) =
          (.ofHandled (handleQuery state message).1, (handleQuery state message).2)) ∧
    (message = [] →
      handleDohWire (handleWire fromVec answer) state .GET
        { path := DOH_PATH, query := some query } contentType body =
          (.empty .BAD_REQUEST, state) ∧
      handleDohWire (handleWire fromVec answer) state .POST
        { path := DOH_PATH, query := postQuery } (some DNS_MESSAGE) (some message) =
          (.empty .BAD_REQUEST, state)) ∧
    handleDohWire (handleWire fromVec answer) state .GET
      { path := DOH_PATH, query := some query } contentType body =
    handleDohWire (handleWire fromVec answer) state .POST
      { path := DOH_PATH, query := postQuery } (some DNS_MESSAGE) (some message) := by
  have get := dohData_get escapes cut first contentType body
  have post := dohData_post postQuery message
  have answered : message ≠ [] →
      ∀ handleQuery : State → List UInt8 → Except Error (List UInt8) × State,
        handleDohWire handleQuery state .GET
          { path := DOH_PATH, query := some query } contentType body =
            (.ofHandled (handleQuery state message).1, (handleQuery state message).2) ∧
        handleDohWire handleQuery state .POST
          { path := DOH_PATH, query := postQuery } (some DNS_MESSAGE) (some message) =
            (.ofHandled (handleQuery state message).1, (handleQuery state message).2) := by
    intro nonempty handleQuery
    exact ⟨handleDohWire_of_data handleQuery state (get.trans (if_neg nonempty)),
      handleDohWire_of_data handleQuery state post⟩
  have refused : message = [] →
      handleDohWire (handleWire fromVec answer) state .GET
        { path := DOH_PATH, query := some query } contentType body =
          (.empty .BAD_REQUEST, state) ∧
      handleDohWire (handleWire fromVec answer) state .POST
        { path := DOH_PATH, query := postQuery } (some DNS_MESSAGE) (some message) =
          (.empty .BAD_REQUEST, state) := by
    rintro rfl
    obtain ⟨error, fails⟩ := refusesNothing
    rw [if_pos rfl] at get
    constructor
    · rw [handleDohWire, get]
    · rw [handleDohWire_of_data _ state post, handleWire, fails]
      rfl
  refine ⟨answered, refused, ?_⟩
  by_cases empty : message = []
  · obtain ⟨getRefused, postRefused⟩ := refused empty
    rw [getRefused, postRefused]
  · obtain ⟨getAnswered, postAnswered⟩ := answered empty (handleWire fromVec answer)
    rw [getAnswered, postAnswered]

/-- A query for the root, its first and last symbol escaped, between two parameters.
The parser asks for a whole header. -/
theorem doh_get_eq_post_of_root :
    let message : List UInt8 := [0, 0, 1, 0, 0, 1, 0, 0, 0, 0, 0, 0, 0, 0, 1, 0, 1]
    let fromVec : List UInt8 → Except Unit (List UInt8) :=
      fun data => if data.length < 12 then .error () else .ok data
    let handleQuery := handleWire fromVec fun (state : Nat) data => (.ok data, state + 1)
    let query := "a=b&dns=%41AABAAABAAAAAAAAAAABAA%45&dns=c".toList
    (message ≠ [] → ∀ handleQuery : Nat → List UInt8 → Except Unit (List UInt8) × Nat,
      handleDohWire handleQuery 0 .GET { path := DOH_PATH, query := some query } none none =
        (.ofHandled (handleQuery 0 message).1, (handleQuery 0 message).2) ∧
      handleDohWire handleQuery 0 .POST { path := DOH_PATH, query := none } (some DNS_MESSAGE)
        (some message) = (.ofHandled (handleQuery 0 message).1, (handleQuery 0 message).2)) ∧
    (message = [] →
      handleDohWire handleQuery 0 .GET { path := DOH_PATH, query := some query } none none =
        (.empty .BAD_REQUEST, 0) ∧
      handleDohWire handleQuery 0 .POST { path := DOH_PATH, query := none } (some DNS_MESSAGE)
        (some message) = (.empty .BAD_REQUEST, 0)) ∧
    handleDohWire handleQuery 0 .GET { path := DOH_PATH, query := some query } none none =
    handleDohWire handleQuery 0 .POST { path := DOH_PATH, query := none } (some DNS_MESSAGE)
      (some message) := by
  intro message fromVec handleQuery query
  have one : Percent.IsDigit '1' 1 := .inl rfl
  have four : Percent.IsDigit '4' 4 := .inl rfl
  have five : Percent.IsDigit '5' 5 := .inl rfl
  have last : Percent.Escapes "E".toList "%45".toList := .escape four five rfl .nil
  have escapes : Percent.Escapes (Base64Url.encode message)
      "%41AABAAABAAAAAAAAAAABAA%45".toList :=
    .escape four one rfl (last.keepAll "AABAAABAAAAAAAAAAABAA".toList)
  have cut : query.splitOn '&' =
      ["a=b".toList] ++ ("dns=".toList ++ "%41AABAAABAAAAAAAAAAABAA%45".toList) ::
        ["dns=c".toList] := by
    decide
  exact doh_get_eq_post ⟨(), rfl⟩ _ escapes cut
    (by rw [List.forall_mem_singleton]; decide) none none none 0

end Wire

end Rsdns.Server
