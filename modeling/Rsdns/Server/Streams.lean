import Rsdns.Library.Framing
import Rsdns.Library.Machine

/-!
# Queries on byte streams (`server.rs`)

A TCP or TLS connection is good for one query.  Its bytes arrive in pieces of any size and
are accepted in pieces of any size; the task takes the length, then as many bytes, has the
query handled and writes the response behind its length.
-/

namespace Rsdns.Server

open Framing

def MAX_DNS_SIZE : Nat := 4096

inductive StreamPhase where
  | accepted
  | readingLength (got : Bytes)
  | readingData (length : Nat) (got : Bytes)
  | handling (data : Bytes)
  | writingLength (left response : Bytes)
  | writingData (left : Bytes)
  | closed
  deriving DecidableEq

/-- `sent` is what the stream has taken.  A TCP stream sends all of it on; a TLS stream, which
nothing flushes, may keep an end of it when the connection closes. -/
structure Connection where
  incoming : Bytes := []
  phase : StreamPhase := .accepted
  sent : Bytes := []
  deriving DecidableEq

/-- What comes from outside: bytes of the client, the outcome of `set_nodelay` or of the
handshake, how much a read or a write moves, that one fails, and the answer to the query. -/
inductive StreamEvent (Error : Type) where
  | arrive (bytes : Bytes)
  | setUp (worked : Bool)
  | read (count : Nat)
  | write (count : Nat)
  | fail
  | answer (result : Except Error Bytes)

variable {Error : Type}

namespace Connection

/-- A request that is too large ends the task; reading nothing needs no bytes. -/
def enterData (self : Connection) (length : Nat) : Connection :=
  { self with
    phase :=
      if length > MAX_DNS_SIZE then .closed
      else if length = 0 then .handling []
      else .readingData length [] }

/-- One read of at most as many bytes as are still missing. -/
def read (self : Connection) (count : Nat) : Option Connection :=
  let chunk := self.incoming.take count
  let self' := { self with incoming := self.incoming.drop count }
  if 0 < count ∧ count ≤ self.incoming.length then
    match self.phase with
    | .readingLength got =>
        if got.length + count < 2 then
          some { self' with phase := .readingLength (got ++ chunk) }
        else if got.length + count = 2 then some (self'.enterData (readLength (got ++ chunk)))
        else none
    | .readingData length got =>
        if got.length + count < length then
          some { self' with phase := .readingData length (got ++ chunk) }
        else if got.length + count = length then
          some { self' with phase := .handling (got ++ chunk) }
        else none
    | _ => none
  else none

/-- One write of at most as many bytes as are left. -/
def write (self : Connection) (count : Nat) : Option Connection :=
  match self.phase with
  | .writingLength left response =>
      if 0 < count ∧ count ≤ left.length then
        let phase :=
          if left.drop count = [] then
            if response = [] then StreamPhase.closed else .writingData response
          else .writingLength (left.drop count) response
        some { self with phase := phase, sent := self.sent ++ left.take count }
      else none
  | .writingData left =>
      if 0 < count ∧ count ≤ left.length then
        let phase := if left.drop count = [] then .closed else .writingData (left.drop count)
        some { self with phase := phase, sent := self.sent ++ left.take count }
      else none
  | _ => none

def fails (self : Connection) : Option Connection :=
  match self.phase with
  | .readingLength _ | .readingData _ _ | .writingLength _ _ | .writingData _ =>
      some { self with phase := .closed }
  | _ => none

def step (self : Connection) : StreamEvent Error → Option Connection
  | .arrive bytes => some { self with incoming := self.incoming ++ bytes }
  | .setUp worked =>
      if self.phase = .accepted then
        some { self with phase := if worked then .readingLength [] else .closed }
      else none
  | .read count => self.read count
  | .write count => self.write count
  | .fail => self.fails
  | .answer result =>
      match self.phase with
      | .handling _ =>
          match result with
          | .ok response =>
              some { self with phase := .writingLength (lengthBytes response.length) response }
          | .error _ => some { self with phase := .closed }
      | _ => none

end Connection

def streamMachine (Error : Type) : Machine Connection (StreamEvent Error) where
  step := Connection.step

/-! ### The record -/

/-- All bytes that arrived, the queries that were handled and the responses to them. -/
structure StreamPast where
  received : Bytes := []
  handled : List Bytes := []
  answered : List Bytes := []
  deriving DecidableEq

def StreamPhase.query? : StreamPhase → Option Bytes
  | .handling data => some data
  | _ => none

/-- A query is handled from the moment that it is complete. -/
def noteStream (_ : Connection) (event : StreamEvent Error) (after : Connection)
    (past : StreamPast) : StreamPast :=
  match event with
  | .arrive bytes => { past with received := past.received ++ bytes }
  | .read _ => { past with handled := past.handled ++ after.phase.query?.toList }
  | .answer (.ok response) => { past with answered := past.answered ++ [response] }
  | _ => past

/-! ### What a step does -/

/-- Everything a step can do to a connection and to the record beside it. -/
inductive StreamMoves (self : Connection) (past : StreamPast) :
    StreamEvent Error → Connection → StreamPast → Prop where
  | arrives (bytes : Bytes) :
      StreamMoves self past (.arrive bytes) { self with incoming := self.incoming ++ bytes }
        { past with received := past.received ++ bytes }
  | starts (here : self.phase = .accepted) :
      StreamMoves self past (.setUp true) { self with phase := .readingLength [] } past
  | refuses (here : self.phase = .accepted) :
      StreamMoves self past (.setUp false) { self with phase := .closed } past
  | readsLength {count : Nat} {got chunk rest : Bytes} (here : self.phase = .readingLength got)
      (arrived : self.incoming = chunk ++ rest) (short : (got ++ chunk).length < 2) :
      StreamMoves self past (.read count)
        { self with incoming := rest, phase := .readingLength (got ++ chunk) } past
  | entersData {count : Nat} {got chunk rest : Bytes} (here : self.phase = .readingLength got)
      (arrived : self.incoming = chunk ++ rest) (two : (got ++ chunk).length = 2) :
      StreamMoves self past (.read count)
        (Connection.enterData { self with incoming := rest } (readLength (got ++ chunk)))
        { past with
          handled := past.handled ++ if readLength (got ++ chunk) = 0 then [[]] else [] }
  | readsData {count length : Nat} {got chunk rest : Bytes}
      (here : self.phase = .readingData length got)
      (arrived : self.incoming = chunk ++ rest) (short : (got ++ chunk).length < length) :
      StreamMoves self past (.read count)
        { self with incoming := rest, phase := .readingData length (got ++ chunk) } past
  | handles {count length : Nat} {got chunk rest : Bytes}
      (here : self.phase = .readingData length got)
      (arrived : self.incoming = chunk ++ rest) (all : (got ++ chunk).length = length) :
      StreamMoves self past (.read count)
        { self with incoming := rest, phase := .handling (got ++ chunk) }
        { past with handled := past.handled ++ [got ++ chunk] }
  | answers {data response : Bytes} (here : self.phase = .handling data) :
      StreamMoves self past (.answer (.ok response))
        { self with phase := .writingLength (lengthBytes response.length) response }
        { past with answered := past.answered ++ [response] }
  | givesUp {data : Bytes} {error : Error} (here : self.phase = .handling data) :
      StreamMoves self past (.answer (.error error)) { self with phase := .closed } past
  | writesLength {count : Nat} {left chunk rest response : Bytes}
      (here : self.phase = .writingLength left response) (cut : left = chunk ++ rest)
      (more : rest ≠ []) :
      StreamMoves self past (.write count)
        { self with phase := .writingLength rest response, sent := self.sent ++ chunk } past
  | entersResponse {count : Nat} {left response : Bytes}
      (here : self.phase = .writingLength left response) :
      StreamMoves self past (.write count)
        { self with
          phase := if response = [] then .closed else .writingData response
          sent := self.sent ++ left } past
  | writesData {count : Nat} {left chunk rest : Bytes} (here : self.phase = .writingData left)
      (cut : left = chunk ++ rest) (more : rest ≠ []) :
      StreamMoves self past (.write count)
        { self with phase := .writingData rest, sent := self.sent ++ chunk } past
  | finishes {count : Nat} {left : Bytes} (here : self.phase = .writingData left) :
      StreamMoves self past (.write count)
        { self with phase := .closed, sent := self.sent ++ left } past
  | fails (running : self.phase ≠ .accepted) (unasked : self.phase.query? = none) :
      StreamMoves self past .fail { self with phase := .closed } past

abbrev recordedStream (Error : Type) : Machine (Connection × StreamPast) (StreamEvent Error) :=
  (streamMachine Error).recording noteStream

theorem streamMoves_of_read {self next : Connection} {count : Nat} (past : StreamPast)
    (moved : self.read count = some next) :
    StreamMoves self past (.read count : StreamEvent Error) next
      { past with handled := past.handled ++ next.phase.query?.toList } := by
  obtain ⟨⟨_, within⟩, moved⟩ := Option.ite_none_right_eq_some.mp moved
  have arrived : self.incoming = self.incoming.take count ++ self.incoming.drop count :=
    (List.take_append_drop _ _).symm
  have size (got : Bytes) : (got ++ self.incoming.take count).length = got.length + count := by
    rw [List.length_append, List.length_take, Nat.min_eq_left within]
  obtain ⟨incoming, phase, sent⟩ := self
  cases phase with
  | readingLength got =>
      dsimp only at moved
      split at moved
      · next short =>
          cases moved
          rw [← size got] at short
          simpa [StreamPhase.query?] using StreamMoves.readsLength rfl arrived short
      · obtain ⟨two, entered⟩ := Option.ite_none_right_eq_some.mp moved
        cases entered
        rw [← size got] at two
        have noted : (Connection.enterData ⟨incoming.drop count, .readingLength got, sent⟩
            (readLength (got ++ incoming.take count))).phase.query?.toList =
            if readLength (got ++ incoming.take count) = 0 then [[]] else [] := by
          unfold Connection.enterData
          by_cases large : readLength (got ++ incoming.take count) > MAX_DNS_SIZE
          · have nonzero : readLength (got ++ incoming.take count) ≠ 0 := by omega
            simp [large, nonzero, StreamPhase.query?]
          · by_cases zero : readLength (got ++ incoming.take count) = 0
            · simp [zero, StreamPhase.query?]
            · simp [large, zero, StreamPhase.query?]
        rw [noted]
        exact .entersData rfl arrived two
  | readingData length got =>
      dsimp only at moved
      split at moved
      · next short =>
          cases moved
          rw [← size got] at short
          simpa [StreamPhase.query?] using StreamMoves.readsData rfl arrived short
      · obtain ⟨all, handled⟩ := Option.ite_none_right_eq_some.mp moved
        cases handled
        rw [← size got] at all
        exact .handles rfl arrived all
  | _ => cases moved

theorem streamMoves_of_write {self next : Connection} {count : Nat} (past : StreamPast)
    (moved : self.write count = some next) :
    StreamMoves self past (.write count : StreamEvent Error) next past := by
  unfold Connection.write at moved
  cases here : self.phase with
  | writingLength left response =>
      simp only [here] at moved
      obtain ⟨_, written⟩ := Option.ite_none_right_eq_some.mp moved
      cases written
      have cut : left = left.take count ++ left.drop count := (List.take_append_drop _ _).symm
      by_cases all : left.drop count = []
      · have whole : left.take count = left := by
          rw [all, List.append_nil] at cut
          exact cut.symm
        rw [if_pos all, whole]
        exact .entersResponse here
      · rw [if_neg all]
        exact .writesLength here cut all
  | writingData left =>
      simp only [here] at moved
      obtain ⟨_, written⟩ := Option.ite_none_right_eq_some.mp moved
      cases written
      have cut : left = left.take count ++ left.drop count := (List.take_append_drop _ _).symm
      by_cases all : left.drop count = []
      · have whole : left.take count = left := by
          rw [all, List.append_nil] at cut
          exact cut.symm
        rw [if_pos all, whole]
        exact .finishes here
      · rw [if_neg all]
        exact .writesData here cut all
  | _ => simp [here] at moved

theorem streamMoves_of_step {self next : Connection} {past later : StreamPast}
    {event : StreamEvent Error}
    (stepped : (recordedStream Error).step (self, past) event = some (next, later)) :
    StreamMoves self past event next later := by
  obtain ⟨taken, noted⟩ := Machine.recording_step_eq_some.mp stepped
  dsimp only at taken noted
  subst noted
  cases event with
  | arrive bytes =>
      cases taken
      exact .arrives bytes
  | setUp worked =>
      obtain ⟨here, moved⟩ := Option.ite_none_right_eq_some.mp taken
      cases moved
      cases worked with
      | true => exact .starts here
      | false => exact .refuses here
  | read count => exact streamMoves_of_read past taken
  | write count => exact streamMoves_of_write past taken
  | fail =>
      simp only [streamMachine, Connection.step, Connection.fails] at taken
      cases here : self.phase with
      | readingLength got =>
          simp only [here] at taken
          cases taken
          exact .fails (by simp [here]) (by simp [here, StreamPhase.query?])
      | readingData length got =>
          simp only [here] at taken
          cases taken
          exact .fails (by simp [here]) (by simp [here, StreamPhase.query?])
      | writingLength left response =>
          simp only [here] at taken
          cases taken
          exact .fails (by simp [here]) (by simp [here, StreamPhase.query?])
      | writingData left =>
          simp only [here] at taken
          cases taken
          exact .fails (by simp [here]) (by simp [here, StreamPhase.query?])
      | _ => simp [here] at taken
  | answer result =>
      simp only [streamMachine, Connection.step] at taken
      cases here : self.phase with
      | handling data =>
          simp only [here] at taken
          cases result with
          | ok response =>
              cases taken
              exact .answers here
          | error error =>
              cases taken
              exact .givesUp here
      | _ => simp [here] at taken

/-! ### What a connection is good for -/

/-- The bytes taken so far are this query behind its length. -/
structure Asked (data consumed : Bytes) : Prop where
  framed : consumed = frame data
  small : data.length ≤ MAX_DNS_SIZE

/-- Nothing was handled yet, and nothing sent. -/
structure Silent (handled answered : List Bytes) (sent : Bytes) : Prop where
  handled : handled = []
  answered : answered = []
  sent : sent = []

/-- The query was handled, and at most its response is on the way. -/
structure Replying (consumed : Bytes) (handled answered : List Bytes) (sent data : Bytes) :
    Prop where
  asked : Asked data consumed
  handled : handled = [data]
  replied : (answered = [] ∧ sent = []) ∨
    ∃ response, answered = [response] ∧ sent <+: frame response

/-- What was taken of the stream, handled, answered and sent, for each phase. -/
def StreamPhase.Fits (consumed : Bytes) (handled answered : List Bytes) (sent : Bytes) :
    StreamPhase → Prop
  | .accepted => consumed = [] ∧ Silent handled answered sent
  | .readingLength got => consumed = got ∧ got.length < 2 ∧ Silent handled answered sent
  | .readingData length got => got.length < length ∧ length ≤ MAX_DNS_SIZE ∧
      (∃ two : Bytes, two.length = 2 ∧ readLength two = length ∧ consumed = two ++ got) ∧
      Silent handled answered sent
  | .handling data => Asked data consumed ∧ handled = [data] ∧ answered = [] ∧ sent = []
  | .writingLength left response => left ≠ [] ∧ ∃ data, Asked data consumed ∧
      handled = [data] ∧ answered = [response] ∧ sent ++ left = lengthBytes response.length
  | .writingData left => left ≠ [] ∧ ∃ data response, Asked data consumed ∧
      handled = [data] ∧ answered = [response] ∧ sent ++ left = frame response
  | .closed => Silent handled answered sent ∨
      ∃ data, Replying consumed handled answered sent data

section Fits

variable {consumed sent : Bytes} {handled answered : List Bytes}

theorem StreamPhase.Fits.settled {phase : StreamPhase}
    (fits : phase.Fits consumed handled answered sent) :
    Silent handled answered sent ∨ ∃ data, Replying consumed handled answered sent data := by
  cases phase with
  | accepted => exact .inl fits.2
  | readingLength got => exact .inl fits.2.2
  | readingData length got => exact .inl fits.2.2.2
  | handling data =>
      obtain ⟨asked, once, unanswered, unsent⟩ := fits
      exact .inr ⟨data, asked, once, .inl ⟨unanswered, unsent⟩⟩
  | writingLength left response =>
      obtain ⟨_, data, asked, once, replied, written⟩ := fits
      refine .inr ⟨data, asked, once, .inr ⟨response, replied, ?_⟩⟩
      rw [frame, ← written, List.append_assoc]
      exact List.prefix_append _ _
  | writingData left =>
      obtain ⟨_, data, response, asked, once, replied, written⟩ := fits
      exact .inr ⟨data, asked, once, .inr ⟨response, replied, written ▸ List.prefix_append _ _⟩⟩
  | closed => exact fits

theorem fits_enterData {two rest : Bytes} (isTwo : two.length = 2)
    (silent : Silent handled answered sent) :
    (Connection.enterData ⟨rest, .readingLength [], sent⟩ (readLength two)).phase.Fits two
      (handled ++ if readLength two = 0 then [[]] else []) answered sent := by
  unfold Connection.enterData
  by_cases large : readLength two > MAX_DNS_SIZE
  · have nonzero : readLength two ≠ 0 := by omega
    simp only [if_pos large, if_neg nonzero, List.append_nil]
    exact .inl silent
  · by_cases zero : readLength two = 0
    · simp only [if_neg large, if_pos zero]
      have isFrame : frame [] = two ++ [] := frame_of_readLength isTwo zero
      refine ⟨⟨?_, Nat.zero_le _⟩, ?_, silent.answered, silent.sent⟩
      · rw [isFrame, List.append_nil]
      · rw [silent.handled, List.nil_append]
    · simp only [if_neg large, if_neg zero, List.append_nil]
      exact ⟨Nat.pos_of_ne_zero zero, Nat.le_of_not_gt large,
        ⟨two, isTwo, rfl, (List.append_nil two).symm⟩, silent⟩

end Fits

/-- The bytes that arrived are those taken and those waiting, and the taken ones fit. -/
def Exchanged (recorded : Connection × StreamPast) : Prop :=
  ∃ consumed, recorded.2.received = consumed ++ recorded.1.incoming ∧
    recorded.1.phase.Fits consumed recorded.2.handled recorded.2.answered recorded.1.sent

theorem Exchanged.step {recorded next : Connection × StreamPast} {event : StreamEvent Error}
    (exchanged : Exchanged recorded)
    (stepped : (recordedStream Error).step recorded event = some next) : Exchanged next := by
  obtain ⟨self, past⟩ := recorded
  obtain ⟨after, later⟩ := next
  obtain ⟨consumed, received, fits⟩ := exchanged
  dsimp only at received fits
  cases streamMoves_of_step stepped with
  | arrives bytes =>
      refine ⟨consumed, ?_, fits⟩
      dsimp only
      rw [received, List.append_assoc]
  | starts here =>
      rw [here] at fits
      exact ⟨consumed, received, fits.1, Nat.zero_lt_two, fits.2⟩
  | refuses here =>
      rw [here] at fits
      exact ⟨consumed, received, .inl fits.2⟩
  | @readsLength count got chunk rest here arrived short =>
      rw [here] at fits
      obtain ⟨rfl, _, silent⟩ := fits
      exact ⟨consumed ++ chunk, by rw [received, arrived, List.append_assoc], rfl, short, silent⟩
  | @entersData count got chunk rest here arrived two =>
      rw [here] at fits
      obtain ⟨rfl, _, silent⟩ := fits
      exact ⟨consumed ++ chunk, by rw [received, arrived, List.append_assoc]; rfl,
        fits_enterData two silent⟩
  | @readsData count length got chunk rest here arrived short =>
      rw [here] at fits
      obtain ⟨_, small, ⟨two, isTwo, said, rfl⟩, silent⟩ := fits
      refine ⟨two ++ (got ++ chunk), ?_, short, small, ⟨two, isTwo, said, rfl⟩, silent⟩
      rw [received, arrived]
      simp
  | @handles count length got chunk rest here arrived all =>
      rw [here] at fits
      obtain ⟨_, small, ⟨two, isTwo, said, rfl⟩, silent⟩ := fits
      have isFrame := frame_of_readLength isTwo (said.trans all.symm)
      refine ⟨frame (got ++ chunk), ?_, ⟨rfl, all ▸ small⟩, ?_, silent.answered, silent.sent⟩
      · rw [isFrame, received, arrived]
        simp
      · rw [silent.handled, List.nil_append]
  | @answers data response here =>
      rw [here] at fits
      obtain ⟨asked, once, unanswered, unsent⟩ := fits
      refine ⟨consumed, received, List.cons_ne_nil _ _, data, asked, once, ?_, ?_⟩
      · rw [unanswered, List.nil_append]
      · rw [unsent, List.nil_append]
  | @givesUp data error here =>
      rw [here] at fits
      exact ⟨consumed, received, fits.settled⟩
  | @writesLength count left chunk rest response here cut more =>
      rw [here] at fits
      obtain ⟨_, data, asked, once, replied, written⟩ := fits
      refine ⟨consumed, received, more, data, asked, once, replied, ?_⟩
      rw [List.append_assoc, ← cut, written]
  | @entersResponse count left response here =>
      rw [here] at fits
      obtain ⟨_, data, asked, once, replied, written⟩ := fits
      refine ⟨consumed, received, ?_⟩
      dsimp only
      rw [written]
      by_cases empty : response = []
      · rw [if_pos empty]
        refine .inr ⟨data, asked, once, .inr ⟨response, replied, ?_⟩⟩
        exact List.prefix_append _ _
      · rw [if_neg empty]
        exact ⟨empty, data, response, asked, once, replied, rfl⟩
  | @writesData count left chunk rest here cut more =>
      rw [here] at fits
      obtain ⟨_, data, response, asked, once, replied, written⟩ := fits
      refine ⟨consumed, received, more, data, response, asked, once, replied, ?_⟩
      rw [List.append_assoc, ← cut, written]
  | @finishes count left here =>
      rw [here] at fits
      obtain ⟨_, data, response, asked, once, replied, written⟩ := fits
      refine ⟨consumed, received, .inr ⟨data, asked, once, .inr ⟨response, replied, ?_⟩⟩⟩
      exact ⟨[], (List.append_nil _).trans written⟩
  | fails running unasked => exact ⟨consumed, received, fits.settled⟩

theorem exchanged_of_run {allowed : Connection × StreamPast → StreamEvent Error → Prop}
    {recorded : Connection × StreamPast}
    (run : (recordedStream Error).GuardedRun allowed ({}, {}) recorded) : Exchanged recorded := by
  refine run.invariant ?_ fun exchanged _ stepped => exchanged.step stepped
  exact ⟨[], rfl, rfl, rfl, rfl, rfl⟩

theorem max_lt_lengthBound : MAX_DNS_SIZE < lengthBound := by decide

theorem Asked.eq_of_prefix {data query consumed rest more : Bytes} (asked : Asked data consumed)
    (sent : consumed ++ rest <+: frame query ++ more) (short : query.length < lengthBound) :
    data = query := by
  obtain ⟨behind, whole⟩ := sent
  rw [asked.framed, List.append_assoc] at whole
  exact (frame_append_inj (Nat.lt_of_le_of_lt asked.small max_lt_lengthBound) short whole).1

/-- Whatever the pieces that bytes come and go in, a connection hands on the first query of
its client and nothing else, and what the client can read from it is the response to that,
however much of what the stream took comes through. -/
theorem stream_exchange {self : Connection} {past : StreamPast}
    (run : (recordedStream Error).Run ({}, {}) (self, past)) {query more : Bytes}
    (byClient : past.received <+: frame query ++ more) (short : query.length < lengthBound) :
    (past.handled = [] ∨ past.handled = [query] ∧ query.length ≤ MAX_DNS_SIZE) ∧
      ∀ delivered, delivered <+: self.sent →
        ∀ reply rest, unframe delivered = some (reply, rest) →
          ∃ response, past.answered = [response] ∧
            (response.length < lengthBound → reply = response ∧ rest = []) := by
  obtain ⟨consumed, received, fits⟩ := exchanged_of_run run
  dsimp only at received fits
  rcases fits.settled with silent | ⟨data, asked, once, replied⟩
  · refine ⟨.inl silent.handled, fun delivered through reply rest read => ?_⟩
    rw [silent.sent, List.prefix_nil] at through
    rw [through] at read
    cases read
  · have same : data = query := asked.eq_of_prefix (received ▸ byClient) short
    subst same
    refine ⟨.inr ⟨once, asked.small⟩, fun delivered through reply rest read => ?_⟩
    obtain ⟨isSent, small⟩ := unframe_eq_some_iff.mp read
    rcases replied with ⟨_, unsent⟩ | ⟨response, answered, front⟩
    · rw [unsent, List.prefix_nil] at through
      rw [through] at isSent
      exact absurd isSent (by simp [frame, lengthBytes])
    · refine ⟨response, answered, fun fitting => ?_⟩
      obtain ⟨left, whole⟩ := through.trans front
      rw [isSent, List.append_assoc] at whole
      have cut : frame reply ++ (rest ++ left) = frame response ++ [] := by
        rw [whole, List.append_nil]
      obtain ⟨isReply, behind⟩ := frame_append_inj small fitting cut
      exact ⟨isReply, (List.append_eq_nil_iff.mp behind).1⟩

/-- A query in two pieces, the first of one byte, with more behind it.  What comes through may be less than
the stream took. -/
theorem split_stream_exchange :
    let events : List (StreamEvent Unit) :=
      [.setUp true, .arrive [0], .read 1, .arrive [2, 7, 8, 0], .read 1, .read 1, .read 1,
        .answer (.ok [9]), .write 1, .write 1, .write 1]
    ∃ self past, (recordedStream Unit).execWhile (fun _ _ => True) ({}, {}) events =
        some (self, past) ∧ self.sent = [0, 1, 9] ∧
      ((past.handled = [] ∨ past.handled = [[7, 8]] ∧ [7, 8].length ≤ MAX_DNS_SIZE) ∧
        ∀ delivered, delivered <+: self.sent →
          ∀ reply rest, unframe delivered = some (reply, rest) →
            ∃ response, past.answered = [response] ∧
              (response.length < lengthBound → reply = response ∧ rest = [])) := by
  intro events
  have executed : ∃ self past,
      (recordedStream Unit).execWhile (fun _ _ => True) ({}, {}) events = some (self, past) ∧
      self.sent = [0, 1, 9] ∧ past.received = [0, 2, 7, 8, 0] := ⟨_, _, rfl, rfl, rfl⟩
  obtain ⟨self, past, taken, sent, received⟩ := executed
  have byClient : past.received <+: frame [7, 8] ++ [0] := by
    rw [received]
    exact List.prefix_rfl
  exact ⟨self, past, taken, sent,
    stream_exchange (.of_execWhile .refl taken) byClient (by decide)⟩

/-! ### When nothing fails -/

def StreamEvent.Sound : StreamEvent Error → Prop
  | .fail | .setUp false | .answer (.error _) => False
  | _ => True

instance : (event : StreamEvent Error) → Decidable event.Sound
  | .fail | .setUp false | .answer (.error _) => isFalse id
  | .arrive _ | .setUp true | .read _ | .write _ | .answer (.ok _) => isTrue trivial

/-- The whole response is sent, or the request was refused for the length it says. -/
def Concluded (self : Connection) (past : StreamPast) : Prop :=
  (∃ response, past.answered = [response] ∧ self.sent = frame response) ∨
    ∃ two : Bytes, two.length = 2 ∧ MAX_DNS_SIZE < readLength two ∧ two <+: past.received

theorem concluded_step {self next : Connection} {past later : StreamPast}
    {event : StreamEvent Error} (exchanged : Exchanged (self, past))
    (completed : self.phase = .closed → Concluded self past) (sound : event.Sound)
    (moves : StreamMoves self past event next later) :
    next.phase = .closed → Concluded next later := by
  obtain ⟨consumed, received, fits⟩ := exchanged
  dsimp only at received fits
  intro ended
  cases moves with
  | arrives bytes =>
      rcases completed ended with sent | ⟨two, isTwo, large, front⟩
      · exact .inl sent
      · exact .inr ⟨two, isTwo, large, front.trans (List.prefix_append _ _)⟩
  | starts here => cases ended
  | refuses here => exact sound.elim
  | readsLength here arrived short => cases ended
  | @entersData count got chunk rest here arrived two =>
      rw [here] at fits
      obtain ⟨rfl, _⟩ := fits
      have front : consumed ++ chunk <+: past.received :=
        ⟨rest, by rw [received, arrived, List.append_assoc]⟩
      have large : MAX_DNS_SIZE < readLength (consumed ++ chunk) := by
        by_contra fitting
        simp only [Connection.enterData, if_neg fitting] at ended
        split at ended <;> cases ended
      exact .inr ⟨consumed ++ chunk, two, large, front⟩
  | readsData here arrived short => cases ended
  | handles here arrived all => cases ended
  | answers here => cases ended
  | givesUp here => exact sound.elim
  | writesLength here cut more => cases ended
  | @entersResponse count left response here =>
      rw [here] at fits
      obtain ⟨_, data, asked, once, replied, written⟩ := fits
      by_cases empty : response = []
      · refine .inl ⟨response, replied, ?_⟩
        dsimp only
        rw [written, frame, empty, List.append_nil]
      · rw [if_neg empty] at ended
        cases ended
  | writesData here cut more => cases ended
  | @finishes count left here =>
      rw [here] at fits
      obtain ⟨_, data, response, asked, once, replied, written⟩ := fits
      exact .inl ⟨response, replied, written⟩
  | fails running unasked => exact sound.elim

theorem readLength_of_frame {two query behind rest : Bytes} (isTwo : two.length = 2)
    (short : query.length < lengthBound) (same : frame query ++ behind = two ++ rest) :
    readLength two = query.length := by
  rw [frame, List.append_assoc] at same
  have isLength := (List.append_inj same (isTwo ▸ rfl)).1
  rw [← isLength, readLength_lengthBytes, Nat.mod_eq_of_lt short]

def Finishing (recorded : Connection × StreamPast) : Prop :=
  Exchanged recorded ∧ (recorded.1.phase = .closed → Concluded recorded.1 recorded.2)

theorem Finishing.step {recorded next : Connection × StreamPast} {event : StreamEvent Error}
    (finishing : Finishing recorded) (sound : event.Sound)
    (stepped : (recordedStream Error).step recorded event = some next) : Finishing next :=
  ⟨finishing.1.step stepped,
    concluded_step finishing.1 finishing.2 sound (streamMoves_of_step stepped)⟩

theorem isSome_read_one {self : Connection} (arrived : self.incoming ≠ [])
    (reading : (∃ got, self.phase = .readingLength got ∧ got.length < 2) ∨
      ∃ length got, self.phase = .readingData length got ∧ got.length < length) :
    (self.read 1).isSome := by
  have waiting : 1 ≤ self.incoming.length := List.length_pos_iff.mpr arrived
  unfold Connection.read
  rw [if_pos ⟨Nat.zero_lt_one, waiting⟩]
  rcases reading with ⟨got, here, short⟩ | ⟨length, got, here, short⟩
  · simp only [here]
    by_cases more : got.length + 1 < 2
    · rw [if_pos more]
      rfl
    · rw [if_neg more, if_pos (by omega)]
      rfl
  · simp only [here]
    by_cases more : got.length + 1 < length
    · rw [if_pos more]
      rfl
    · rw [if_neg more, if_pos (by omega)]
      rfl

/-- When nothing fails and a whole query of a fitting size has arrived over TCP, the connection
has sent the whole response, or the query is being handled, or its task can go on by itself. -/
theorem stream_serves {self : Connection} {past : StreamPast}
    (run : (recordedStream Error).GuardedRun (fun _ event => event.Sound) ({}, {}) (self, past))
    {query : Bytes} (arrived : frame query <+: past.received)
    (small : query.length ≤ MAX_DNS_SIZE) :
    (∃ response, past.handled = [query] ∧ past.answered = [response] ∧
        self.sent = frame response) ∨
      self.phase = .handling query ∨
      ∃ event ∈ [StreamEvent.setUp true, .read 1, .write 1],
        ((streamMachine Error).step self event).isSome := by
  have finishing : Finishing (self, past) := by
    refine run.invariant ?_ Finishing.step
    exact ⟨⟨[], rfl, rfl, rfl, rfl, rfl⟩, fun ended => nomatch ended⟩
  obtain ⟨⟨consumed, received, fits⟩, completed⟩ := finishing
  dsimp only at received fits completed
  have short : query.length < lengthBound := Nat.lt_of_le_of_lt small max_lt_lengthBound
  obtain ⟨more, whole⟩ := arrived
  have byClient : consumed ++ self.incoming <+: frame query ++ more :=
    ⟨[], by rw [List.append_nil, ← received, whole]⟩
  have taken {data : Bytes} (asked : Asked data consumed) : data = query :=
    asked.eq_of_prefix byClient short
  cases here : self.phase with
  | accepted =>
      refine .inr (.inr ⟨.setUp true, by simp, ?_⟩)
      simp [streamMachine, Connection.step, here]
  | readingLength got =>
      rw [here] at fits
      obtain ⟨rfl, less, _⟩ := fits
      have waiting : self.incoming ≠ [] := by
        intro none
        have lengths := congrArg List.length (whole.trans received)
        simp only [none, frame, List.length_append, length_lengthBytes, List.length_nil] at lengths
        omega
      exact .inr (.inr ⟨.read 1, by simp, isSome_read_one waiting (.inl ⟨_, here, less⟩)⟩)
  | readingData length got =>
      rw [here] at fits
      obtain ⟨less, _, ⟨two, isTwo, said, rfl⟩, _⟩ := fits
      rw [received, List.append_assoc] at whole
      have isLength := readLength_of_frame isTwo short whole
      have waiting : self.incoming ≠ [] := by
        intro none
        have lengths := congrArg List.length whole
        simp only [none, frame, List.length_append, length_lengthBytes, List.length_nil] at lengths
        omega
      exact .inr (.inr ⟨.read 1, by simp,
        isSome_read_one waiting (.inr ⟨length, got, here, less⟩)⟩)
  | handling data =>
      rw [here] at fits
      exact .inr (.inl (congrArg StreamPhase.handling (taken fits.1)))
  | writingLength left response =>
      rw [here] at fits
      have some := List.length_pos_iff.mpr fits.1
      refine .inr (.inr ⟨.write 1, by simp, ?_⟩)
      simp only [streamMachine, Connection.step, Connection.write, here]
      rw [if_pos ⟨Nat.zero_lt_one, some⟩]
      rfl
  | writingData left =>
      rw [here] at fits
      have some := List.length_pos_iff.mpr fits.1
      refine .inr (.inr ⟨.write 1, by simp, ?_⟩)
      simp only [streamMachine, Connection.step, Connection.write, here]
      rw [if_pos ⟨Nat.zero_lt_one, some⟩]
      rfl
  | closed =>
      rw [here] at fits
      rcases completed here with ⟨response, answered, sent⟩ | ⟨two, isTwo, large, front⟩
      · rcases fits with silent | ⟨data, asked, once, _⟩
        · rw [silent.answered] at answered
          cases answered
        · exact .inl ⟨response, taken asked ▸ once, answered, sent⟩
      · obtain ⟨rest, isFront⟩ := front
        have said := readLength_of_frame isTwo short (whole.trans isFront.symm)
        omega

/-- An empty query, whose empty response is being written. -/
theorem empty_stream_serves :
    let events : List (StreamEvent Unit) :=
      [.arrive [0], .setUp true, .read 1, .arrive [0, 5], .read 1, .answer (.ok []), .write 1]
    ∃ self past, (recordedStream Unit).execWhile (fun _ event => event.Sound) ({}, {}) events =
        some (self, past) ∧
      ((∃ response, past.handled = [[]] ∧ past.answered = [response] ∧
          self.sent = frame response) ∨
        self.phase = .handling [] ∨
        ∃ event ∈ [StreamEvent.setUp true, .read 1, .write 1],
          ((streamMachine Unit).step self event).isSome) := by
  intro events
  have executed : ∃ self past,
      (recordedStream Unit).execWhile (fun _ event => event.Sound) ({}, {}) events =
        some (self, past) ∧ past.received = [0, 0, 5] := ⟨_, _, rfl, rfl⟩
  obtain ⟨self, past, taken, received⟩ := executed
  have arrived : frame [] <+: past.received := by
    rw [received]
    exact ⟨[5], rfl⟩
  exact ⟨self, past, taken, stream_serves (.of_execWhile .refl taken) arrived (Nat.zero_le _)⟩

end Rsdns.Server
