import Mathlib.Data.List.Forall2
import Mathlib.Data.List.Nodup
import Rsdns.Server.Streams

/-!
# Queries in datagrams (`server.rs`)

One socket serves all clients.  The loop takes one datagram after the other off it, cut to
the size of its buffer, and starts a task for each; the tasks answer in any order.
-/

namespace Rsdns.Server

open Framing

/-- How far the task of a datagram has come. -/
inductive DatagramPhase where
  | handling
  | sending (response : Bytes)
  | done
  deriving DecidableEq

structure DatagramTask (Src : Type) where
  src : Src
  data : Bytes
  phase : DatagramPhase
  deriving DecidableEq

/-- What waits at the socket, the tasks in the order they were started, and what was sent. -/
structure UdpServer (Src : Type) where
  waiting : List (Src × Bytes) := []
  tasks : List (DatagramTask Src) := []
  sent : List (Src × Bytes) := []

inductive UdpEvent (Src Error : Type) where
  | arrive (src : Src) (bytes : Bytes)
  | receive
  | answer (index : Nat) (result : Except Error Bytes)
  | send (index : Nat) (worked : Bool)

variable {Src Error : Type}

namespace UdpServer

def answer (self : UdpServer Src) (index : Nat) (result : Except Error Bytes) :
    Option (UdpServer Src) :=
  match self.tasks[index]? with
  | some ⟨src, data, .handling⟩ =>
      let phase :=
        match result with
        | .ok response => .sending response
        | .error _ => .done
      some { self with tasks := self.tasks.set index ⟨src, data, phase⟩ }
  | _ => none

def send (self : UdpServer Src) (index : Nat) (worked : Bool) : Option (UdpServer Src) :=
  match self.tasks[index]? with
  | some ⟨src, data, .sending response⟩ =>
      some { self with
        tasks := self.tasks.set index ⟨src, data, .done⟩
        sent := if worked then self.sent ++ [(src, response)] else self.sent }
  | _ => none

def step (self : UdpServer Src) : UdpEvent Src Error → Option (UdpServer Src)
  | .arrive src bytes => some { self with waiting := self.waiting ++ [(src, bytes)] }
  | .receive =>
      match self.waiting with
      | [] => none
      | (src, bytes) :: waiting =>
          some { self with
            waiting := waiting
            tasks := self.tasks ++ [⟨src, bytes.take MAX_DNS_SIZE, .handling⟩] }
  | .answer index result => self.answer index result
  | .send index worked => self.send index worked

end UdpServer

def udpMachine (Src Error : Type) : Machine (UdpServer Src) (UdpEvent Src Error) where
  step := UdpServer.step

/-- The datagrams that arrived, the responses with the task that made each, and the tasks that
sent theirs. -/
structure UdpPast (Src : Type) where
  arrived : List (Src × Bytes) := []
  answered : List (Nat × Bytes) := []
  senders : List Nat := []

def noteDatagram (_ : UdpServer Src) (event : UdpEvent Src Error) (_ : UdpServer Src)
    (past : UdpPast Src) : UdpPast Src :=
  match event with
  | .arrive src bytes => { past with arrived := past.arrived ++ [(src, bytes)] }
  | .answer index (.ok response) => { past with answered := past.answered ++ [(index, response)] }
  | .send index true => { past with senders := past.senders ++ [index] }
  | _ => past

abbrev recordedUdp (Src Error : Type) :
    Machine (UdpServer Src × UdpPast Src) (UdpEvent Src Error) :=
  (udpMachine Src Error).recording noteDatagram

/-! ### What a step does -/

/-- Everything a step can do to the server and to the record beside it. -/
inductive UdpMoves (self : UdpServer Src) (past : UdpPast Src) :
    UdpServer Src → UdpPast Src → Prop where
  | arrives (src : Src) (bytes : Bytes) :
      UdpMoves self past { self with waiting := self.waiting ++ [(src, bytes)] }
        { past with arrived := past.arrived ++ [(src, bytes)] }
  | receives {src : Src} {bytes : Bytes} {rest : List (Src × Bytes)}
      (first : self.waiting = (src, bytes) :: rest) :
      UdpMoves self past
        { self with
          waiting := rest
          tasks := self.tasks ++ [⟨src, bytes.take MAX_DNS_SIZE, .handling⟩] } past
  | answers {index : Nat} {src : Src} {data : Bytes} (response : Bytes)
      (here : self.tasks[index]? = some ⟨src, data, .handling⟩) :
      UdpMoves self past
        { self with tasks := self.tasks.set index ⟨src, data, .sending response⟩ }
        { past with answered := past.answered ++ [(index, response)] }
  | refuses {index : Nat} {src : Src} {data : Bytes}
      (here : self.tasks[index]? = some ⟨src, data, .handling⟩) :
      UdpMoves self past { self with tasks := self.tasks.set index ⟨src, data, .done⟩ } past
  | sends {index : Nat} {src : Src} {data response : Bytes}
      (here : self.tasks[index]? = some ⟨src, data, .sending response⟩) :
      UdpMoves self past
        { self with
          tasks := self.tasks.set index ⟨src, data, .done⟩
          sent := self.sent ++ [(src, response)] }
        { past with senders := past.senders ++ [index] }
  | drops {index : Nat} {src : Src} {data response : Bytes}
      (here : self.tasks[index]? = some ⟨src, data, .sending response⟩) :
      UdpMoves self past { self with tasks := self.tasks.set index ⟨src, data, .done⟩ } past

theorem udpMoves_of_step {self next : UdpServer Src} {past later : UdpPast Src}
    {event : UdpEvent Src Error}
    (stepped : (recordedUdp Src Error).step (self, past) event = some (next, later)) :
    UdpMoves self past next later := by
  obtain ⟨taken, noted⟩ := Machine.recording_step_eq_some.mp stepped
  dsimp only at taken noted
  subst noted
  cases event with
  | arrive src bytes =>
      cases taken
      exact .arrives src bytes
  | receive =>
      simp only [udpMachine, UdpServer.step] at taken
      split at taken
      · cases taken
      · next src bytes rest first =>
          cases taken
          exact .receives first
  | answer index result =>
      simp only [udpMachine, UdpServer.step, UdpServer.answer] at taken
      split at taken
      · next src data here =>
          cases taken
          cases result with
          | ok response => exact .answers response here
          | error error => exact .refuses here
      · cases taken
  | send index worked =>
      simp only [udpMachine, UdpServer.step, UdpServer.send] at taken
      split at taken
      · next src data response here =>
          cases taken
          cases worked with
          | true => exact .sends here
          | false => exact .drops here
      · cases taken

/-! ### Who is answered -/

/-- What the past says of the task of a datagram. -/
structure Dealt (past : UdpPast Src) (index : Nat) (task : DatagramTask Src) : Prop where
  datagram : ∃ bytes, past.arrived[index]? = some (task.src, bytes) ∧
    task.data = bytes.take MAX_DNS_SIZE
  handling : task.phase = .handling →
    (∀ response, (index, response) ∉ past.answered) ∧ index ∉ past.senders
  sending : ∀ response, task.phase = .sending response →
    (index, response) ∈ past.answered ∧ index ∉ past.senders

/-- The datagram goes back where one came from, with the response to what came. -/
def Replies (past : UdpPast Src) (index : Nat) (datagram : Src × Bytes) : Prop :=
  ∃ bytes, past.arrived[index]? = some (datagram.1, bytes) ∧
    (index, datagram.2) ∈ past.answered

/-- The tasks have taken the first datagrams that arrived, each of them is answered and sends
at most once, and what it sends is its answer. -/
structure Answering (recorded : UdpServer Src × UdpPast Src) : Prop where
  taken : recorded.1.tasks.length ≤ recorded.2.arrived.length
  waiting : recorded.2.arrived.drop recorded.1.tasks.length = recorded.1.waiting
  dealt : ∀ index task, recorded.1.tasks[index]? = some task → Dealt recorded.2 index task
  known : ∀ index ∈ recorded.2.senders, index < recorded.1.tasks.length
  asked : ∀ index ∈ recorded.2.answered.map Prod.fst, index < recorded.1.tasks.length
  answeredOnce : (recorded.2.answered.map Prod.fst).Nodup
  sentOnce : recorded.2.senders.Nodup
  sent : List.Forall₂ (Replies recorded.2) recorded.2.senders recorded.1.sent

theorem Replies.of_arrived {past : UdpPast Src} {index : Nat} {datagram : Src × Bytes}
    (replies : Replies past index datagram) (more : List (Src × Bytes))
    (answers : List (Nat × Bytes)) (senders : List Nat) :
    Replies ⟨past.arrived ++ more, past.answered ++ answers, senders⟩ index datagram := by
  obtain ⟨bytes, there, answered⟩ := replies
  have inside := (List.getElem?_eq_some_iff.mp there).1
  exact ⟨bytes, (List.getElem?_append_left inside).trans there,
    List.mem_append_left _ answered⟩

theorem getElem?_set_task {tasks : List (DatagramTask Src)} {index other : Nat}
    {before after task : DatagramTask Src} (here : tasks[index]? = some before)
    (there : (tasks.set index after)[other]? = some task) :
    (other = index ∧ task = after) ∨ (other ≠ index ∧ tasks[other]? = some task) := by
  obtain ⟨inside, _⟩ := List.getElem?_eq_some_iff.mp here
  by_cases same : other = index
  · subst same
    rw [List.getElem?_set_self inside] at there
    exact .inl ⟨rfl, (Option.some.inj there).symm⟩
  · rw [List.getElem?_set_ne (Ne.symm same)] at there
    exact .inr ⟨same, there⟩

section Step

variable {self : UdpServer Src} {past : UdpPast Src} {index : Nat} {src : Src} {data : Bytes}

theorem Answering.arrives (answering : Answering (self, past)) (src : Src) (bytes : Bytes) :
    Answering ({ self with waiting := self.waiting ++ [(src, bytes)] },
      { past with arrived := past.arrived ++ [(src, bytes)] }) where
  taken := by
    rw [List.length_append]
    exact Nat.le_add_right_of_le answering.taken
  waiting := by
    rw [List.drop_append_of_le_length answering.taken]
    exact congrArg (· ++ [(src, bytes)]) answering.waiting
  dealt := by
    intro other task there
    obtain ⟨⟨was, arrived, cut⟩, handling, sending⟩ := answering.dealt other task there
    have inside := (List.getElem?_eq_some_iff.mp arrived).1
    exact ⟨⟨was, (List.getElem?_append_left inside).trans arrived, cut⟩, handling, sending⟩
  known := answering.known
  asked := answering.asked
  answeredOnce := answering.answeredOnce
  sentOnce := answering.sentOnce
  sent := answering.sent.imp fun _ _ replies => by
    simpa using replies.of_arrived [(src, bytes)] [] past.senders

theorem Answering.receives (answering : Answering (self, past)) {bytes : Bytes}
    {rest : List (Src × Bytes)} (first : self.waiting = (src, bytes) :: rest) :
    Answering ({ self with
      waiting := rest
      tasks := self.tasks ++ [⟨src, bytes.take MAX_DNS_SIZE, .handling⟩] }, past) := by
  have left : past.arrived.drop self.tasks.length = (src, bytes) :: rest :=
    answering.waiting.trans first
  have arrived : past.arrived[self.tasks.length]? = some (src, bytes) := by
    rw [← List.head?_drop, left]
    rfl
  have inside := (List.getElem?_eq_some_iff.mp arrived).1
  refine {
    taken := ?_, waiting := ?_, dealt := ?_, known := ?_, asked := ?_
    answeredOnce := answering.answeredOnce
    sentOnce := answering.sentOnce
    sent := answering.sent }
  · rw [List.length_append]
    exact inside
  · rw [List.length_append, List.length_singleton, ← List.drop_drop, left]
    rfl
  · intro other task there
    rcases Nat.lt_or_ge other self.tasks.length with old | new
    · rw [List.getElem?_append_left old] at there
      exact answering.dealt other task there
    · rw [List.getElem?_append_right new, List.getElem?_singleton] at there
      obtain ⟨isNew, fresh⟩ := Option.ite_none_right_eq_some.mp there
      cases fresh
      have isNext : other = self.tasks.length := by omega
      subst isNext
      refine ⟨⟨bytes, arrived, rfl⟩, fun _ => ⟨fun response answered => ?_, fun sent => ?_⟩,
        fun _ impossible => nomatch impossible⟩
      · exact Nat.lt_irrefl _ (answering.asked _ (List.mem_map_of_mem answered))
      · exact Nat.lt_irrefl _ (answering.known _ sent)
  · intro other sent
    rw [List.length_append]
    exact Nat.lt_add_right 1 (answering.known other sent)
  · intro other answered
    rw [List.length_append]
    exact Nat.lt_add_right 1 (answering.asked other answered)

theorem Answering.answers (answering : Answering (self, past)) (response : Bytes)
    (here : self.tasks[index]? = some ⟨src, data, .handling⟩) :
    Answering ({ self with tasks := self.tasks.set index ⟨src, data, .sending response⟩ },
      { past with answered := past.answered ++ [(index, response)] }) := by
  have dealt := answering.dealt index _ here
  obtain ⟨unanswered, unsent⟩ := dealt.handling rfl
  have inside := (List.getElem?_eq_some_iff.mp here).1
  refine {
    taken := by rw [List.length_set]; exact answering.taken
    waiting := by rw [List.length_set]; exact answering.waiting
    dealt := ?_
    known := by rw [List.length_set]; exact answering.known
    asked := ?_, answeredOnce := ?_
    sentOnce := answering.sentOnce
    sent := answering.sent.imp fun _ _ replies => by
      simpa using replies.of_arrived [] [(index, response)] past.senders }
  · intro other task there
    rcases getElem?_set_task here there with ⟨rfl, rfl⟩ | ⟨another, old⟩
    · refine ⟨dealt.datagram, fun impossible => (nomatch impossible), fun made same => ?_⟩
      cases same
      exact ⟨List.mem_append_right _ List.mem_cons_self, unsent⟩
    · obtain ⟨datagram, handling, sending⟩ := answering.dealt other task old
      refine ⟨datagram, fun still => ?_, fun made isSending => ?_⟩
      · obtain ⟨never, silent⟩ := handling still
        refine ⟨fun made member => ?_, silent⟩
        rcases List.mem_append.mp member with before | now
        · exact never made before
        · exact another (Prod.mk.inj (List.mem_singleton.mp now)).1
      · obtain ⟨answered, silent⟩ := sending made isSending
        exact ⟨List.mem_append_left _ answered, silent⟩
  · intro other answered
    rw [List.length_set]
    rw [List.map_append, List.mem_append] at answered
    rcases answered with before | now
    · exact answering.asked other before
    · rw [List.mem_singleton.mp now]
      exact inside
  · rw [List.map_append, List.nodup_append]
    refine ⟨answering.answeredOnce, List.nodup_singleton _, ?_⟩
    intro other before last now same
    obtain ⟨⟨_, made⟩, member, rfl⟩ := List.mem_map.mp before
    have isIndex := same.trans (List.mem_singleton.mp now)
    dsimp only at isIndex
    subst isIndex
    exact unanswered made member

theorem Answering.ends (answering : Answering (self, past)) {phase : DatagramPhase}
    (here : self.tasks[index]? = some ⟨src, data, phase⟩) :
    Answering ({ self with tasks := self.tasks.set index ⟨src, data, .done⟩ }, past) where
  taken := by rw [List.length_set]; exact answering.taken
  waiting := by rw [List.length_set]; exact answering.waiting
  dealt := by
    intro other task there
    rcases getElem?_set_task here there with ⟨rfl, rfl⟩ | ⟨_, old⟩
    · exact ⟨(answering.dealt other _ here).datagram, fun impossible => (nomatch impossible),
        fun _ impossible => nomatch impossible⟩
    · exact answering.dealt other task old
  known := by rw [List.length_set]; exact answering.known
  asked := by rw [List.length_set]; exact answering.asked
  answeredOnce := answering.answeredOnce
  sentOnce := answering.sentOnce
  sent := answering.sent

theorem Answering.sends (answering : Answering (self, past)) {response : Bytes}
    (here : self.tasks[index]? = some ⟨src, data, .sending response⟩) :
    Answering ({ self with
        tasks := self.tasks.set index ⟨src, data, .done⟩
        sent := self.sent ++ [(src, response)] },
      { past with senders := past.senders ++ [index] }) := by
  have ended := answering.ends here
  have dealt := answering.dealt index _ here
  obtain ⟨answered, unsent⟩ := dealt.sending response rfl
  have inside := (List.getElem?_eq_some_iff.mp here).1
  refine {
    taken := ended.taken
    waiting := ended.waiting
    dealt := ?_, known := ?_
    asked := ended.asked
    answeredOnce := ended.answeredOnce
    sentOnce := ?_, sent := ?_ }
  · intro other task there
    have other_ne (silent : other ∉ past.senders) (ours : task.phase ≠ .done) :
        other ∉ past.senders ++ [index] := by
      rcases getElem?_set_task here there with ⟨_, rfl⟩ | ⟨another, _⟩
      · exact absurd rfl ours
      · rw [List.mem_append, not_or]
        exact ⟨silent, fun last => another (List.mem_singleton.mp last)⟩
    obtain ⟨datagram, handling, sending⟩ := ended.dealt other task there
    refine ⟨datagram, fun still => ?_, fun made isSending => ?_⟩
    · exact ⟨(handling still).1, other_ne (handling still).2 (by rw [still]; nofun)⟩
    · exact ⟨(sending made isSending).1,
        other_ne (sending made isSending).2 (by rw [isSending]; nofun)⟩
  · intro other sent
    rw [List.length_set]
    rcases List.mem_append.mp sent with before | now
    · exact answering.known other before
    · rw [List.mem_singleton.mp now]
      exact inside
  · rw [List.nodup_append]
    refine ⟨answering.sentOnce, List.nodup_singleton _, ?_⟩
    rintro other before last now rfl
    rw [List.mem_singleton.mp now] at before
    exact unsent before
  · obtain ⟨bytes, arrived, _⟩ := dealt.datagram
    exact List.rel_append answering.sent
      (.cons ⟨bytes, arrived, answered⟩ .nil)

end Step

theorem Answering.step {recorded next : UdpServer Src × UdpPast Src} {event : UdpEvent Src Error}
    (answering : Answering recorded)
    (stepped : (recordedUdp Src Error).step recorded event = some next) : Answering next := by
  obtain ⟨self, past⟩ := recorded
  obtain ⟨after, later⟩ := next
  cases udpMoves_of_step stepped with
  | arrives src bytes => exact answering.arrives src bytes
  | receives first => exact answering.receives first
  | answers response here => exact answering.answers response here
  | refuses here => exact answering.ends here
  | sends here => exact answering.sends here
  | drops here => exact answering.ends here

/-- Each datagram that is answered is answered once, to where it came from and with the
response to the bytes that the buffer held of it, in whatever order the tasks go on. -/
theorem datagrams_answered_once {self : UdpServer Src} {past : UdpPast Src}
    (run : (recordedUdp Src Error).Run ({}, {}) (self, past)) :
    past.senders.Nodup ∧ (past.answered.map Prod.fst).Nodup ∧
      List.Forall₂ (Replies past) past.senders self.sent ∧
      ∀ (index : Nat) (task : DatagramTask Src), self.tasks[index]? = some task → ∃ bytes,
        past.arrived[index]? = some (task.src, bytes) ∧ task.data = bytes.take MAX_DNS_SIZE := by
  have answering : Answering (self, past) := by
    refine run.invariant ?_ fun answering _ stepped => answering.step stepped
    exact {
      taken := Nat.le_refl _, waiting := rfl, dealt := fun _ _ there => (nomatch there)
      known := nofun, asked := nofun, answeredOnce := List.nodup_nil
      sentOnce := List.nodup_nil, sent := .nil }
  exact ⟨answering.sentOnce, answering.answeredOnce, answering.sent,
    fun index task there => (answering.dealt index task there).datagram⟩

/-- Two clients, of which the second is answered first. -/
theorem overtaken_datagrams_answered_once :
    let events : List (UdpEvent Nat Unit) :=
      [.arrive 1 [7], .receive, .arrive 2 [8, 9], .receive, .answer 1 (.ok [5]), .send 1 true,
        .answer 0 (.ok [6]), .send 0 true]
    ∃ self past, (recordedUdp Nat Unit).execWhile (fun _ _ => True) ({}, {}) events =
        some (self, past) ∧ self.sent = [(2, [5]), (1, [6])] ∧ past.senders = [1, 0] ∧
      past.senders.Nodup ∧ (past.answered.map Prod.fst).Nodup ∧
        List.Forall₂ (Replies past) past.senders self.sent := by
  intro events
  have executed : ∃ self past,
      (recordedUdp Nat Unit).execWhile (fun _ _ => True) ({}, {}) events = some (self, past) ∧
      self.sent = [(2, [5]), (1, [6])] ∧ past.senders = [1, 0] := ⟨_, _, rfl, rfl, rfl⟩
  obtain ⟨self, past, taken, sent, senders⟩ := executed
  obtain ⟨sentOnce, answeredOnce, replies, _⟩ :=
    datagrams_answered_once (.of_execWhile .refl taken)
  exact ⟨self, past, taken, sent, senders, sentOnce, answeredOnce, replies⟩

end Rsdns.Server
