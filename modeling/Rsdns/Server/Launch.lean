import Mathlib.Data.List.Perm.Basic
import Rsdns.Library.Interaction
import Rsdns.Server.Binds

/-!
# Start-up (`main.rs`)

The stages are set up, all bind addresses are read, all of them are bound, and only then the
service manager is told and the accept loops are spawned.
-/

namespace Rsdns.Server

open IpText (SocketAddr)

variable {Socket Tls : Type}

/-! ### Groups -/

def grouped {Item : Type} (order : List BindScheme) (scheme : Item → BindScheme)
    (items : List Item) : List Item :=
  order.flatMap fun one => items.filter fun item => scheme item = one

theorem grouped_append {Item : Type} (first second : List BindScheme)
    (scheme : Item → BindScheme) (items : List Item) :
    grouped (first ++ second) scheme items =
      grouped first scheme items ++ grouped second scheme items :=
  List.flatMap_append

theorem mem_grouped {Item : Type} {order : List BindScheme} {scheme : Item → BindScheme}
    {items : List Item} {item : Item} :
    item ∈ grouped order scheme items ↔ item ∈ items ∧ scheme item ∈ order := by
  simp [grouped, and_comm]

theorem grouped_perm_filter {Item : Type} {order : List BindScheme} (distinct : order.Nodup)
    (scheme : Item → BindScheme) (items : List Item) :
    (grouped order scheme items).Perm (items.filter fun item => scheme item ∈ order) := by
  induction order with
  | nil => simp [grouped]
  | cons one order inductionHypothesis =>
      obtain ⟨absent, distinct⟩ := List.nodup_cons.mp distinct
      have cut := List.filter_append_perm (fun item => decide (scheme item = one))
        (items.filter fun item => scheme item ∈ one :: order)
      rw [List.filter_filter, List.filter_filter] at cut
      have first : (items.filter fun item =>
          decide (scheme item = one) && decide (scheme item ∈ one :: order)) =
            items.filter fun item => scheme item = one := by
        apply List.filter_congr
        intro item _
        by_cases same : scheme item = one <;> simp [same]
      have second : (items.filter fun item =>
          !decide (scheme item = one) && decide (scheme item ∈ one :: order)) =
            items.filter fun item => scheme item ∈ order := by
        apply List.filter_congr
        intro item _
        by_cases same : scheme item = one
        · simp [same, absent]
        · simp [same]
      rw [first, second] at cut
      exact ((inductionHypothesis distinct).append_left _).trans cut

theorem grouped_perm {Item : Type} {order : List BindScheme} (distinct : order.Nodup)
    (complete : ∀ scheme, scheme ∈ order) (scheme : Item → BindScheme) (items : List Item) :
    (grouped order scheme items).Perm items := by
  have all : (items.filter fun item => scheme item ∈ order) = items :=
    List.filter_eq_self.mpr fun item _ => decide_eq_true (complete (scheme item))
  have permuted := grouped_perm_filter distinct scheme items
  rwa [all] at permuted

def plainOrder : List BindScheme := [.Tcp, .Udp]

def encryptedOrder : List BindScheme := [.Tls, .Doh, .Doh3]

theorem mem_plain_append_encrypted (scheme : BindScheme) :
    scheme ∈ plainOrder ++ encryptedOrder := by
  cases scheme <;> decide

theorem not_mem_encryptedOrder {scheme : BindScheme} (plain : scheme ∈ plainOrder) :
    scheme ∉ encryptedOrder := by
  revert plain
  cases scheme <;> decide

def BindKind.isEncrypted (kind : BindKind) : Bool := kind.scheme ∈ encryptedOrder

/-! ### What is asked of the rest of the process -/

/-- The stages that can fail are set up, the certificate is read, sockets are bound, the
service manager is told, loops are spawned, and the signal of a reload is asked for. -/
inductive LaunchRequest (Socket Tls : Type) where
  | initLogs
  | initUpstreams
  | initRules
  | serverConfig
  | bindUdp (addr : SocketAddr)
  | bindTcp (addr : SocketAddr)
  | bindUi
  | notifyReady
  | serve (kind : BindKind) (socket : Socket) (tls : Option Tls)
  | serveUi (listener : Socket)
  | hangup

abbrev LaunchRequest.Reply : LaunchRequest Socket Tls → Type
  | .initLogs | .initUpstreams | .initRules | .notifyReady | .hangup => Except Text Unit
  | .serverConfig => Except Text Tls
  | .bindUdp _ | .bindTcp _ | .bindUi => Except Text Socket
  | .serve _ _ _ | .serveUi _ => Unit

abbrev LaunchExchange (Socket Tls : Type) : Type :=
  Exchange (LaunchRequest Socket Tls) LaunchRequest.Reply

abbrev Launch (Socket Tls Result : Type) : Type :=
  Interaction (LaunchRequest Socket Tls) LaunchRequest.Reply (Except Text Result)

/-- What fails ends the start-up. -/
def Launch.andThen {Result Next : Type} (first : Launch Socket Tls Result)
    (next : Result → Launch Socket Tls Next) : Launch Socket Tls Next :=
  first.bind fun
    | .ok result => next result
    | .error e => .done (.error e)

def askStages : Launch Socket Tls Unit :=
  Launch.andThen (.ask .initLogs .done) fun _ =>
  Launch.andThen (.ask .initUpstreams .done) fun _ =>
  .ask .initRules .done

def askServerConfig (kinds : List BindKind) : Launch Socket Tls (Option Tls) :=
  if kinds.any BindKind.isEncrypted then .ask .serverConfig fun tls => .done (tls.map some)
  else .done (.ok none)

/-- UDP and DoH3 take UDP sockets, the others take listeners. -/
def askBind (kind : BindKind) : Launch Socket Tls Socket :=
  match kind.scheme with
  | .Udp | .Doh3 => .ask (.bindUdp kind.addr) .done
  | .Tcp | .Tls | .Doh => .ask (.bindTcp kind.addr) .done

def askBindAll : List BindKind → Launch Socket Tls (List (BindKind × Socket))
  | [] => .done (.ok [])
  | kind :: kinds =>
      (askBind kind).andThen fun socket =>
      (askBindAll kinds).andThen fun bound => .done (.ok ((kind, socket) :: bound))

def askUi (ui : Bool) : Launch Socket Tls (Option Socket) :=
  if ui then .ask .bindUi fun listener => .done (listener.map some) else .done (.ok none)

def askServeAll (tls : Option Tls) :
    List (BindKind × Socket) → Launch Socket Tls Unit
  | [] => .done (.ok ())
  | (kind, socket) :: bound => .ask (.serve kind socket tls) fun _ => askServeAll tls bound

/-- Without a certificate nothing encrypted is served. -/
def askServeEncrypted (bound : List (BindKind × Socket)) :
    Option Tls → Launch Socket Tls Unit
  | some tls => askServeAll (some tls) (grouped encryptedOrder (fun item => item.1.scheme) bound)
  | none => .done (.ok ())

def askServeUi : Option Socket → Launch Socket Tls Unit
  | some listener => .ask (.serveUi listener) fun _ => .done (.ok ())
  | none => .done (.ok ())

/-- A service manager that cannot be told does not end the start-up. -/
def askServe (bound : List (BindKind × Socket)) (tls : Option Tls) (ui : Option Socket) :
    Launch Socket Tls Unit :=
  .ask .notifyReady fun _ =>
    (askServeAll none (grouped plainOrder (fun item => item.1.scheme) bound)).andThen fun _ =>
    (askServeEncrypted bound tls).andThen fun _ =>
    (askServeUi ui).andThen fun _ => .ask .hangup .done

structure LaunchConfig where
  binds : List Text
  ui : Bool

def bindOrder : List BindScheme := [.Udp, .Tcp, .Tls, .Doh, .Doh3]

theorem mem_bindOrder (scheme : BindScheme) : scheme ∈ bindOrder := by
  cases scheme <;> decide

/-- The start-up, up to the loop that waits for signals.  The other stages cannot fail. -/
def run (config : LaunchConfig) :
    Launch Socket Tls Unit :=
  askStages.andThen fun _ =>
  Launch.andThen (.done (config.binds.mapM parseBind)) fun kinds =>
  (askServerConfig kinds).andThen fun tls =>
  (askBindAll (grouped bindOrder BindKind.scheme kinds)).andThen fun bound =>
  (askUi config.ui).andThen fun ui => askServe bound tls ui

/-! ### What a transcript shows -/

/-- The socket was bound for the kind. -/
def Bound (transcript : List (LaunchExchange Socket Tls)) (item : BindKind × Socket) : Prop :=
  match item.1.scheme with
  | .Udp | .Doh3 => ⟨.bindUdp item.1.addr, .ok item.2⟩ ∈ transcript
  | .Tcp | .Tls | .Doh => ⟨.bindTcp item.1.addr, .ok item.2⟩ ∈ transcript

def LaunchRequest.isSetup : LaunchRequest Socket Tls → Bool
  | .notifyReady | .serve _ _ _ | .serveUi _ | .hangup => false
  | _ => true

def Quiet (transcript : List (LaunchExchange Socket Tls)) : Prop :=
  ∀ exchange ∈ transcript, exchange.1.isSetup = true

def Announced (transcript : List (LaunchExchange Socket Tls)) : Prop :=
  ∃ told, ⟨.notifyReady, told⟩ ∈ transcript

def served (transcript : List (LaunchExchange Socket Tls)) : List (BindKind × Socket) :=
  transcript.filterMap fun
    | ⟨.serve kind socket _, _⟩ => some (kind, socket)
    | _ => none

/-- The loop of an encrypted kind has the certificate that was read, and no other has one. -/
def Certified (transcript : List (LaunchExchange Socket Tls)) (kind : BindKind)
    (tls : Option Tls) : Prop :=
  tls.isSome = kind.isEncrypted ∧ ∀ one ∈ tls, ⟨.serverConfig, .ok one⟩ ∈ transcript

/-- Setting up comes before the announcement, which comes when everything is bound, and what
is served was bound. -/
def Permitted (config : LaunchConfig) (transcript : List (LaunchExchange Socket Tls)) :
    LaunchRequest Socket Tls → Prop
  | .notifyReady =>
      Quiet transcript ∧ ∃ kinds, config.binds.mapM parseBind = .ok kinds ∧
        ∀ kind ∈ kinds, ∃ socket, Bound transcript (kind, socket)
  | .serve kind socket tls =>
      Announced transcript ∧ Bound transcript (kind, socket) ∧ Certified transcript kind tls
  | .serveUi listener => Announced transcript ∧ ⟨.bindUi, .ok listener⟩ ∈ transcript
  | .hangup => Announced transcript
  | _ => Quiet transcript

/-- Every bind address that is configured is served, each as often as it is listed. -/
structure Launched (config : LaunchConfig) (transcript : List (LaunchExchange Socket Tls)) :
    Prop where
  announced : Announced transcript
  served : ∃ kinds, config.binds.mapM parseBind = .ok kinds ∧
    ((served transcript).map Prod.fst).Perm kinds
  ui : config.ui = true → ∃ listener, ⟨.serveUi listener, ()⟩ ∈ transcript

/-- The start-up failed before anything was announced, or the signal could not be asked
for. -/
def Stopped (transcript : List (LaunchExchange Socket Tls)) (e : Text) : Prop :=
  Quiet transcript ∨ ∃ earlier, transcript = earlier ++ [⟨.hangup, .error e⟩]

def Settles {Result : Type} (fine : List (LaunchExchange Socket Tls) → Result → Prop)
    (transcript : List (LaunchExchange Socket Tls)) : Except Text Result → Prop
  | .ok result => fine transcript result
  | .error e => Stopped transcript e

/-- Whatever is replied, the launch asks only for what is permitted, and it brings about what
is said of its result or stops. -/
abbrev Keeps {Result : Type} (config : LaunchConfig)
    (fine : List (LaunchExchange Socket Tls) → Result → Prop) :
    List (LaunchExchange Socket Tls) → Launch Socket Tls Result → Prop :=
  Interaction.Always (Permitted config) (Settles fine)

section Parts

variable {config : LaunchConfig} {transcript later : List (LaunchExchange Socket Tls)}

theorem Bound.mono {item : BindKind × Socket} (bound : Bound transcript item)
    (goesOn : transcript <+: later) : Bound later item := by
  obtain ⟨⟨scheme, addr⟩, socket⟩ := item
  cases scheme <;> exact goesOn.subset bound

theorem Announced.mono (announced : Announced transcript) (goesOn : transcript <+: later) :
    Announced later := by
  obtain ⟨told, member⟩ := announced
  exact ⟨told, goesOn.subset member⟩

theorem Certified.mono {kind : BindKind} {tls : Option Tls}
    (certified : Certified transcript kind tls) (goesOn : transcript <+: later) :
    Certified later kind tls :=
  ⟨certified.1, fun one member => goesOn.subset (certified.2 one member)⟩

theorem Quiet.snoc {exchange : LaunchExchange Socket Tls} (quiet : Quiet transcript)
    (setup : exchange.1.isSetup = true) : Quiet (transcript ++ [exchange]) := by
  intro one member
  rcases List.mem_append.mp member with earlier | same
  · exact quiet one earlier
  · rw [List.mem_singleton.mp same]
    exact setup

theorem Quiet.served_eq_nil (quiet : Quiet transcript) : served transcript = [] := by
  apply List.filterMap_eq_nil_iff.mpr
  rintro ⟨request, told⟩ member
  cases request with
  | serve kind socket tls => cases quiet _ member
  | _ => rfl

theorem Quiet.permitted {request : LaunchRequest Socket Tls} (quiet : Quiet transcript)
    (setup : request.isSetup = true) : Permitted config transcript request := by
  cases request <;> first | exact quiet | cases setup

/-! ### What the parts keep -/

theorem keeps_andThen {Result Next : Type} {first : Launch Socket Tls Result}
    {next : Result → Launch Socket Tls Next}
    {middle : List (LaunchExchange Socket Tls) → Result → Prop}
    {finally_ : List (LaunchExchange Socket Tls) → Next → Prop}
    (front : Keeps config middle transcript first)
    (back : ∀ later result, middle later result → Keeps config finally_ later (next result)) :
    Keeps config finally_ transcript (first.andThen next) := by
  apply Interaction.Always.bind front
  intro later result settled
  cases result with
  | ok result => exact back later result settled
  | error e => exact settled

theorem keeps_setup {Result : Type} {request : LaunchRequest Socket Tls}
    {reads : request.Reply → Except Text Result}
    {fine : List (LaunchExchange Socket Tls) → Result → Prop}
    (setup : request.isSetup = true) (quiet : Quiet transcript)
    (brings : ∀ reply result, reads reply = .ok result →
      Quiet (transcript ++ [⟨request, reply⟩]) → fine (transcript ++ [⟨request, reply⟩]) result) :
    Keeps config fine transcript (.ask request fun reply => .done (reads reply)) := by
  refine ⟨quiet.permitted setup, fun reply => ?_⟩
  have quietLater : Quiet (transcript ++ [⟨request, reply⟩]) := quiet.snoc setup
  show Settles fine _ (reads reply)
  cases found : reads reply with
  | ok result => exact brings reply result found quietLater
  | error e => exact .inl quietLater

theorem keeps_quiet {Result : Type} {request : LaunchRequest Socket Tls}
    {reads : request.Reply → Except Text Result} (setup : request.isSetup = true)
    (quiet : Quiet transcript) :
    Keeps config (fun later _ => Quiet later) transcript
      (.ask request fun reply => .done (reads reply)) :=
  keeps_setup setup quiet fun _ _ _ quietLater => quietLater

theorem keeps_askStages (quiet : Quiet transcript) :
    Keeps config (fun later _ => Quiet later) transcript askStages := by
  refine keeps_andThen (keeps_quiet rfl quiet) ?_
  intro later _ quiet
  refine keeps_andThen (keeps_quiet rfl quiet) ?_
  intro later _ quiet
  exact keeps_quiet rfl quiet

theorem keeps_askServerConfig (kinds : List BindKind) (quiet : Quiet transcript) :
    Keeps config
      (fun later tls => Quiet later ∧
        (∀ one ∈ tls, ⟨.serverConfig, .ok one⟩ ∈ later) ∧
        (tls = none → ∀ kind ∈ kinds, kind.isEncrypted = false))
      transcript (askServerConfig kinds) := by
  unfold askServerConfig
  split
  next encrypted =>
    refine keeps_setup rfl quiet fun reply tls found quiet => ⟨quiet, ?_, ?_⟩
    · intro one member
      cases reply with
      | ok certificate =>
          cases found
          cases member
          exact List.mem_append_right _ (List.mem_singleton_self _)
      | error e => cases found
    · rintro rfl
      cases reply <;> cases found
  next plain =>
    refine ⟨quiet, fun one member => ?_, fun _ kind member => ?_⟩
    · cases member
    · simp only [List.any_eq_true, not_exists, not_and, Bool.not_eq_true] at plain
      exact plain kind member

theorem keeps_askBind (kind : BindKind) (quiet : Quiet transcript) :
    Keeps config
      (fun later socket => Quiet later ∧ transcript <+: later ∧ Bound later (kind, socket))
      transcript (askBind kind) := by
  obtain ⟨scheme, addr⟩ := kind
  cases scheme <;>
    (refine keeps_setup rfl quiet fun reply socket found quiet => ⟨quiet, ⟨_, rfl⟩, ?_⟩
     cases found
     exact List.mem_append_right _ (List.mem_singleton_self _))

/-- Induction on the kinds: what was bound earlier stays bound. -/
theorem keeps_askBindAll (kinds : List BindKind) (quiet : Quiet transcript) :
    Keeps config
      (fun later bound => Quiet later ∧ transcript <+: later ∧
        bound.map Prod.fst = kinds ∧ ∀ item ∈ bound, Bound later item)
      transcript (askBindAll kinds) := by
  induction kinds generalizing transcript with
  | nil => exact ⟨quiet, List.prefix_rfl, rfl, fun item member => by cases member⟩
  | cons kind kinds inductionHypothesis =>
      refine keeps_andThen (keeps_askBind kind quiet) ?_
      rintro later socket ⟨quiet, goesOn, here⟩
      refine keeps_andThen (inductionHypothesis quiet) ?_
      rintro last bound ⟨quiet, further, rfl, there⟩
      refine ⟨quiet, goesOn.trans further, rfl, fun item member => ?_⟩
      rcases List.mem_cons.mp member with rfl | member
      · exact here.mono further
      · exact there item member

theorem keeps_askUi (ui : Bool) (quiet : Quiet transcript) :
    Keeps config
      (fun later listener => Quiet later ∧ transcript <+: later ∧
        (ui = true → listener.isSome = true) ∧ ∀ one ∈ listener, ⟨.bindUi, .ok one⟩ ∈ later)
      transcript (askUi ui) := by
  cases ui with
  | false =>
      refine ⟨quiet, List.prefix_rfl, fun wanted => ?_, fun one member => ?_⟩
      · cases wanted
      · cases member
  | true =>
      refine keeps_setup rfl quiet fun reply listener found quiet => ?_
      cases reply with
      | ok bound =>
          cases found
          refine ⟨quiet, ⟨_, rfl⟩, fun _ => rfl, fun one member => ?_⟩
          cases member
          exact List.mem_append_right _ (List.mem_singleton_self _)
      | error e => cases found

theorem Settles.mono {Result : Type}
    {fine weaker : List (LaunchExchange Socket Tls) → Result → Prop}
    {result : Except Text Result} (settles : Settles fine transcript result)
    (weaken : ∀ result, fine transcript result → weaker transcript result) :
    Settles weaker transcript result := by
  cases result with
  | ok result => exact weaken result settles
  | error e => exact settles

theorem keeps_askServeAll {tls : Option Tls} {bound : List (BindKind × Socket)}
    (announced : Announced transcript)
    (ready : ∀ item ∈ bound, Bound transcript item ∧ Certified transcript item.1 tls) :
    Keeps config
      (fun later _ => transcript <+: later ∧ served later = served transcript ++ bound)
      transcript (askServeAll tls bound) := by
  induction bound generalizing transcript with
  | nil => exact ⟨List.prefix_rfl, (List.append_nil _).symm⟩
  | cons item bound inductionHypothesis =>
      obtain ⟨kind, socket⟩ := item
      refine ⟨⟨announced, ready _ List.mem_cons_self⟩, fun told => ?_⟩
      have goesOn : transcript <+: transcript ++ [⟨.serve kind socket tls, told⟩] := ⟨_, rfl⟩
      have rest := inductionHypothesis (announced.mono goesOn) fun item member =>
        have both := ready item (List.mem_cons_of_mem _ member)
        ⟨both.1.mono goesOn, both.2.mono goesOn⟩
      refine rest.mono (fun _ _ permitted => permitted) fun later result settled =>
        settled.mono fun _ ⟨further, same⟩ => ⟨goesOn.trans further, ?_⟩
      rw [same]
      simp [served]

theorem keeps_askServeEncrypted {tls : Option Tls} {bound : List (BindKind × Socket)}
    (announced : Announced transcript) (ready : ∀ item ∈ bound, Bound transcript item)
    (certificate : ∀ one ∈ tls, ⟨.serverConfig, .ok one⟩ ∈ transcript)
    (plain : tls = none → ∀ item ∈ bound, item.1.isEncrypted = false) :
    Keeps config
      (fun later _ => transcript <+: later ∧ served later = served transcript ++
        grouped encryptedOrder (fun item => item.1.scheme) bound)
      transcript (askServeEncrypted bound tls) := by
  cases tls with
  | some tls =>
      refine keeps_askServeAll announced fun item member => ?_
      obtain ⟨inside, encrypted⟩ := mem_grouped.mp member
      exact ⟨ready item inside, (decide_eq_true encrypted).symm, certificate⟩
  | none =>
      have nothing : grouped encryptedOrder (fun item => item.1.scheme) bound = [] := by
        apply List.eq_nil_iff_forall_not_mem.mpr
        intro item member
        obtain ⟨inside, encrypted⟩ := mem_grouped.mp member
        exact of_decide_eq_false (plain rfl item inside) encrypted
      refine ⟨List.prefix_rfl, ?_⟩
      rw [nothing, List.append_nil]

theorem keeps_askServeUi {listener : Option Socket} (announced : Announced transcript)
    (ready : ∀ one ∈ listener, ⟨.bindUi, .ok one⟩ ∈ transcript) :
    Keeps config
      (fun later _ => transcript <+: later ∧ served later = served transcript ∧
        (listener.isSome = true → ∃ one, ⟨.serveUi one, ()⟩ ∈ later))
      transcript (askServeUi listener) := by
  cases listener with
  | some listener =>
      refine ⟨⟨announced, ready listener rfl⟩, fun told => ⟨⟨_, rfl⟩, ?_, fun _ => ?_⟩⟩
      · simp [served]
      · exact ⟨listener, List.mem_append_right _ (List.mem_singleton_self _)⟩
  | none => exact ⟨List.prefix_rfl, rfl, fun wanted => by cases wanted⟩

theorem keeps_askServe {kinds : List BindKind} {bound : List (BindKind × Socket)}
    {tls : Option Tls} {ui : Option Socket} (quiet : Quiet transcript)
    (parsed : config.binds.mapM parseBind = .ok kinds)
    (complete : (bound.map Prod.fst).Perm kinds) (ready : ∀ item ∈ bound, Bound transcript item)
    (certificate : ∀ one ∈ tls, ⟨.serverConfig, .ok one⟩ ∈ transcript)
    (plain : tls = none → ∀ kind ∈ kinds, kind.isEncrypted = false)
    (wanted : config.ui = true → ui.isSome = true)
    (listening : ∀ one ∈ ui, ⟨.bindUi, .ok one⟩ ∈ transcript) :
    Keeps config (fun later _ => Launched config later) transcript
      (askServe bound tls ui) := by
  refine ⟨⟨quiet, kinds, parsed, fun kind member => ?_⟩, fun notified => ?_⟩
  · obtain ⟨⟨_, socket⟩, inside, rfl⟩ := List.mem_map.mp (complete.mem_iff.mpr member)
    exact ⟨socket, ready _ inside⟩
  have announced : Announced (transcript ++ [⟨.notifyReady, notified⟩]) :=
    ⟨notified, List.mem_append_right _ (List.mem_singleton_self _)⟩
  have first : transcript <+: transcript ++ [⟨.notifyReady, notified⟩] := ⟨_, rfl⟩
  refine keeps_andThen (keeps_askServeAll announced fun item member => ?_) ?_
  · obtain ⟨inside, open_⟩ := mem_grouped.mp member
    refine ⟨(ready item inside).mono first, ?_, fun one member => by cases member⟩
    exact (decide_eq_false (not_mem_encryptedOrder open_)).symm
  rintro second _ ⟨toSecond, servedPlain⟩
  have front := first.trans toSecond
  refine keeps_andThen (keeps_askServeEncrypted (announced.mono toSecond)
    (fun item member => (ready item member).mono front)
    (fun one member => front.subset (certificate one member))
    fun none_ item member => plain none_ item.1
      (complete.mem_iff.mp (List.mem_map_of_mem member))) ?_
  rintro third _ ⟨toThird, servedAll⟩
  have announcedThird := announced.mono (toSecond.trans toThird)
  refine keeps_andThen (keeps_askServeUi announcedThird fun one member =>
    (front.trans toThird).subset (listening one member)) ?_
  rintro fourth _ ⟨toFourth, servedSame, uiServed⟩
  refine ⟨announcedThird.mono toFourth, fun told => ?_⟩
  cases told with
  | error e => exact .inr ⟨fourth, rfl⟩
  | ok _ =>
      have goesOn : fourth <+: fourth ++ [⟨.hangup, .ok ()⟩] := ⟨_, rfl⟩
      refine ⟨(announcedThird.mono toFourth).mono goesOn, ⟨kinds, parsed, ?_⟩, fun on => ?_⟩
      · have none_ : served (transcript ++ [⟨.notifyReady, notified⟩]) = [] := by
          simpa [served] using quiet.served_eq_nil
        have last : served (fourth ++ [⟨.hangup, .ok ()⟩]) = served fourth := by
          simp [served]
        rw [last, servedSame, servedAll, servedPlain, none_, List.nil_append, ← grouped_append]
        exact ((grouped_perm (by decide) mem_plain_append_encrypted _ bound).map
          Prod.fst).trans complete
      · obtain ⟨one, member⟩ := uiServed (wanted on)
        exact ⟨one, goesOn.subset member⟩

end Parts

/-- The service manager is told once and only when every configured address is read and
bound, no loop starts before that or on a socket that was not bound for it, encrypted loops
have the certificate, and a start-up that succeeds serves every configured address. -/
theorem ready_when_everything_is_bound (config : LaunchConfig)
    {transcript : List (LaunchExchange Socket Tls)} {rest : Launch Socket Tls Unit}
    (reached : Interaction.Reaches (run config) transcript rest) :
    (∀ earlier exchange later, transcript = earlier ++ exchange :: later →
      Permitted config earlier exchange.1) ∧
      ∀ result, rest = .done result →
        Settles (fun transcript _ => Launched config transcript) transcript result := by
  have kept : Keeps config
      (fun (later : List (LaunchExchange Socket Tls)) _ => Launched config later) []
      (run config) := by
    refine keeps_andThen (keeps_askStages fun _ member => by cases member) ?_
    intro first _ quiet
    cases parsed : config.binds.mapM parseBind with
    | error e => exact .inl quiet
    | ok kinds =>
        change Keeps config _ first ((askServerConfig kinds).andThen _)
        refine keeps_andThen (keeps_askServerConfig kinds quiet) ?_
        rintro second tls ⟨quiet, certificate, plain⟩
        refine keeps_andThen (keeps_askBindAll _ quiet) ?_
        rintro third bound ⟨quiet, toThird, same, ready⟩
        refine keeps_andThen (keeps_askUi config.ui quiet) ?_
        rintro fourth ui ⟨quiet, toFourth, wanted, listening⟩
        have complete : (bound.map Prod.fst).Perm kinds :=
          same ▸ grouped_perm (by decide) mem_bindOrder _ kinds
        exact keeps_askServe quiet parsed complete
          (fun item member => (ready item member).mono toFourth)
          (fun one member => (toThird.trans toFourth).subset (certificate one member))
          plain wanted listening
  obtain ⟨goesOn, asked⟩ := reached.always kept
  refine ⟨asked, fun result finished => ?_⟩
  subst finished
  exact goesOn

/-- A TLS listener that is configured before the plain one, with a service manager that
cannot be told. -/
theorem two_binds_launched :
    Launched ⟨["tls://127.0.0.1:853".toList, "127.0.0.1:53".toList], true⟩
      ([⟨.initLogs, .ok ()⟩, ⟨.initUpstreams, .ok ()⟩, ⟨.initRules, .ok ()⟩,
        ⟨.serverConfig, .ok ()⟩, ⟨.bindUdp (.V4 0x7f000001#32 53), .ok 4⟩,
        ⟨.bindTcp (.V4 0x7f000001#32 853), .ok 5⟩, ⟨.bindUi, .ok 6⟩,
        ⟨.notifyReady, .error "no socket".toList⟩,
        ⟨.serve ⟨.Udp, .V4 0x7f000001#32 53⟩ 4 none, ()⟩,
        ⟨.serve ⟨.Tls, .V4 0x7f000001#32 853⟩ 5 (some ()), ()⟩,
        ⟨.serveUi 6, ()⟩, ⟨.hangup, .ok ()⟩] : List (LaunchExchange Nat Unit)) := by
  let config : LaunchConfig := ⟨["tls://127.0.0.1:853".toList, "127.0.0.1:53".toList], true⟩
  let origin : Launch Nat Unit Unit := run config
  have atStart : Interaction.Reaches origin [] origin := .start
  have initialized := ((atStart.told (.ok ())).told (.ok ())).told (.ok ())
  have bound := (((initialized.told (.ok ())).told (.ok 4)).told (.ok 5)).told (.ok 6)
  have announced := bound.told (.error "no socket".toList)
  have finished := (((announced.told ()).told ()).told ()).told (.ok ())
  exact (ready_when_everything_is_bound config finished).2 _ rfl

end Rsdns.Server
