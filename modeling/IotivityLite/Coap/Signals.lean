import IotivityLite.Foundation.Memory
import IotivityLite.Foundation.Run
import Mathlib.Data.List.Infix
import Mathlib.Logic.Function.Basic

/-!
# Signal messages between the ends of a connection

Both ends of a TCP connection run the handler of `signal.c`, and what is sent
to an end comes there in order.  While the state of an end says that no CSM was
sent, or there is no connection yet, `coap_send_message` puts one in front of a
message to an endpoint of version `OCF_VER_1_0_0`, and it leaves the state as
it is.
-/

namespace IotivityLite

inductive TcpCsmState where
  | none
  | sent
  | done
  deriving DecidableEq

/-- The end that opened the connection and the one that accepted it. -/
inductive Side where
  | initiator
  | acceptor
  deriving DecidableEq

def Side.peer : Side → Side
  | .initiator => .acceptor
  | .acceptor => .initiator

/-- A signal as the parser delivers it, where the custody option has no
value. -/
inductive SignalMessage where
  | csm
  | ping (token : Bytes) (custody : Bool)
  | pong (token : Bytes) (custody : Bool)
  | release
  | abort
  deriving DecidableEq

namespace SignalMessage

def ping? : SignalMessage → Option (Bytes × Bool)
  | .ping token custody => some (token, custody)
  | _ => none

def pong? : SignalMessage → Option (Bytes × Bool)
  | .pong token custody => some (token, custody)
  | _ => none

end SignalMessage

/-- What `coap_send_message` puts in front of a message; `ocf` says that the
version of the endpoint is `OCF_VER_1_0_0`. -/
def csmInFront (ocf : Bool) (state : TcpCsmState) : List SignalMessage :=
  if ocf = true ∧ state = .none then [.csm] else []

/-- The new state of the end, and what it sends if there is memory for a
message. -/
def TcpCsmState.coapSignalHandleMessage (state : TcpCsmState)
    (allocated : Bool) : SignalMessage → TcpCsmState × List SignalMessage
  | .csm =>
      (.done, if state = .none ∧ allocated = true then [.csm] else [])
  | .ping token custody =>
      (state, if allocated = true then [.pong token custody] else [])
  | .pong _ _ | .release | .abort => (state, [])

/-- What is on the way to an end, the pings that an end sent and the pongs
that came to it, and how many messages were handled.  The session of the
initiator begins when the connection stands. -/
structure SignalLink where
  isOpen : Bool
  stands : Bool
  csm : Side → TcpCsmState
  onTheWay : Side → List SignalMessage
  pinged : Side → List (Bytes × Bool)
  ponged : Side → List (Bytes × Bool)
  handled : Nat

/-- `send` is a request or a response, and `deliver` hands an end its next
message. -/
inductive SignalEvent where
  | stand
  | send (side : Side) (ocf : Bool)
  | ping (side : Side) (token : Bytes) (custody ocf : Bool)
  | release (side : Side)
  | abort (side : Side)
  | deliver (side : Side) (allocated : Bool)
  deriving DecidableEq

namespace SignalLink

def initial : SignalLink where
  isOpen := true
  stands := false
  csm _ := .none
  onTheWay _ := []
  pinged _ := []
  ponged _ := []
  handled := 0

/-- The initiator's requests and pings can wait for the connection. -/
def admits (link : SignalLink) : SignalEvent → Bool
  | .stand => !link.stands
  | .send side _ | .ping side _ _ _ => link.stands || side == .initiator
  | .release _ | .abort _ | .deliver _ _ => link.stands

/-- The session is created in the state `CSM_SENT`. -/
def stand (link : SignalLink) : SignalLink :=
  { link with
    stands := true
    csm := Function.update link.csm .initiator .sent }

def put (link : SignalLink) (side : Side) (messages : List SignalMessage) :
    SignalLink :=
  { link with
    onTheWay := Function.update link.onTheWay side.peer
      (link.onTheWay side.peer ++ messages) }

/-- A release closes the session. -/
def take (link : SignalLink) (side : Side) (message : SignalMessage)
    (rest : List SignalMessage) (state : TcpCsmState) : SignalLink :=
  { link with
    isOpen := message ≠ .release
    csm := Function.update link.csm side state
    onTheWay := Function.update link.onTheWay side rest
    ponged := Function.update link.ponged side
      (link.ponged side ++ message.pong?.toList)
    handled := link.handled + 1 }

def deliver (link : SignalLink) (side : Side) (allocated : Bool)
    (message : SignalMessage) (rest : List SignalMessage) : SignalLink :=
  let handled := (link.csm side).coapSignalHandleMessage allocated message
  (link.take side message rest handled.1).put side handled.2

def coapSendPingMessage (link : SignalLink) (side : Side) (token : Bytes)
    (custody ocf : Bool) : SignalLink :=
  if token.length = 0 then link
  else
    { link.put side
        (csmInFront ocf (link.csm side) ++ [.ping token custody]) with
      pinged := Function.update link.pinged side
        (link.pinged side ++ [(token, custody)]) }

def step (link : SignalLink) (event : SignalEvent) : SignalLink :=
  if link.isOpen && link.admits event then
    match event with
    | .stand => link.stand
    | .send side ocf => link.put side (csmInFront ocf (link.csm side))
    | .ping side token custody ocf =>
        link.coapSendPingMessage side token custody ocf
    | .release side => link.put side [.release]
    | .abort side => link.put side [.abort]
    | .deliver side allocated =>
        match link.onTheWay side with
        | [] => link
        | message :: rest => link.deliver side allocated message rest
  else link

end SignalLink

section Sides

variable (link : SignalLink) (side : Side)

@[simp] theorem Side.peer_peer : side.peer.peer = side := by
  cases side <;> rfl

theorem Side.peer_ne : side.peer ≠ side := by
  cases side <;> exact (by decide)

theorem Side.eq_or_eq_peer (other : Side) :
    other = side ∨ other = side.peer := by
  cases side <;> cases other <;> decide

@[simp] theorem onTheWay_put_peer (messages : List SignalMessage) :
    (link.put side messages).onTheWay side.peer =
      link.onTheWay side.peer ++ messages :=
  Function.update_self ..

@[simp] theorem onTheWay_put_self (messages : List SignalMessage) :
    (link.put side messages).onTheWay side = link.onTheWay side :=
  Function.update_of_ne (Side.peer_ne side).symm ..

end Sides

/-- What the messages can still cause: a ping is answered. -/
def signalLoad (messages : List SignalMessage) : Nat :=
  messages.length + (messages.filterMap SignalMessage.ping?).length

/-- A side that has not seen a CSM answers one. -/
def TcpCsmState.owed (state : TcpCsmState) : Nat :=
  if state = .none then 1 else 0

/-- The initiator's state is another one when the connection stands. -/
def SignalLink.owed (link : SignalLink) (side : Side) : Nat :=
  if link.stands = false ∧ side = .initiator then 0 else (link.csm side).owed

def SignalLink.potential (link : SignalLink) : Nat :=
  signalLoad (link.onTheWay .initiator) + signalLoad (link.onTheWay .acceptor) +
    link.owed .initiator + link.owed .acceptor

/-- What an event may add to it. -/
def SignalEvent.cost : SignalEvent → Nat
  | .ping _ _ _ _ => 3
  | .send _ _ | .release _ | .abort _ => 1
  | .stand | .deliver _ _ => 0

def totalCost : List SignalEvent → Nat
  | [] => 0
  | event :: events => event.cost + totalCost events

theorem filterMap_cons_toList (read : SignalMessage → Option (Bytes × Bool))
    (message : SignalMessage) (rest : List SignalMessage) :
    (message :: rest).filterMap read =
      (read message).toList ++ rest.filterMap read := by
  rw [List.filterMap_cons]
  cases read message <;> rfl

theorem signalLoad_append (first second : List SignalMessage) :
    signalLoad (first ++ second) = signalLoad first + signalLoad second := by
  simp only [signalLoad, List.length_append, List.filterMap_append]
  omega

theorem signalLoad_cons (message : SignalMessage)
    (rest : List SignalMessage) :
    signalLoad (message :: rest) =
      1 + message.ping?.toList.length + signalLoad rest := by
  rw [signalLoad, filterMap_cons_toList, List.length_cons,
    List.length_append, signalLoad]
  omega

theorem potential_eq (link : SignalLink) (side : Side) :
    link.potential = signalLoad (link.onTheWay side) +
      signalLoad (link.onTheWay side.peer) + link.owed side +
        link.owed side.peer := by
  unfold SignalLink.potential
  cases side with
  | initiator => rfl
  | acceptor =>
      simp only [Side.peer]
      omega

theorem potential_put (link : SignalLink) (side : Side)
    (messages : List SignalMessage) :
    (link.put side messages).potential =
      link.potential + signalLoad messages := by
  rw [potential_eq _ side, potential_eq link side, onTheWay_put_self,
    onTheWay_put_peer, signalLoad_append]
  show _ + _ + link.owed side + link.owed side.peer = _
  omega

theorem signalLoad_csmInFront_le (ocf : Bool) (state : TcpCsmState) :
    signalLoad (csmInFront ocf state) ≤ 1 := by
  cases ocf <;> cases state <;> decide

variable {link : SignalLink}

theorem owed_of_stands (stands : link.stands = true) (side : Side) :
    link.owed side = (link.csm side).owed :=
  if_neg fun early => Bool.noConfusion (stands.symm.trans early.1)

theorem potential_stand (early : link.stands = false) :
    link.stand.potential = link.potential := by
  have before : link.owed .initiator = 0 := if_pos ⟨early, rfl⟩
  have acceptor : link.owed .acceptor = (link.csm .acceptor).owed :=
    if_neg fun both => by cases both.2
  unfold SignalLink.potential
  rw [before, acceptor]
  rfl

variable (state : TcpCsmState)

theorem load_handled_le (allocated : Bool) (message : SignalMessage) :
    signalLoad (state.coapSignalHandleMessage allocated message).2 +
        (state.coapSignalHandleMessage allocated message).1.owed ≤
      message.ping?.toList.length + state.owed := by
  cases message with
  | csm => cases state <;> cases allocated <;> decide
  | ping token custody =>
      cases allocated with
      | false => exact Nat.add_le_add_right (Nat.zero_le 1) state.owed
      | true => exact Nat.le_refl (1 + state.owed)
  | pong token custody => exact Nat.le_refl _
  | release => exact Nat.le_refl _
  | abort => exact Nat.le_refl _

variable {rest : List SignalMessage} {message : SignalMessage} {side : Side}

theorem potential_deliver (waiting : link.onTheWay side = message :: rest)
    (stands : link.stands = true) (allocated : Bool) :
    (link.deliver side allocated message rest).potential < link.potential := by
  have less := load_handled_le (link.csm side) allocated message
  have still : ∀ state, (link.take side message rest state).stands = true :=
    fun _ => stands
  unfold SignalLink.deliver
  rw [potential_put, potential_eq _ side, potential_eq link side, waiting,
    signalLoad_cons, owed_of_stands stands, owed_of_stands stands,
    owed_of_stands (still _), owed_of_stands (still _)]
  simp only [SignalLink.take, Function.update_self,
    Function.update_of_ne (Side.peer_ne side)]
  omega

/-- An event adds at most its cost to what was and will be handled. -/
theorem handled_add_potential_step (link : SignalLink)
    (event : SignalEvent) :
    (link.step event).handled + (link.step event).potential ≤
      link.handled + link.potential + event.cost := by
  unfold SignalLink.step
  split
  case isFalse => omega
  case isTrue admitted =>
    cases event with
    | stand =>
        have early : link.stands = false := by
          simpa [SignalLink.admits] using (Bool.and_eq_true_iff.mp admitted).2
        show link.handled + _ ≤ _
        rw [potential_stand early]
        exact Nat.le_refl _
    | send side ocf =>
        have small := signalLoad_csmInFront_le ocf (link.csm side)
        show link.handled + _ ≤ _
        rw [potential_put]
        simp only [SignalEvent.cost]
        omega
    | ping side token custody ocf =>
        have small := signalLoad_csmInFront_le ocf (link.csm side)
        have sent := potential_put link side
          (csmInFront ocf (link.csm side) ++ [.ping token custody])
        rw [signalLoad_append] at sent
        unfold SignalLink.coapSendPingMessage
        simp only [SignalEvent.cost]
        split
        · omega
        · show link.handled + (link.put side _).potential ≤ _
          rw [sent]
          have ping : signalLoad [.ping token custody] = 2 := rfl
          omega
    | release side =>
        show link.handled + _ ≤ _
        rw [potential_put]
        exact Nat.le_of_eq (Nat.add_assoc ..).symm
    | abort side =>
        show link.handled + _ ≤ _
        rw [potential_put]
        exact Nat.le_of_eq (Nat.add_assoc ..).symm
    | deliver side allocated =>
        cases waiting : link.onTheWay side with
        | nil =>
            simp only [waiting]
            omega
        | cons message rest =>
            have less := potential_deliver waiting
              (Bool.and_eq_true_iff.mp admitted).2 allocated
            simp only [waiting]
            show link.handled + 1 + _ ≤ _
            omega

/-- In every run of a connection the messages that are handled and those that
are on the way are bounded by what the applications send: no signal goes back
and forth. -/
theorem signals_bounded (events : List SignalEvent) :
    (runFrom SignalLink.step .initial events).handled +
        (runFrom SignalLink.step .initial events).potential ≤
      1 + totalCost events := by
  have general : ∀ link : SignalLink,
      (runFrom SignalLink.step link events).handled +
          (runFrom SignalLink.step link events).potential ≤
        link.handled + link.potential + totalCost events := by
    induction events with
    | nil => exact fun link => Nat.le_refl _
    | cons event events ih =>
        intro link
        have one := handled_add_potential_step link event
        have later := ih (link.step event)
        rw [runFrom_cons, totalCost]
        omega
  exact general .initial

/-- The pongs that came are those of the first pings in their order, and the
others are on the way, as pongs or still as pings. -/
def SignalLink.Paired (link : SignalLink) : Prop :=
  ∀ side, link.pinged side = link.ponged side ++
    (link.onTheWay side).filterMap SignalMessage.pong? ++
      (link.onTheWay side.peer).filterMap SignalMessage.ping?

def SignalEvent.Allocated : SignalEvent → Prop
  | .deliver _ allocated => allocated = true
  | _ => True

theorem SignalLink.Paired.put (paired : link.Paired) (side : Side)
    (messages : List SignalMessage)
    (noPing : messages.filterMap SignalMessage.ping? = [])
    (noPong : messages.filterMap SignalMessage.pong? = []) :
    (link.put side messages).Paired := by
  intro other
  have here := paired other
  show link.pinged other = link.ponged other ++ _ ++ _
  rcases side.eq_or_eq_peer other with rfl | rfl
  · rw [onTheWay_put_self, onTheWay_put_peer, List.filterMap_append, noPing,
      List.append_nil]
    exact here
  · rw [onTheWay_put_peer, Side.peer_peer, onTheWay_put_self,
      List.filterMap_append, noPong, List.append_nil]
    rw [Side.peer_peer] at here
    exact here

theorem filterMap_ping_handled (allocated : Bool) (message : SignalMessage) :
    (state.coapSignalHandleMessage allocated message).2.filterMap
      SignalMessage.ping? = [] := by
  cases message with
  | csm => cases state <;> cases allocated <;> rfl
  | ping token custody => cases allocated <;> rfl
  | pong token custody => rfl
  | release => rfl
  | abort => rfl

theorem filterMap_pong_handled (message : SignalMessage) :
    (state.coapSignalHandleMessage true message).2.filterMap
      SignalMessage.pong? = message.ping?.toList := by
  cases message with
  | csm => cases state <;> rfl
  | ping token custody => rfl
  | pong token custody => rfl
  | release => rfl
  | abort => rfl

theorem SignalLink.Paired.deliver (paired : link.Paired)
    (waiting : link.onTheWay side = message :: rest) :
    (link.deliver side true message rest).Paired := by
  intro other
  have here := paired other
  unfold SignalLink.deliver
  show link.pinged other = Function.update link.ponged side _ other ++ _ ++ _
  rcases side.eq_or_eq_peer other with rfl | rfl
  · rw [waiting, filterMap_cons_toList] at here
    rw [onTheWay_put_self, onTheWay_put_peer, List.filterMap_append,
      filterMap_ping_handled, List.append_nil]
    simp only [SignalLink.take, Function.update_self,
      Function.update_of_ne (Side.peer_ne other), here, List.append_assoc]
  · rw [Side.peer_peer, waiting, filterMap_cons_toList] at here
    rw [onTheWay_put_peer, Side.peer_peer, onTheWay_put_self,
      List.filterMap_append, filterMap_pong_handled]
    simp only [SignalLink.take, Function.update_self,
      Function.update_of_ne (Side.peer_ne side), here, List.append_assoc]

theorem filterMap_csmInFront (ocf : Bool) (state : TcpCsmState)
    {read : SignalMessage → Option (Bytes × Bool)}
    (unread : read .csm = none) : (csmInFront ocf state).filterMap read = [] := by
  unfold csmInFront
  split
  · rw [List.filterMap_cons_none unread, List.filterMap_nil]
  · rfl

theorem SignalLink.Paired.ping (paired : link.Paired) (side : Side)
    (token : Bytes) (custody ocf : Bool) :
    (link.coapSendPingMessage side token custody ocf).Paired := by
  unfold SignalLink.coapSendPingMessage
  split
  · exact paired
  · intro other
    have here := paired.put side (csmInFront ocf (link.csm side))
      (filterMap_csmInFront _ _ rfl) (filterMap_csmInFront _ _ rfl) other
    show Function.update link.pinged side _ other =
      link.ponged other ++ _ ++ _
    change link.pinged other = link.ponged other ++ _ ++ _ at here
    rcases side.eq_or_eq_peer other with rfl | rfl
    · rw [onTheWay_put_self, onTheWay_put_peer] at here
      rw [Function.update_self]
      show _ = _ ++ ((link.put other _).onTheWay other).filterMap _ ++
        ((link.put other _).onTheWay other.peer).filterMap _
      rw [onTheWay_put_self, onTheWay_put_peer, ← List.append_assoc,
        List.filterMap_append, ← List.append_assoc, ← here]
      rfl
    · rw [onTheWay_put_peer, Side.peer_peer, onTheWay_put_self] at here
      rw [Function.update_of_ne (Side.peer_ne side)]
      show _ = _ ++ ((link.put side _).onTheWay side.peer).filterMap _ ++
        ((link.put side _).onTheWay side.peer.peer).filterMap _
      rw [onTheWay_put_peer, Side.peer_peer, onTheWay_put_self,
        ← List.append_assoc, List.filterMap_append]
      show _ = _ ++ (_ ++ []) ++ _
      rw [List.append_nil]
      exact here

/-- The pings and pongs stay paired as long as there is memory for pongs. -/
theorem SignalLink.Paired.step (paired : link.Paired) {event : SignalEvent}
    (allocated : event.Allocated) : (link.step event).Paired := by
  unfold SignalLink.step
  split
  case isFalse => exact paired
  case isTrue =>
    cases event with
    | stand => exact paired
    | send side ocf =>
        exact paired.put side _ (filterMap_csmInFront _ _ rfl)
          (filterMap_csmInFront _ _ rfl)
    | ping side token custody ocf => exact paired.ping side token custody ocf
    | release side => exact paired.put side _ rfl rfl
    | abort side => exact paired.put side _ rfl rfl
    | deliver side memory =>
        obtain rfl : memory = true := allocated
        cases waiting : link.onTheWay side with
        | nil =>
            simp only [waiting]
            exact paired
        | cons message rest =>
            simp only [waiting]
            exact paired.deliver waiting

theorem paired_initial : SignalLink.initial.Paired := fun _ => rfl

/-- In every run in which there is memory for the answers, the pongs that come
to a side are those of its first pings, each with its token and custody
option, in order; and when nothing is on the way, every ping was answered. -/
theorem pongs_in_order {events : List SignalEvent}
    (allocated : ∀ event ∈ events, event.Allocated) (side : Side) :
    let last := runFrom SignalLink.step .initial events
    last.ponged side <+: last.pinged side ∧
      (last.onTheWay side = [] → last.onTheWay side.peer = [] →
        last.ponged side = last.pinged side) := by
  have paired := @invariant_runFrom_of_mem _ _ SignalLink.step _
    SignalLink.Paired _ paired_initial
    (fun before event member holds => holds.step (allocated event member))
    side
  refine ⟨?_, ?_⟩
  · rw [paired, List.append_assoc]
    exact List.prefix_append _ _
  · intro here there
    rw [paired, here, there]
    exact ((List.append_nil _).trans (List.append_nil _)).symm

/-- One ping of the end that opened the connection. -/
theorem pongs_in_order_of_exchange :
    (runFrom SignalLink.step .initial [.stand, .ping .initiator [7] true false,
      .deliver .acceptor true, .deliver .initiator true]).ponged .initiator =
        [([7], true)] :=
  (@pongs_in_order [.stand, .ping .initiator [7] true false,
    .deliver .acceptor true, .deliver .initiator true]
      (by simp [SignalEvent.Allocated]) .initiator).2 rfl rfl

/-- A message of the initiator to an endpoint of version `OCF_VER_1_0_0`. -/
def SignalEvent.Tells : SignalEvent → Prop
  | .send .initiator ocf => ocf = true
  | .ping .initiator token _ ocf => token ≠ [] ∧ ocf = true
  | _ => False

/-- The connection does not stand, and a CSM is on the way to the acceptor if
one was sent. -/
structure SignalLink.Waits (link : SignalLink) (told : Prop) : Prop where
  isOpen : link.isOpen = true
  stands : link.stands = false
  csm : ∀ side, link.csm side = .none
  onTheWay : .csm ∈ link.onTheWay .acceptor ↔ told
  unreleased : .release ∉ link.onTheWay .acceptor

section Told

variable {told : Prop}

theorem SignalLink.Waits.put (waits : link.Waits told)
    {messages : List SignalMessage} {tells : Prop}
    (some : .csm ∈ messages ↔ tells) (clean : .release ∉ messages) :
    (link.put .initiator messages).Waits (told ∨ tells) where
  isOpen := waits.isOpen
  stands := waits.stands
  csm := waits.csm
  onTheWay := by
    show .csm ∈ link.onTheWay .acceptor ++ messages ↔ _
    rw [List.mem_append, waits.onTheWay, some]
  unreleased := by
    show .release ∉ link.onTheWay .acceptor ++ messages
    exact List.mem_append.not.mpr (not_or.mpr ⟨waits.unreleased, clean⟩)

/-- Before the connection stands, messages wait behind each other. -/
theorem SignalLink.Waits.step (waits : link.Waits told) {event : SignalEvent}
    (before : event ≠ .stand) : (link.step event).Waits (told ∨ event.Tells) := by
  have front : ∀ ocf, (SignalMessage.csm ∈ csmInFront ocf .none ↔
      ocf = true) ∧ SignalMessage.release ∉ csmInFront ocf .none := by decide
  have refused : ∀ other : SignalEvent, link.admits other = false →
      ¬ other.Tells → (link.step other).Waits (told ∨ other.Tells) := by
    intro other not nothing
    unfold SignalLink.step
    rw [not, Bool.and_false, if_neg Bool.false_ne_true, or_iff_left nothing]
    exact waits
  cases event with
  | stand => exact absurd rfl before
  | release side => exact refused _ waits.stands not_false
  | abort side => exact refused _ waits.stands not_false
  | deliver side allocated => exact refused _ waits.stands not_false
  | send side ocf =>
      cases side with
      | acceptor =>
          exact refused _ (by simp [SignalLink.admits, waits.stands]) not_false
      | initiator =>
          unfold SignalLink.step
          rw [if_pos (by simp [SignalLink.admits, waits.isOpen])]
          simp only [waits.csm]
          exact waits.put (front ocf).1 (front ocf).2
  | ping side token custody ocf =>
      cases side with
      | acceptor =>
          exact refused _ (by simp [SignalLink.admits, waits.stands]) not_false
      | initiator =>
          unfold SignalLink.step
          rw [if_pos (by simp [SignalLink.admits, waits.isOpen])]
          simp only [SignalLink.coapSendPingMessage, waits.csm,
            List.length_eq_zero_iff]
          split
          case isTrue none =>
            rw [or_iff_left fun tells => tells.1 none]
            exact waits
          case isFalse some =>
            have sent := @waits.put _ _ (csmInFront ocf .none ++
              [.ping token custody]) (token ≠ [] ∧ ocf = true)
              (by simp [front, some]) (by simp [front])
            exact ⟨sent.isOpen, sent.stands, sent.csm, sent.onTheWay,
              sent.unreleased⟩

/-- By then the acceptor will be told exactly if one of the messages tells. -/
theorem SignalLink.Waits.run {early : List SignalEvent}
    (before : .stand ∉ early) (waits : link.Waits told) :
    (runFrom SignalLink.step link early).Waits
      (told ∨ ∃ event ∈ early, event.Tells) := by
  induction early generalizing link told with
  | nil => simpa using waits
  | cons event rest ih =>
      rw [List.mem_cons, not_or] at before
      rw [List.exists_mem_cons_iff, ← or_assoc]
      exact ih before.2 (waits.step (Ne.symm before.1))

/-- The connection stands, and no CSM ever goes to the end that accepted it. -/
structure SignalLink.Silent (link : SignalLink) : Prop where
  initiator : link.csm .initiator ≠ .none
  acceptor : link.csm .acceptor = .none
  onTheWay : .csm ∉ link.onTheWay .acceptor

theorem SignalLink.Silent.put (silent : link.Silent) {side : Side}
    {messages : List SignalMessage}
    (clean : side = .initiator → .csm ∉ messages) :
    (link.put side messages).Silent := by
  refine ⟨silent.initiator, silent.acceptor, ?_⟩
  cases side with
  | initiator =>
      show .csm ∉ link.onTheWay .acceptor ++ messages
      exact List.mem_append.not.mpr (not_or.mpr ⟨silent.onTheWay, clean rfl⟩)
  | acceptor =>
      rw [onTheWay_put_self]
      exact silent.onTheWay

/-- An end that has sent a CSM sends no other, and one that has not does so
only when one comes. -/
theorem coapSignalHandleMessage_silent (allocated : Bool)
    (message : SignalMessage) :
    (state ≠ .none →
      (state.coapSignalHandleMessage allocated message).1 ≠ .none ∧
        .csm ∉ (state.coapSignalHandleMessage allocated message).2) ∧
    (state = .none → message ≠ .csm →
      (state.coapSignalHandleMessage allocated message).1 = .none) := by
  cases message <;> cases allocated <;>
    simp +contextual [TcpCsmState.coapSignalHandleMessage]

theorem SignalLink.Silent.deliver (silent : link.Silent)
    (waiting : link.onTheWay side = message :: rest) (allocated : Bool) :
    (link.deliver side allocated message rest).Silent := by
  obtain ⟨sent, unsent⟩ :=
    coapSignalHandleMessage_silent (link.csm side) allocated message
  cases side with
  | initiator =>
      obtain ⟨told, nothing⟩ := sent silent.initiator
      have taken : (link.take .initiator message rest
          ((link.csm .initiator).coapSignalHandleMessage allocated
            message).1).Silent :=
        ⟨told, silent.acceptor, silent.onTheWay⟩
      exact taken.put fun _ => nothing
  | acceptor =>
      have clean := silent.onTheWay
      rw [waiting, List.mem_cons, not_or] at clean
      have taken : (link.take .acceptor message rest
          ((link.csm .acceptor).coapSignalHandleMessage allocated
            message).1).Silent :=
        ⟨silent.initiator, unsent silent.acceptor (Ne.symm clean.1), clean.2⟩
      exact taken.put nofun

/-- No event makes the initiator send one. -/
theorem SignalLink.Silent.step (silent : link.Silent) (event : SignalEvent) :
    (link.step event).Silent := by
  unfold SignalLink.step
  split
  case isFalse => exact silent
  case isTrue =>
    have nothing (ocf : Bool) : csmInFront ocf (link.csm .initiator) = [] :=
      if_neg fun both => silent.initiator both.2
    cases event with
    | stand =>
        exact ⟨TcpCsmState.noConfusion, silent.acceptor, silent.onTheWay⟩
    | send side ocf =>
        refine silent.put ?_
        rintro rfl
        simp [nothing]
    | ping side token custody ocf =>
        simp only [SignalLink.coapSendPingMessage]
        split
        · exact silent
        · have put : (link.put side (csmInFront ocf (link.csm side) ++
              [.ping token custody])).Silent := by
            refine silent.put ?_
            rintro rfl
            simp [nothing]
          exact ⟨put.initiator, put.acceptor, put.onTheWay⟩
    | release side => exact silent.put fun _ => by decide
    | abort side => exact silent.put fun _ => by decide
    | deliver side allocated =>
        cases waiting : link.onTheWay side with
        | nil =>
            simp only [waiting]
            exact silent
        | cons message rest =>
            simp only [waiting]
            exact silent.deliver waiting allocated

/-- The acceptor is told by the first CSM, unless a release comes before. -/
theorem exists_told (isOpen : link.isOpen = true)
    (stands : link.stands = true) {before after : List SignalMessage}
    (waiting : link.onTheWay .acceptor = before ++ .csm :: after)
    (unreleased : .release ∉ before) :
    ∃ later, (runFrom SignalLink.step link later).csm .acceptor = .done := by
  induction before generalizing link with
  | nil =>
      refine ⟨[.deliver .acceptor true], ?_⟩
      simp only [runFrom_cons, SignalLink.step, SignalLink.admits, isOpen,
        stands, waiting]
      rfl
  | cons message before ih =>
      rw [List.mem_cons, not_or] at unreleased
      obtain ⟨later, told⟩ := @ih (link.deliver .acceptor true message
        (before ++ .csm :: after))
        (decide_eq_true (show message ≠ .release from Ne.symm unreleased.1))
        stands (by
          unfold SignalLink.deliver
          rw [onTheWay_put_self]
          simp only [SignalLink.take, Function.update_self]) unreleased.2
      refine ⟨.deliver .acceptor true :: later, ?_⟩
      simp only [runFrom_cons, SignalLink.step, SignalLink.admits, isOpen,
        stands, waiting]
      exact told

end Told

/-- The end that accepted the connection is told the settings of the other one
in some run exactly if, before the connection stood, a message was sent to an
endpoint of version `OCF_VER_1_0_0`. -/
theorem acceptor_told_iff {early : List SignalEvent}
    (before : .stand ∉ early) :
    (∃ later, (runFrom SignalLink.step .initial
      (early ++ .stand :: later)).csm .acceptor = .done) ↔
        ∃ event ∈ early, event.Tells := by
  have initial : SignalLink.initial.Waits False :=
    ⟨rfl, rfl, fun _ => rfl, iff_of_false List.not_mem_nil not_false,
      List.not_mem_nil⟩
  have waits := initial.run before
  rw [false_or] at waits
  simp only [runFrom_append, runFrom_cons]
  generalize runFrom SignalLink.step .initial early = link at waits ⊢
  have stood : link.step .stand = link.stand := by
    simp [SignalLink.step, SignalLink.admits, waits.isOpen, waits.stands]
  rw [stood, ← waits.onTheWay]
  constructor
  · rintro ⟨later, told⟩
    by_contra none
    have silent := @invariant_runFrom _ _ SignalLink.step link.stand
      SignalLink.Silent later
      ⟨TcpCsmState.noConfusion, waits.csm .acceptor, none⟩
      fun before event holds => holds.step event
    rw [silent.acceptor] at told
    cases told
  · intro some
    obtain ⟨first, rest, waiting⟩ := List.append_of_mem some
    refine exists_told waits.isOpen rfl waiting fun released => ?_
    apply waits.unreleased
    rw [waiting]
    exact List.mem_append_left _ released

/-- A ping waits for the connection. -/
theorem acceptor_told_of_ping :
    ∃ later, (runFrom SignalLink.step .initial
      ([.ping .initiator [7] false true] ++ .stand :: later)).csm .acceptor =
        .done :=
  (acceptor_told_iff (by decide)).mpr
    ⟨_, List.mem_singleton_self _, List.cons_ne_nil _ _, rfl⟩

end IotivityLite
